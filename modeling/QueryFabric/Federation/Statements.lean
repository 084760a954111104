import QueryFabric.Federation.Schema

/-!
# The statements of migration bodies

A body of SQL is split into statements at the semicolons outside quotes and comments (`statements`).
The guard `ddl_allowed` looks at the start of a body only: its first statement is CREATE or ALTER
(`exists_ddl_of_ddlAllowed`), and `confined_iff` says that the bodies which the host is handed hold
no others just when nothing else follows in them.
-/

namespace QueryFabric.Federation

/-! ## Splitting -/

/-- Where a reader of SQL stands. -/
inductive ScanMode
  | plain
  | quoted (quote : Char)
  | lineComment
  | openComment
  | blockComment
  | closeComment
deriving DecidableEq

/-- The first of some statements with a character before it. -/
def pushChar (c : Char) : List (List Char) → List (List Char)
  | [] => [[c]]
  | statement :: statements => (c :: statement) :: statements

/-- The statements of a text, from a place in its first one. A comment reads as a blank. -/
def scanStatements : ScanMode → List Char → List (List Char)
  | _, [] => [[]]
  | .plain, c :: cs =>
    if c = ';' then [] :: scanStatements .plain cs
    else if c = '\'' ∨ c = '"' ∨ c = '`' then pushChar c (scanStatements (.quoted c) cs)
    else if c = '-' ∧ cs.head? = some '-' then pushChar ' ' (scanStatements .lineComment cs)
    else if c = '/' ∧ cs.head? = some '*' then pushChar ' ' (scanStatements .openComment cs)
    else pushChar c (scanStatements .plain cs)
  -- A doubled quote closes a quoted text and opens the next.
  | .quoted quote, c :: cs =>
    pushChar c (scanStatements (if c = quote then .plain else .quoted quote) cs)
  | .lineComment, c :: cs =>
    if c = '\n' then pushChar c (scanStatements .plain cs) else scanStatements .lineComment cs
  | .openComment, _ :: cs => scanStatements .blockComment cs
  | .blockComment, c :: cs =>
    scanStatements (if c = '*' ∧ cs.head? = some '/' then .closeComment else .blockComment) cs
  | .closeComment, _ :: cs => scanStatements .plain cs

/-- A statement has no characters but white space. -/
def isBlank (statement : List Char) : Bool := statement.all Dialect.isWhitespace

/-- The statements of a body. -/
def statements (sql : String) : List (List Char) :=
  (scanStatements .plain sql.toList).filter fun statement => !isBlank statement

/-- The first word of a statement, in upper case. -/
def keyword (statement : List Char) : List Char :=
  (Dialect.toAsciiUppercase (Dialect.trimStart statement)).takeWhile fun c =>
    c.isAlphanum || c == '_'

/-- Whether a statement is CREATE or ALTER. -/
def isDdlStatement (statement : List Char) : Bool :=
  keyword statement = "CREATE".toList || keyword statement = "ALTER".toList

/-- The characters that end a statement or start a quoted text or a comment. -/
def splitChars : List Char := [';', '\'', '"', '`', '-', '/']

/-- A character that splits nothing goes to the statement under way. -/
theorem scanStatements_plain {c : Char} {cs : List Char} (h : c ∉ splitChars) :
    scanStatements .plain (c :: cs) = pushChar c (scanStatements .plain cs) := by
  simp only [splitChars, List.mem_cons, List.not_mem_nil, or_false, not_or] at h
  obtain ⟨hsemicolon, hsingle, hdouble, hback, hminus, hslash⟩ := h
  rw [scanStatements, if_neg hsemicolon, if_neg (by simp [hsingle, hdouble, hback]),
    if_neg (by simp [hminus]), if_neg (by simp [hslash])]

/-- A character put in front leaves a statement. -/
theorem pushChar_ne_nil (c : Char) (statements : List (List Char)) :
    pushChar c statements ≠ [] := by
  cases statements <;> exact List.cons_ne_nil _ _

/-- A text has a statement at least, which may be empty. -/
theorem scanStatements_ne_nil (cs : List Char) :
    ∀ mode : ScanMode, scanStatements mode cs ≠ [] := by
  induction cs with
  | nil => exact fun mode => List.cons_ne_nil _ _
  | cons c cs ih =>
    intro mode
    cases mode <;> unfold scanStatements
    · split_ifs
      · exact List.cons_ne_nil _ _
      all_goals exact pushChar_ne_nil _ _
    · exact pushChar_ne_nil _ _
    · split_ifs
      · exact pushChar_ne_nil _ _
      · exact ih _
    · exact ih _
    · exact ih _
    · exact ih _

/-- Characters that split nothing stand before the first statement of what follows them. -/
theorem scanStatements_append : ∀ {before : List Char} (rest : List Char),
    (∀ c ∈ before, c ∉ splitChars) →
    ∃ first others, scanStatements .plain (before ++ rest) = (before ++ first) :: others
  | [], rest, _ => List.exists_cons_of_ne_nil (scanStatements_ne_nil rest .plain)
  | c :: before, rest, h => by
    obtain ⟨hc, hbefore⟩ := List.forall_mem_cons.mp h
    obtain ⟨first, others, heq⟩ := scanStatements_append rest hbefore
    refine ⟨first, others, ?_⟩
    rw [List.cons_append, scanStatements_plain hc, heq]
    rfl

/-- White space before a word is trimmed, and nothing else. -/
theorem trimStart_append {gap w : List Char} {c : Char}
    (hgap : ∀ c ∈ gap, Dialect.isWhitespace c = true)
    (hc : Dialect.isWhitespace c = false) : Dialect.trimStart (gap ++ c :: w) = c :: w := by
  unfold Dialect.trimStart
  rw [List.dropWhile_append_of_pos hgap, List.dropWhile_cons_of_neg (Bool.eq_false_iff.mp hc)]

/-- A body whose first word is CREATE or ALTER has a first statement that is so. -/
theorem exists_ddl_of_isPrefix {sql word : String} (hword : word = "CREATE" ∨ word = "ALTER")
    (h : (word.toList ++ [' ']) <+: Dialect.toAsciiUppercase (Dialect.trimStart sql.toList)) :
    ∃ first others, statements sql = first :: others ∧ isDdlStatement first = true := by
  obtain ⟨w, ⟨rest, hrest⟩, hupper⟩ := List.prefix_map_iff.mp h
  let gap := sql.toList.takeWhile Dialect.isWhitespace
  have hsql : sql.toList = gap ++ w ++ rest := by
    rw [List.append_assoc, hrest]
    exact List.takeWhile_append_dropWhile.symm
  have hgap : ∀ c ∈ gap, Dialect.isWhitespace c = true := List.all_eq_true.mp List.all_takeWhile
  -- A character that splits is its own upper case, which is neither white space nor in the word.
  have hsplit : ∀ c ∈ splitChars, Dialect.isWhitespace c = false ∧
      c.toUpper ∉ word.toList ++ [' '] := by
    have hall : (splitChars.all fun c =>
        decide (Dialect.isWhitespace c = false ∧ c.toUpper ∉ word.toList ++ [' '])) = true := by
      obtain rfl | rfl := hword <;> decide
    exact fun c hc => of_decide_eq_true (List.all_eq_true.mp hall c hc)
  have hplain : ∀ c ∈ gap ++ w, c ∉ splitChars := by
    intro c hc hmem
    obtain hc | hc := List.mem_append.mp hc
    · exact absurd (hgap c hc) (Bool.eq_false_iff.mp (hsplit c hmem).1)
    · refine (hsplit c hmem).2 ?_
      rw [hupper]
      exact List.mem_map_of_mem hc
  obtain ⟨first, others, hscan⟩ := scanStatements_append rest hplain
  -- The word starts with no white space.
  obtain ⟨c, w, rfl⟩ : ∃ c v, w = c :: v := by
    refine List.exists_cons_of_ne_nil fun hnil => ?_
    rw [hnil] at hupper
    simp at hupper
  have hc : Dialect.isWhitespace c = false := by
    have hhead := List.head?_dropWhile_not Dialect.isWhitespace sql.toList
    rw [show sql.toList.dropWhile Dialect.isWhitespace = c :: w ++ rest from hrest.symm] at hhead
    exact hhead
  have htrim : Dialect.trimStart (gap ++ c :: w ++ first) = c :: w ++ first := by
    rw [List.append_assoc]
    exact trimStart_append hgap hc
  have hkeyword : keyword (gap ++ c :: w ++ first) = word.toList := by
    have halphanum : (word.toList.all fun c => c.isAlphanum || c == '_') = true := by
      obtain rfl | rfl := hword <;> decide
    rw [keyword, htrim, Dialect.toAsciiUppercase, List.map_append, ← hupper, List.append_assoc,
      List.takeWhile_append_of_pos (List.all_eq_true.mp halphanum)]
    exact List.append_nil _
  refine ⟨gap ++ c :: w ++ first, others.filter fun statement => !isBlank statement, ?_, ?_⟩
  · have hblank : isBlank (gap ++ c :: w ++ first) = false := by
      refine List.all_eq_false.mpr ⟨c, ?_, Bool.eq_false_iff.mp hc⟩
      exact List.mem_append_left _ (List.mem_append_right _ List.mem_cons_self)
    rw [statements, hsql, hscan, List.filter_cons_of_pos (by rw [hblank]; rfl)]
  · rw [isDdlStatement, hkeyword]
    obtain rfl | rfl := hword <;> rfl

/-- The first statement of a body that is allowed is CREATE or ALTER. -/
theorem exists_ddl_of_ddlAllowed {sql : String} (h : ddlAllowed sql = true) :
    ∃ first others, statements sql = first :: others ∧ isDdlStatement first = true := by
  obtain hcreate | halter := Bool.or_eq_true _ _ |>.mp h
  · exact exists_ddl_of_isPrefix (.inl rfl) (List.isPrefixOf_iff_prefix.mp hcreate)
  · exact exists_ddl_of_isPrefix (.inr rfl) (List.isPrefixOf_iff_prefix.mp halter)

/-! ## What the host is handed -/

/-- A migration comes after accepted ones only, and is allowed. -/
def Reached (applyDdl : SchemaMigration → Option String) (migrations : List SchemaMigration)
    (migration : SchemaMigration) : Prop :=
  ∃ before after : List SchemaMigration, migrations = before ++ migration :: after ∧
    (∀ earlier ∈ before, Accepted applyDdl earlier) ∧
    ddlAllowed migration.sql = true

/-- All statements of the bodies are CREATE or ALTER. -/
def Confined (bodies : List String) : Prop :=
  ∀ body ∈ bodies, ∀ statement ∈ statements body, isDdlStatement statement = true

section Apply

variable {applyDdl : SchemaMigration → Option String}

/-- No migration of an empty list is reached. -/
theorem not_reached_nil (migration : SchemaMigration) : ¬Reached applyDdl [] migration := by
  rintro ⟨before, after, heq, -⟩
  simp at heq

/-- A migration is reached as the first, or after a first one that is allowed. -/
theorem reached_cons {first migration : SchemaMigration} {migrations : List SchemaMigration} :
    Reached applyDdl (first :: migrations) migration ↔
      ddlAllowed first.sql = true ∧
        (migration = first ∨ (applyDdl first = none ∧ Reached applyDdl migrations migration)) := by
  constructor
  · rintro ⟨before, after, heq, hbefore, hallowed⟩
    cases before with
    | nil =>
      obtain ⟨rfl, -⟩ := List.cons.inj heq
      exact ⟨hallowed, .inl rfl⟩
    | cons earlier before =>
      obtain ⟨rfl, hrest⟩ := List.cons.inj heq
      obtain ⟨hfirst, hbefore⟩ := List.forall_mem_cons.mp hbefore
      exact ⟨hfirst.1, .inr ⟨hfirst.2, before, after, hrest, hbefore, hallowed⟩⟩
  · rintro ⟨hfirst, rfl | ⟨happly, before, after, rfl, hbefore, hallowed⟩⟩
    · exact ⟨[], migrations, rfl, List.forall_mem_nil _, hfirst⟩
    · exact ⟨first :: before, after, rfl,
        List.forall_mem_cons.mpr ⟨⟨hfirst, happly⟩, hbefore⟩, hallowed⟩

/-- The host is handed the records that are reached. -/
theorem mem_handedMigrations_iff {migration : SchemaMigration} :
    ∀ (migrations : List SchemaMigration) (version : Int),
      migration ∈ handedMigrations (syncMigrations applyDdl version migrations).events ↔
        Reached applyDdl (records version migrations) migration
  | [], version => iff_of_false List.not_mem_nil (not_reached_nil migration)
  | first :: migrations, version => by
    unfold syncMigrations records
    -- Skipped, rejected, or handed to the host.
    split_ifs with hold hrejected
    · exact mem_handedMigrations_iff migrations version
    · rw [Bool.not_eq_true'] at hrejected
      rw [reached_cons, hrejected]
      exact iff_of_false List.not_mem_nil fun h => Bool.false_ne_true h.1
    · rw [Bool.not_eq_true', Bool.not_eq_false] at hrejected
      rw [reached_cons, and_iff_right hrejected]
      -- A failure of the host ends the loop behind the migration.
      cases happly : applyDdl first with
      | none =>
        rw [and_iff_right rfl, ← mem_handedMigrations_iff migrations first.version]
        exact List.mem_cons
      | some error =>
        have hrest :
            ¬(some error = none ∧ Reached applyDdl (records first.version migrations) migration) :=
          fun h => absurd h.1 (Option.some_ne_none error)
        rw [or_iff_left hrest]
        exact List.mem_singleton

end Apply

/-- The host runs nothing but CREATE and ALTER exactly when nothing else follows the first statement
of a body that is reached. -/
theorem confined_iff (applyDdl : SchemaMigration → Option String) (version : Int)
    (sync : SchemaSync) :
    Confined
      ((handedMigrations (applySchemaSync applyDdl version sync).2.2).map SchemaMigration.sql) ↔
      ∀ migration, Reached applyDdl (records version sync.migrations) migration →
        ∀ statement ∈ (statements migration.sql).tail, isDdlStatement statement = true := by
  unfold Confined
  rw [List.forall_mem_map]
  refine forall_congr' fun migration => ?_
  have hhanded : migration ∈ handedMigrations (applySchemaSync applyDdl version sync).2.2 ↔
      Reached applyDdl (records version sync.migrations) migration :=
    mem_handedMigrations_iff sync.migrations version
  rw [hhanded]
  refine forall_congr' fun hreached => ?_
  -- The guard has seen to the first statement.
  obtain ⟨before, after, -, -, hallowed⟩ := hreached
  obtain ⟨first, others, hstatements, hfirst⟩ := exists_ddl_of_ddlAllowed hallowed
  rw [hstatements, List.forall_mem_cons, and_iff_right hfirst, List.tail_cons]

/-- A table is dropped after it is created. -/
theorem not_confined_drop :
    ¬∀ (applyDdl : SchemaMigration → Option String) (version : Int) (sync : SchemaSync),
    Confined
      ((handedMigrations (applySchemaSync applyDdl version sync).2.2).map SchemaMigration.sql) := by
  intro h
  let migration : SchemaMigration := ⟨1, "drop", "CREATE TABLE t (id Int64); DROP TABLE t"⟩
  have hconfined := h (fun _ => none) 0 ⟨1, [migration]⟩ migration.sql
    (by decide) " DROP TABLE t".toList (by decide)
  exact absurd hconfined (by decide)

end QueryFabric.Federation
