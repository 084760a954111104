import QueryFabric.Portability.Import

/-!
# Which bundles are imported

`validateImportBundle_ok_iff` says which bytes are validated, and `planTabularImport_ok_iff` which
artifact an import is planned of. What the checks let through is said without them: a document that
repeats no key and stands for the value, parts that are not too deep and not too long
(`KeepsJsonLimits`), texts of digests (`IsTypedDigest`), relative names (`IsRelativeName`) and
schemas of the profile (`SchemaValid`).

The loop over the artifacts of a bundle adds up their bytes and remembers their names; what it takes
are the artifacts that are accepted one by one and keep within the limit together
(`foldlM_checkArtifact_ok_iff`).
-/

namespace QueryFabric.Portability

open Lib Lib.Json
open ContentHash (hexDigit)

variable {φ : Type} (codec : ImportCodec φ)

/-! ## Digests -/

/-- The fold is zero when no pair differs. -/
theorem foldl_difference_eq_zero_iff (pairs : List (UInt8 × UInt8)) (difference : UInt8) :
    pairs.foldl (fun difference (a, b) => difference ||| (a ^^^ b)) difference = 0 ↔
      difference = 0 ∧ ∀ pair ∈ pairs, pair.1 = pair.2 := by
  induction pairs generalizing difference with
  | nil => simp
  | cons pair pairs ih =>
    rw [List.foldl_cons, ih, UInt8.or_eq_zero_iff, UInt8.xor_eq_zero_iff, List.forall_mem_cons,
      and_assoc]

/-- The comparison in constant time is equality. -/
theorem constantTimeEq_iff {left right : List UInt8} : constantTimeEq left right = true ↔
    left = right := by
  rw [constantTimeEq, Bool.and_eq_true, decide_eq_true_eq, beq_iff_eq, foldl_difference_eq_zero_iff]
  constructor
  · rintro ⟨hlength, -, hpairs⟩
    refine List.ext_getElem hlength fun i hleft hright => ?_
    have hi : i < (left.zip right).length := by rw [List.length_zip]; omega
    have hpair := hpairs _ (List.getElem_mem hi)
    rwa [List.getElem_zip] at hpair
  · rintro rfl
    refine ⟨rfl, rfl, fun pair hpair => ?_⟩
    obtain ⟨i, hi, rfl⟩ := List.mem_iff_getElem.mp hpair
    rw [List.getElem_zip]

/-- A high half of a byte is less than sixteen. -/
theorem div_sixteen_lt (byte : UInt8) : byte / 16 < 16 := by
  rw [UInt8.lt_iff_toNat_lt, UInt8.toNat_div]
  exact Nat.div_lt_of_lt_mul byte.toNat_lt

/-- A low half of a byte is less than sixteen. -/
theorem mod_sixteen_lt (byte : UInt8) : byte % 16 < 16 := by
  rw [UInt8.lt_iff_toNat_lt, UInt8.toNat_mod]
  exact Nat.mod_lt _ (by decide)

/-- A hexadecimal digit is in lower case. -/
theorem isLowerHexDigit_hexDigit {n : UInt8} (h : n < 16) :
    isLowerHexDigit (hexDigit n) = true := by
  have hall : ∀ n : Fin 16, isLowerHexDigit (hexDigit (UInt8.ofNat n)) = true := by decide
  have hn : n = UInt8.ofNat n.toNat := by simp
  rw [hn]
  exact hall ⟨n.toNat, h⟩

/-- Different halves have different digits. -/
theorem hexDigit_inj {m n : UInt8} (hm : m < 16) (hn : n < 16)
    (h : hexDigit m = hexDigit n) : m = n := by
  have hall : ∀ m n : Fin 16, hexDigit (UInt8.ofNat m) = hexDigit (UInt8.ofNat n) →
      m = n := by decide
  have heq := hall ⟨m.toNat, hm⟩ ⟨n.toNat, hn⟩ (by simpa using h)
  exact UInt8.toNat_inj.mp (Fin.mk.inj heq)

/-- The digits of some bytes, two for each. -/
def hexDigits (bytes : List UInt8) : List Char :=
  bytes.flatMap fun byte => [hexDigit (byte / 16), hexDigit (byte % 16)]

/-- There are two digits for each byte. -/
theorem length_hexDigits (bytes : List UInt8) : (hexDigits bytes).length = 2 * bytes.length := by
  rw [hexDigits, List.length_flatMap]
  simp [Nat.mul_comm]

/-- The digits are all in lower case. -/
theorem all_isLowerHexDigit (bytes : List UInt8) :
    (hexDigits bytes).all isLowerHexDigit = true := by
  rw [hexDigits, List.all_flatMap, List.all_eq_true]
  intro byte _
  simp [isLowerHexDigit_hexDigit (div_sixteen_lt byte),
    isLowerHexDigit_hexDigit (mod_sixteen_lt byte)]

/-- Different bytes have different digits. -/
theorem hexDigits_inj : ∀ {a b : List UInt8}, hexDigits a = hexDigits b → a = b
  | [], [], _ => rfl
  | [], _ :: _, h => by cases h
  | _ :: _, [], h => by cases h
  | a :: as, b :: bs, h => by
    rw [hexDigits, hexDigits, List.flatMap_cons, List.flatMap_cons] at h
    obtain ⟨hbyte, hrest⟩ := List.append_inj h rfl
    obtain ⟨hhigh, hlow⟩ := List.cons_eq_cons.mp hbyte
    have hdiv := congrArg UInt8.toNat (hexDigit_inj (div_sixteen_lt a) (div_sixteen_lt b) hhigh)
    have hmod := congrArg UInt8.toNat
      (hexDigit_inj (mod_sixteen_lt a) (mod_sixteen_lt b) (List.cons_eq_cons.mp hlow).1)
    rw [UInt8.toNat_div, UInt8.toNat_div] at hdiv
    rw [UInt8.toNat_mod, UInt8.toNat_mod] at hmod
    have heq : a = b := by
      refine UInt8.toNat_inj.mp ?_
      rw [← Nat.div_add_mod a.toNat 16, ← Nat.div_add_mod b.toNat 16]
      exact congrArg₂ (fun q r => 16 * q + r) hdiv hmod
    rw [heq, hexDigits_inj hrest]

/-- The characters of a digest with its type. -/
theorem toList_typedDigest (bytes : List UInt8) :
    (typedDigest codec bytes).toList = digestPrefix.toList ++
      hexDigits (codec.blake3 bytes).bytes := by
  rw [typedDigest, contentHashHex, ContentHash.Digest.toHex, String.toList_append,
    String.toList_ofList]
  rfl

/-- A hexadecimal digit in lower case is one of the sixteen. -/
theorem exists_hexDigit {c : Char} (h : isLowerHexDigit c = true) :
    ∃ n < 16, hexDigit (UInt8.ofNat n) = c := by
  -- The digit of a number has the code that the digit starts from.
  have hchar : ∀ n < 16, ∀ code, (if n < 10 then 48 + n else 87 + n) = code → c.toNat = code →
      hexDigit (UInt8.ofNat n) = c := by
    intro n hn code hcode hc
    have hto : (UInt8.ofNat n).toNat = n := by
      rw [UInt8.toNat_ofNat']
      exact Nat.mod_eq_of_lt (by omega)
    have hlt : UInt8.ofNat n < 10 ↔ n < 10 := by
      rw [UInt8.lt_iff_toNat_lt, hto]
      rfl
    rw [hexDigit, hto, ← Char.ofNat_toNat c, hc, ← hcode]
    simp only [hlt]
  rw [isLowerHexDigit, Bool.or_eq_true] at h
  -- A decimal digit, or a letter from `a` to `f`.
  rcases h with hdigit | hletter
  · have hrange : 48 ≤ c.toNat ∧ c.toNat ≤ 57 := by
      simpa [Char.isDigit, UInt32.le_iff_toNat_le] using hdigit
    exact ⟨c.toNat - 48, by omega,
      hchar _ (by omega) c.toNat (by rw [if_pos (by omega)]; omega) rfl⟩
  · have hrange : 97 ≤ c.toNat ∧ c.toNat ≤ 102 := by
      simpa [Char.le_def, UInt32.le_iff_toNat_le] using hletter
    exact ⟨c.toNat - 87, by omega,
      hchar _ (by omega) c.toNat (by rw [if_neg (by omega)]; omega) rfl⟩

/-- Two digits for each of some bytes are the digits of those bytes. -/
theorem exists_hexDigits : ∀ {n : Nat} {text : List Char}, text.length = 2 * n →
    text.all isLowerHexDigit = true → ∃ bytes, bytes.length = n ∧ hexDigits bytes = text
  | 0, text, hlength, _ => ⟨[], rfl, (List.eq_nil_of_length_eq_zero hlength).symm⟩
  | n + 1, [], hlength, _ => by cases hlength
  | n + 1, [_], hlength, _ => by
    rw [List.length_singleton] at hlength
    omega
  | n + 1, c :: d :: text, hlength, hall => by
    rw [List.all_cons, List.all_cons, Bool.and_eq_true, Bool.and_eq_true] at hall
    obtain ⟨high, hhigh, hc⟩ := exists_hexDigit hall.1
    obtain ⟨low, hlow, hd⟩ := exists_hexDigit hall.2.1
    rw [List.length_cons, List.length_cons] at hlength
    have hrest : text.length = 2 * n := by omega
    obtain ⟨bytes, hbytes, htext⟩ := exists_hexDigits hrest hall.2.2
    -- The two digits are the quotient and the remainder of their byte by 16.
    have hto : (UInt8.ofNat (16 * high + low)).toNat = 16 * high + low := by
      rw [UInt8.toNat_ofNat']
      exact Nat.mod_eq_of_lt (by omega)
    have hdiv : UInt8.ofNat (16 * high + low) / 16 = UInt8.ofNat high := by
      refine UInt8.toNat_inj.mp ?_
      rw [UInt8.toNat_div, hto, UInt8.toNat_ofNat', Nat.mod_eq_of_lt (by omega : high < 2 ^ 8)]
      exact (Nat.mul_add_div (by decide) high low).trans
        (by rw [Nat.div_eq_of_lt hlow, Nat.add_zero])
    have hmod : UInt8.ofNat (16 * high + low) % 16 = UInt8.ofNat low := by
      refine UInt8.toNat_inj.mp ?_
      rw [UInt8.toNat_mod, hto, UInt8.toNat_ofNat', Nat.mod_eq_of_lt (by omega : low < 2 ^ 8)]
      exact (Nat.mul_add_mod 16 high low).trans (Nat.mod_eq_of_lt hlow)
    refine ⟨UInt8.ofNat (16 * high + low) :: bytes, by rw [List.length_cons, hbytes], ?_⟩
    rw [hexDigits, List.flatMap_cons, hdiv, hmod, hc, hd]
    exact congrArg (c :: d :: ·) htext

/-- The text of a digest, behind its type. -/
def IsTypedDigest (text : String) : Prop :=
  ∃ digest : ContentHash.Digest, text = digestPrefix ++ digest.toHex

/-- The texts that pass the check are those of digests. -/
theorem validTypedDigest_iff {text : String} :
    validTypedDigest text = true ↔ IsTypedDigest text := by
  have htext (digest : ContentHash.Digest) : (digestPrefix ++ digest.toHex).toList =
      digestPrefix.toList ++ hexDigits digest.bytes := by
    rw [ContentHash.Digest.toHex, String.toList_append, String.toList_ofList]
    rfl
  constructor
  -- After the prefix stand 64 lowercase digits, which are those of 32 bytes.
  · intro h
    rw [validTypedDigest, Bool.and_eq_true] at h
    obtain ⟨hstart, hhex⟩ := h
    obtain ⟨hex, hex_eq⟩ := List.isPrefixOf_iff_prefix.mp hstart
    dsimp only at hhex
    rw [← hex_eq, List.drop_left, Bool.and_eq_true, decide_eq_true_eq] at hhex
    obtain ⟨bytes, hlength, hbytes⟩ := exists_hexDigits (n := 32) hhex.1 hhex.2
    refine ⟨⟨bytes, hlength⟩, String.toList_inj.mp ?_⟩
    rw [htext, hbytes, hex_eq]
  · rintro ⟨digest, rfl⟩
    have hlength : (hexDigits digest.bytes).length = 64 := by
      rw [length_hexDigits, digest.length_eq]
    rw [validTypedDigest, htext, List.drop_left, Bool.and_eq_true]
    refine ⟨List.isPrefixOf_iff_prefix.mpr (List.prefix_append _ _), ?_⟩
    dsimp only
    rw [hlength, all_isLowerHexDigit]
    rfl

/-- A typed digest is the text of a digest. -/
theorem isTypedDigest_typedDigest (bytes : List UInt8) : IsTypedDigest (typedDigest codec bytes) :=
  ⟨codec.blake3 bytes, rfl⟩

/-- Digests are equal when their texts are. -/
theorem blake3_eq_of_typedDigest {a b : List UInt8}
    (h : typedDigest codec a = typedDigest codec b) :
    codec.blake3 a = codec.blake3 b := by
  have hlist := congrArg String.toList h
  rw [toList_typedDigest, toList_typedDigest] at hlist
  exact (ContentHash.Digest.mk.injEq _ _ _ _).mpr (hexDigits_inj (List.append_cancel_left hlist))

/-! ## Names and schemas -/

/-- A name of a file of the bundle: no absolute path, no way out of a directory and no address. -/
structure IsRelativeName (uri : String) : Prop where
  nonempty : uri ≠ ""
  relative : ¬['/'] <+: uri.toList
  inside : ¬['.', '.'] <:+: uri.toList
  local_ : ¬[':', '/', '/'] <:+: uri.toList

/-- The names that pass the check are the relative ones. -/
theorem isOutside_eq_false_iff {uri : String} : isOutside uri = false ↔ IsRelativeName uri := by
  rw [← Bool.not_eq_true, isOutside]
  simp only [Bool.or_eq_true, String.isEmpty_iff, List.isPrefixOf_iff_prefix, decide_eq_true_eq,
    not_or]
  constructor
  · rintro ⟨⟨⟨hempty, hroot⟩, hparents⟩, hscheme⟩
    exact ⟨hempty, hroot, hparents, hscheme⟩
  · intro h
    exact ⟨⟨⟨h.nonempty, h.relative⟩, h.inside⟩, h.local_⟩

/-- A schema of the profile: one column at least and no more than a number, with names that are
distinct, not empty and of 256 bytes at most. -/
structure SchemaValid (schema : TabularSchema) (maxColumns : Nat) : Prop where
  profile : schema.profile = tabularCsvProfile
  nonempty : schema.columns ≠ []
  number : schema.columns.length ≤ maxColumns
  names : ∀ column ∈ schema.columns, column.name ≠ "" ∧ column.name.utf8ByteSize ≤ 256
  distinct : (schema.columns.map TabularColumn.name).Nodup

/-- The schemas that pass the check are the valid ones. -/
theorem validateSchema_ok_iff {schema : TabularSchema} {maxColumns : Nat} {u : Unit} :
    validateSchema schema maxColumns = .ok u ↔ SchemaValid schema maxColumns := by
  rw [validateSchema]
  split_ifs with hprofile hnumber hnames
  · refine iff_of_false nofun fun h => ?_
    simp [h.profile, h.nonempty] at hprofile
  · exact iff_of_false nofun fun h => absurd h.number (Nat.not_le_of_lt hnumber)
  · refine iff_of_false nofun fun h => ?_
    rw [Bool.or_eq_true, List.any_eq_true] at hnames
    rcases hnames with ⟨column, hcolumn, hname⟩ | hdistinct
    · obtain ⟨hempty, hbytes⟩ := h.names column hcolumn
      simp only [Bool.or_eq_true, String.isEmpty_iff, decide_eq_true_eq, hempty, false_or] at hname
      omega
    · exact of_decide_eq_true hdistinct h.distinct
  · refine iff_of_true rfl ?_
    simp only [Bool.or_eq_true, not_or, decide_eq_true_eq, not_not, List.any_eq_true, not_exists,
      not_and] at hprofile hnames
    refine ⟨hprofile.1, by simpa using hprofile.2, by omega, fun column hcolumn => ?_, hnames.2⟩
    have hcolumn := hnames.1 column hcolumn
    exact ⟨by simpa using hcolumn.1, by omega⟩

/-! ## Limits on documents -/

/-- A value keeps the limits on documents: no part of it stands too deep, and no string and no key
of it is too long. -/
structure KeepsJsonLimits (limits : BundleLimits) (value : JsonValue φ) : Prop where
  depth : ∀ depth part, value.At depth part → depth ≤ limits.maxJsonDepth
  strings : ∀ depth text, value.At depth (.string text) → text.utf8ByteSize ≤ limits.maxStringBytes
  keys : ∀ depth map, value.At depth (.object map) →
    ∀ entry ∈ map, entry.1.utf8ByteSize ≤ limits.maxStringBytes

/-- What is checked of one part at its depth. -/
def PartKeeps (limits : BundleLimits) (depth : Nat) (part : JsonValue φ) : Prop :=
  depth ≤ limits.maxJsonDepth ∧ match part with
    | .string text => text.utf8ByteSize ≤ limits.maxStringBytes
    | .object map => ∀ entry ∈ map, entry.1.utf8ByteSize ≤ limits.maxStringBytes
    | _ => True

/-- A scalar is its only part. -/
theorem forall_at_scalar {value : JsonValue φ} (harray : ∀ items, value ≠ .array items)
    (hobject : ∀ map, value ≠ .object map) {P : Nat → JsonValue φ → Prop} :
    (∀ depth part, value.At depth part → P depth part) ↔ P 0 value := by
  constructor
  · exact fun h => h 0 value (.root value)
  · rintro h depth part hpart
    cases hpart with
    | root => exact h
    | item => exact absurd rfl (harray _)
    | entry => exact absurd rfl (hobject _)

/-- The check of a value below some arrays and objects looks at all of its parts. -/
theorem enforceJsonLimits_base_iff (limits : BundleLimits) : ∀ (value : JsonValue φ) (base : Nat),
    enforceJsonLimits limits base value = true ↔
      ∀ depth part, value.At depth part → PartKeeps limits (base + depth) part := by
  -- A part is one level further down than it is within its container.
  have hshift : ∀ {base depth : Nat} {part : JsonValue φ},
      PartKeeps limits (base + 1 + depth) part ↔ PartKeeps limits (base + (depth + 1)) part := by
    intro base depth part
    rw [Nat.add_right_comm, Nat.add_assoc]
  -- A value keeps to the limits where its depth and its text do, and its parts.
  refine Value.Cases.all ⟨?_, ?_, ?_, ?_, ?_, ?_⟩
  · intro base
    rw [forall_at_scalar (by simp) (by simp), enforceJsonLimits, decide_eq_true_eq]
    exact (and_iff_left trivial).symm
  · intro b base
    rw [forall_at_scalar (by simp) (by simp), enforceJsonLimits, decide_eq_true_eq]
    exact (and_iff_left trivial).symm
  · intro n base
    rw [forall_at_scalar (by simp) (by simp), enforceJsonLimits, decide_eq_true_eq]
    exact (and_iff_left trivial).symm
  · intro text base
    rw [forall_at_scalar (by simp) (by simp), enforceJsonLimits, Bool.and_eq_true,
      decide_eq_true_eq, decide_eq_true_eq]
    exact Iff.rfl
  · intro items ih base
    -- The code stops at the first item that fails.
    have hitems : enforceItemLimits limits (base + 1) items = true ↔
        ∀ item ∈ items, enforceJsonLimits limits (base + 1) item = true := by
      clear ih
      induction items with
      | nil => exact iff_of_true rfl (List.forall_mem_nil _)
      | cons item items ih => rw [enforceItemLimits, Bool.and_eq_true, ih, List.forall_mem_cons]
    rw [Value.forall_at_array, enforceJsonLimits, Bool.and_eq_true, decide_eq_true_eq, hitems]
    refine and_congr (and_iff_left trivial).symm (forall₂_congr fun item hitem => ?_)
    rw [ih item hitem]
    simp only [hshift]
  · intro map ih base
    -- The keys of an object count as text.
    have hentries : enforceEntryLimits limits (base + 1) map = true ↔
        (∀ entry ∈ map, entry.1.utf8ByteSize ≤ limits.maxStringBytes) ∧
          ∀ entry ∈ map, enforceJsonLimits limits (base + 1) entry.2 = true := by
      clear ih
      induction map with
      | nil => exact iff_of_true rfl ⟨List.forall_mem_nil _, List.forall_mem_nil _⟩
      | cons entry map ih =>
        rw [enforceEntryLimits, Bool.and_eq_true, Bool.and_eq_true, decide_eq_true_eq, ih,
          List.forall_mem_cons, List.forall_mem_cons, and_and_and_comm]
    rw [Value.forall_at_object, enforceJsonLimits, Bool.and_eq_true, decide_eq_true_eq, hentries,
      ← and_assoc]
    refine and_congr Iff.rfl (forall₂_congr fun entry hentry => ?_)
    rw [ih entry hentry]
    simp only [hshift]

/-- The values that pass the check are those that keep the limits. -/
theorem enforceJsonLimits_iff {limits : BundleLimits} {value : JsonValue φ} :
    enforceJsonLimits limits 0 value = true ↔ KeepsJsonLimits limits value := by
  rw [enforceJsonLimits_base_iff]
  simp only [Nat.zero_add]
  constructor
  · intro h
    exact ⟨fun depth part hpart => (h depth part hpart).1,
      fun depth text hpart => (h depth _ hpart).2, fun depth map hpart => (h depth _ hpart).2⟩
  · intro h depth part hpart
    refine ⟨h.depth depth part hpart, ?_⟩
    cases part with
    | string text => exact h.strings depth text hpart
    | object map => exact h.keys depth map hpart
    | _ => trivial

/-! ## Artifacts -/

/-- What every artifact of an accepted bundle is like. -/
structure ArtifactAccepted (limits : BundleLimits) (artifact : ArtifactManifest φ) : Prop where
  table : artifact.kind = "table_export"
  csv : artifact.format = "csv"
  bytes : ∃ byteCount, artifact.byteCount = some byteCount ∧
    byteCount.toNat ≤ limits.maxArtifactBytes
  contentHash : IsTypedDigest artifact.contentHash
  inside : IsRelativeName artifact.storageUri
  extension : jsonBytes codec artifact.manifestJson ≤ limits.maxExtensionBytes
  schema : ∃ schema, codec.readSchema artifact.manifestJson = .ok schema ∧
    SchemaValid schema limits.maxColumns ∧
    artifact.schemaFingerprint = tabularSchemaFingerprint codec schema

/-- The bytes that a manifest declares. -/
def declaredBytes (artifact : ArtifactManifest φ) : Nat := (artifact.byteCount.getD 0).toNat

/-- What no two artifacts of a bundle share. -/
def artifactKey (artifact : ArtifactManifest φ) : String × String :=
  (artifact.kind, artifact.storageUri)

/-- The step of the loop takes an artifact that is accepted, fits beside the ones before and has
another name. -/
theorem checkArtifact_ok_iff {limits : BundleLimits} {state next : ArtifactsSeen}
    {artifact : ArtifactManifest φ} :
    checkArtifact codec limits state artifact = .ok next ↔
      ArtifactAccepted codec limits artifact ∧
      state.totalBytes + declaredBytes artifact < 2 ^ 64 ∧
      state.totalBytes + declaredBytes artifact ≤ limits.maxTotalArtifactBytes ∧
      artifactKey artifact ∉ state.seen ∧
      next = ⟨state.totalBytes + declaredBytes artifact, state.seen ++ [artifactKey artifact]⟩ := by
  rw [checkArtifact]
  -- An artifact without a byte count is refused.
  cases hbytes : artifact.byteCount with
  | none =>
    refine iff_of_false (fun h => ?_) fun ⟨haccepted, _⟩ => ?_
    · obtain ⟨_, _, h⟩ := bind_eq_ok.mp h
      cases h
    · obtain ⟨byteCount, hbyteCount, _⟩ := haccepted.bytes
      exact nomatch hbytes.symm.trans hbyteCount
  | some byteCount =>
    simp only [bind_eq_ok, require_eq_ok, mapError_eq_ok, pure_eq_ok, Bool.and_eq_true,
      decide_eq_true_eq, exists_and_left, exists_const, Bool.not_eq_true', validTypedDigest_iff,
      isOutside_eq_false_iff, validateSchema_ok_iff]
    -- The declared bytes are that count, which the code adds without a wrap.
    have hdeclared : declaredBytes artifact = byteCount.toNat := by
      rw [declaredBytes, hbytes, Option.getD_some]
    rw [hdeclared, artifactKey]
    constructor
    · rintro ⟨⟨htable, hcsv⟩, hsize, htotal, hlimit, ⟨hhash, -⟩, hseen, hinside, schema, hschema,
        hextension, hvalid, hdigest, rfl⟩
      refine ⟨⟨htable, hcsv, ⟨byteCount, hbytes, hsize⟩, hhash, hinside, hextension, schema,
        hschema, hvalid, hdigest.symm⟩, htotal, hlimit, ?_, rfl⟩
      simpa using hseen
    · rintro ⟨h, htotal, hlimit, hseen, rfl⟩
      obtain ⟨byteCount', hbyteCount, hsize⟩ := h.bytes
      obtain rfl : byteCount = byteCount' := Option.some.inj (hbytes.symm.trans hbyteCount)
      obtain ⟨schema, hschema, hvalid, hdigest⟩ := h.schema
      -- The code checks the form of a fingerprint that it then compares with a digest, which has
      -- that form.
      have hfingerprint : IsTypedDigest artifact.schemaFingerprint :=
        hdigest ▸ isTypedDigest_typedDigest codec _
      exact ⟨⟨h.table, h.csv⟩, hsize, htotal, hlimit, ⟨h.contentHash, hfingerprint⟩,
        by simpa using hseen, h.inside, schema, hschema, h.extension, hvalid, hdigest.symm, rfl⟩

/-- The loop takes the artifacts that are accepted one by one, have different names and are not too
many bytes together. -/
theorem foldlM_checkArtifact_ok_iff {limits : BundleLimits} {artifacts : List (ArtifactManifest φ)}
    {state : ArtifactsSeen}
    (hbytes : state.totalBytes < 2 ^ 64) (hlimit : state.totalBytes ≤ limits.maxTotalArtifactBytes)
    (hseen : state.seen.Nodup) :
    (∃ final, artifacts.foldlM (checkArtifact codec limits) state = .ok final) ↔
      (∀ artifact ∈ artifacts, ArtifactAccepted codec limits artifact) ∧
        state.totalBytes + (artifacts.map declaredBytes).sum < 2 ^ 64 ∧
        state.totalBytes + (artifacts.map declaredBytes).sum ≤ limits.maxTotalArtifactBytes ∧
        (state.seen ++ artifacts.map artifactKey).Nodup := by
  -- The loop keeps the bytes so far and the keys that were seen.
  induction artifacts generalizing state with
  | nil => simpa [pure_eq_ok] using ⟨hbytes, hlimit, hseen⟩
  | cons artifact artifacts ih =>
    -- The first artifact is checked, and the rest from the state that it leaves.
    have hstep :
      (∃ final, (artifact :: artifacts).foldlM (checkArtifact codec limits) state = .ok final) ↔
        ∃ next, checkArtifact codec limits state artifact = .ok next ∧
          ∃ final, artifacts.foldlM (checkArtifact codec limits) next = .ok final := by
      simp only [List.foldlM_cons, bind_eq_ok]
      exact ⟨fun ⟨final, next, hnext, hfinal⟩ => ⟨next, hnext, final, hfinal⟩,
        fun ⟨next, hnext, final, hfinal⟩ => ⟨final, next, hnext, hfinal⟩⟩
    rw [hstep, List.forall_mem_cons, List.map_cons, List.map_cons, List.sum_cons, ← Nat.add_assoc,
      List.append_cons]
    simp only [checkArtifact_ok_iff]
    constructor
    · rintro ⟨next, ⟨haccepted, hfits, hunder, hnew, rfl⟩, hrest⟩
      -- A key that was not seen keeps the seen ones distinct.
      have hnodup : (state.seen ++ [artifactKey artifact]).Nodup := by
        rw [← List.concat_eq_append]
        exact hseen.concat hnew
      obtain ⟨haccepted', hrest⟩ := (ih hfits hunder hnodup).mp hrest
      exact ⟨⟨haccepted, haccepted'⟩, hrest⟩
    · rintro ⟨⟨haccepted, haccepted'⟩, hfits, hunder, hnodup⟩
      have hnew := (List.nodup_append'.mp hnodup).1
      -- The sum with the rest bounds the sum without it.
      have htotal := (Nat.le_add_right _ _).trans_lt hfits
      have hlimit' := (Nat.le_add_right _ _).trans hunder
      refine ⟨_, ⟨haccepted, htotal, hlimit', ?_, rfl⟩,
        (ih htotal hlimit' hnew).mpr ⟨haccepted', hfits, hunder, hnodup⟩⟩
      exact fun hmem => (List.nodup_append'.mp hnew).2.2 hmem (List.mem_singleton_self _)

/-! ## Bundles -/

/-- What an accepted bundle is. -/
structure BundleAccepted (limits : BundleLimits) (bytes : ByteArray) (expectedDigest : String)
    (value : JsonValue φ) (bundle : ExportBundle φ) : Prop where
  size : bytes.size ≤ limits.maxBundleBytes
  read : ∃ document, codec.reader.document bytes = some document ∧ document.Distinct ∧
    value.Sorted ∧ value.read = document.read
  parts : KeepsJsonLimits limits value
  decoded : codec.readBundle value = .ok bundle
  version : bundle.exportBundle.version = importBundleVersion
  extension : jsonBytes codec bundle.metadataJsonld ≤ limits.maxExtensionBytes
  digest : expectedDigest = typedDigest codec (utf8 (codec.canonicalJsonStringV2 value))
  nonempty : bundle.artifacts ≠ []
  number : bundle.artifacts.length ≤ limits.maxArtifacts
  artifacts : ∀ artifact ∈ bundle.artifacts, ArtifactAccepted codec limits artifact
  total : (bundle.artifacts.map declaredBytes).sum < 2 ^ 64 ∧
    (bundle.artifacts.map declaredBytes).sum ≤ limits.maxTotalArtifactBytes
  distinct : (bundle.artifacts.map artifactKey).Nodup

/-- The validated form of a bundle. -/
def validated (value : JsonValue φ) (bundle : ExportBundle φ) : ValidatedBundle φ where
  bundle
  canonicalJson := codec.canonicalJsonStringV2 value
  bundleDigest := typedDigest codec (utf8 (codec.canonicalJsonStringV2 value))
  artifacts := bundle.artifacts
  sourceResource := bundle.exportBundle.resource

/-- Different texts have different bytes. -/
theorem utf8_inj {a b : String} : utf8 a = utf8 b ↔ a = b := by
  rw [utf8, utf8, Array.toList_inj, ← ByteArray.ext_iff, String.toByteArray_inj]

/-- The bytes that are read strictly are those of a document that repeats no key, and the value is
the one of maps that stands for it. -/
theorem parseJsonWithoutDuplicateKeys_ok_iff {bytes : ByteArray} {value : JsonValue φ} :
    parseJsonWithoutDuplicateKeys codec bytes = .ok value ↔
      ∃ document, codec.reader.document bytes = some document ∧ document.Distinct ∧
        value.Sorted ∧ value.read = document.read := by
  simp only [← strictValue_eq_some_iff]
  rw [parseJsonWithoutDuplicateKeys, ← Option.bind_eq_some_iff]
  split
  · rename_i found hfound
    rw [hfound, Except.ok.injEq, Option.some.injEq]
  · rename_i hnone
    rw [hnone]
    simp

/-- What is accepted, and what it is validated to. -/
theorem validateImportBundle_ok_iff {bytes : ByteArray} {expectedDigest : String}
    {limits : BundleLimits} {result : ValidatedBundle φ} :
    validateImportBundle codec bytes expectedDigest limits = .ok result ↔
      ∃ value bundle, BundleAccepted codec limits bytes expectedDigest value bundle ∧
      result = validated codec value bundle := by
  simp only [validateImportBundle, bind_eq_ok, require_eq_ok, mapError_eq_ok, pure_eq_ok,
    exists_and_left, exists_const, parseJsonWithoutDuplicateKeys_ok_iff, enforceJsonLimits_iff,
    validTypedDigest_iff, decide_eq_true_eq, Bool.and_eq_true, constantTimeEq_iff, utf8_inj]
  -- The checks in their order, with the loop over the artifacts as one of them.
  constructor
  · rintro ⟨hsize, value, hread, hdepth, bundle, hdecoded, hversion, hextension, -, hdigest,
      ⟨hnonempty, hnumber⟩, final,
      hartifacts, rfl⟩
    obtain ⟨haccepted, htotal, hlimit, hdistinct⟩ :=
      (foldlM_checkArtifact_ok_iff codec (by decide) (Nat.zero_le _) List.nodup_nil).mp
        ⟨final, hartifacts⟩
    rw [Nat.zero_add] at htotal hlimit
    exact ⟨value, bundle,
      ⟨hsize, hread, hdepth, hdecoded, hversion, hextension, hdigest.symm, by simpa using hnonempty,
      hnumber, haccepted, ⟨htotal, hlimit⟩, hdistinct⟩, rfl⟩
  · rintro ⟨value, bundle, h, rfl⟩
    -- The loop starts with no bytes and no key.
    have hloop : ∃ final, bundle.artifacts.foldlM (checkArtifact codec limits) {} = .ok final :=
      (foldlM_checkArtifact_ok_iff codec (by decide) (Nat.zero_le _) List.nodup_nil).mpr
        ⟨h.artifacts, by simpa using h.total.1, by simpa using h.total.2, h.distinct⟩
    obtain ⟨final, hfinal⟩ := hloop
    refine ⟨h.size, value, h.read, h.parts, bundle, h.decoded, h.version, h.extension, ?_,
      h.digest.symm,
      ⟨by simpa using h.nonempty, h.number⟩, final, hfinal, rfl⟩
    rw [h.digest]
    exact isTypedDigest_typedDigest codec _

/-! ## Plans -/

/-- What a bundle, a staged artifact and a target are like that an import is planned of. -/
structure PlanAccepted (limits : BundleLimits) (bundle : ValidatedBundle φ)
    (artifactBytes : ByteArray)
    (target : PlanTarget) (manifest : ArtifactManifest φ) (rows : List (List String)) : Prop where
  artifacts : bundle.artifacts = [manifest]
  size : artifactBytes.size ≤ limits.maxArtifactBytes
  schema : validateSchema target.expectedSchema limits.maxColumns = .ok ()
  declared : codec.readSchema manifest.manifestJson = .ok target.expectedSchema
  digest : typedDigest codec artifactBytes.data.toList = manifest.contentHash
  byteCount : some (UInt64.ofNat artifactBytes.size) = manifest.byteCount
  parsed :
    parseCsv codec.parsers target.expectedSchema limits.toImportLimits artifactBytes = .ok rows
  rowCount : UInt64.ofNat rows.length = manifest.rowCount
  relation : isBlank target.relation = false
  revision : isBlank target.targetRevision = false

/-- The plan of an import. -/
def planned (bundle : ValidatedBundle φ) (target : PlanTarget) (manifest : ArtifactManifest φ) :
    ImportPlan :=
  let plan : ImportPlan := {
    bundleDigest := bundle.bundleDigest
    artifactDigest := manifest.contentHash
    sourceResource := bundle.sourceResource
    target
    columnMapping := target.expectedSchema.columns
    rowCount := manifest.rowCount
    byteCount := manifest.byteCount.getD 0
    planDigest := "" }
  { plan with planDigest := planDigest codec plan }

/-- An import is planned when the bundle, the artifact and the target agree. -/
theorem planTabularImport_ok_iff {bundle : ValidatedBundle φ} {artifactBytes : ByteArray}
    {target : PlanTarget} {limits : BundleLimits} {plan : ImportPlan} :
    planTabularImport codec bundle artifactBytes target limits = .ok plan ↔
      ∃ manifest rows, PlanAccepted codec limits bundle artifactBytes target manifest rows ∧
        plan = planned codec bundle target manifest := by
  rw [planTabularImport]
  split
  -- The bundle has exactly one artifact.
  · rename_i manifest hmanifest
    simp only [bind_eq_ok, require_eq_ok, mapError_eq_ok, pure_eq_ok, exists_and_left, exists_const,
      decide_eq_true_eq, Bool.and_eq_true, Bool.not_eq_true']
    constructor
    · rintro ⟨hsize, _, htarget, schema, hschema, rfl, ⟨hdigest, hbytes⟩, rows, hrows, hcount,
        ⟨hrelation, hrevision⟩, rfl⟩
      refine ⟨manifest, rows, ⟨hmanifest, hsize, htarget, hschema, hdigest, hbytes, hrows, hcount,
        hrelation, hrevision⟩, ?_⟩
      -- What the plan records is what was checked.
      rw [planned, ← hbytes, ← hdigest, ← hcount, Option.getD_some]
    · rintro ⟨manifest', rows, h, rfl⟩
      obtain rfl : manifest = manifest' := List.singleton_inj.mp (hmanifest.symm.trans h.artifacts)
      refine ⟨h.size, (), h.schema, _, h.declared, rfl, ⟨h.digest, h.byteCount⟩, rows,
        h.parsed, h.rowCount,
        ⟨h.relation, h.revision⟩, ?_⟩
      rw [planned, ← h.byteCount, ← h.digest, ← h.rowCount, Option.getD_some]
  -- With none or several the plan is refused.
  · rename_i hmany
    refine iff_of_false (fun h => nomatch h) ?_
    rintro ⟨manifest, rows, h, -⟩
    exact hmany manifest h.artifacts

end QueryFabric.Portability
