import QueryFabric.Demo.Import
import Mathlib.Data.List.Nodup

/-!
# Imports are atomic, and happen once

In every run in which new rows get new identifiers, a key has at most one receipt, its rows are
there just when the receipt is, and a call that fails has left nothing, unless it failed because
the answer to its commit was lost. A later call for the same bundle, station and revision,
with the same plan, owner, mapping and byte count, gives the receipt back: `imports_exact`.

The idempotency key is a text, which does not determine the bundle and the revision, and the code
compares these too: a later call with the same key and another bundle is a conflict.
-/

namespace QueryFabric.Demo

open Lib Portability

namespace System

/-! ## What the tables hold of a call -/

/-- The rows that a call has imported. -/
def imported (s : System) (index : Nat) : List Reading :=
  s.readings.filter fun reading => reading.call = some index

/-- The rows that the calls for a key have imported. -/
def importedFor (s : System) (key : String) : List Reading :=
  s.readings.filter fun reading =>
    reading.call.any fun index => s.calls[index]?.any fun call => call.request.idempotencyKey = key

/-- The rows are those of the request, for its station. -/
structure RowsAre (env : Environment) (request : ImportCommit) (rows : List Reading) : Prop where
  values : request.rows.mapM (readRow env) = .ok (rows.map Reading.values)
  station : ∀ reading ∈ rows, reading.stationId = request.stationId

/-- The tables hold nothing of a call. -/
structure Unrecorded (s : System) (index : Nat) : Prop where
  noReceipt : ∀ receipt ∈ s.receipts, receipt.call ≠ index
  noRows : s.imported index = []

/-- The tables hold the receipt of a call and all its rows. -/
structure Recorded (env : Environment) (s : System) (index : Nat)
    (request : ImportCommit) : Prop where
  receipt : ∃ receiptId, request.receiptRow env receiptId index ∈ s.receipts
  rows : RowsAre env request (s.imported index)

/-- The rows that a transaction has inserted in the first turns of its loop. -/
structure Inserted (env : Environment) (index : Nat) (request : ImportCommit) (ordinal : Nat)
    (rows : List Reading) : Prop where
  values : (request.rows.take ordinal).mapM (readRow env) = .ok (rows.map Reading.values)
  station : ∀ reading ∈ rows, reading.stationId = request.stationId
  marked : ∀ reading ∈ rows, reading.call = some index

/-! ## The steps -/

/-- A new row has an identifier that no row has yet, as version 7 identifiers do. -/
def FreshIds (s : System) : Action → Prop
  | .insertRow _ readingId _ =>
    hasReading (s.readings ++ s.calls.flatMap fun call => call.phase.rows) readingId = false
  | _ => True


/-- The phases of a call whose transaction, if there is one, has changed nothing, and that does not
report an import. -/
def Bare : CallPhase → Prop
  | .connecting | .looking | .preparing | .returned _ true | .failed _ => True
  | _ => False

/-- What a step does. -/
inductive Moves (env : Environment) (s : System) : Action → System → Prop
  | called (request : ImportCommit) :
    Moves env s (.call request) { s with calls := s.calls ++ [⟨request, .connecting⟩] }
  | moved (a : Action) (index : Nat) (call : Call) (phase : CallPhase)
    (hcall : s.calls[index]? = some call)
    (hrunning : call.phase.isRunning = true) (hphase : Bare phase ∨ phase = .dropped) :
    Moves env s a (s.setPhase index call phase)
  | prepared (index : Nat) (call : Call) (hcall : s.calls[index]? = some call)
    (hphase : call.phase = .preparing) :
    Moves env s (.prepare index none) (s.setPhase index call (.inserting 0 []))
  | inserted (index : Nat) (call : Call) (ordinal : Nat) (rows : List Reading) (row : List String)
    (reading : Reading) (hcall : s.calls[index]? = some call)
      (hphase : call.phase = .inserting ordinal rows)
    (hrow : call.request.rows[ordinal]? = some row) (hvalues : readRow env row = .ok reading.values)
    (hstation : reading.stationId = call.request.stationId) (hmark : reading.call = some index) :
    Moves env s (.insertRow index reading.readingId none)
      (s.setPhase index call (.inserting (ordinal + 1)
        (if hasReading (s.readings ++ rows) reading.readingId then rows else rows ++ [reading])))
  | reserved (index : Nat) (call : Call) (ordinal : Nat) (rows : List Reading) (receiptId : Uuid)
    (hcall : s.calls[index]? = some call) (hphase : call.phase = .inserting ordinal rows)
    (hend : call.request.rows[ordinal]? = none)
    (hfree : s.receipts.any (clashes (call.request.receiptRow env receiptId index)) = false)
    (hheld : (s.calls.any fun other =>
      other.phase.receipt?.any (clashes (call.request.receiptRow env receiptId index))) = false) :
    Moves env s (.insertReceipt index receiptId none)
      (s.setPhase index call (.committing rows (call.request.receiptRow env receiptId index)))
  | committed (index : Nat) (call : Call) (rows : List Reading) (receipt : ReceiptRow)
    (outcome : CommitOutcome) (hcall : s.calls[index]? = some call)
    (hphase : call.phase = .committing rows receipt) :
    Moves env s (.commit index outcome)
      (({ s with receipts := s.receipts ++ [receipt], readings := s.readings ++ rows } :
        System).setPhase index call (System.committed call.request receipt.receiptId outcome))

section Steps

variable {env : Environment} {s t : System} {a : Action}

/-- A call whose next phase is known moves there. -/
theorem Moves.of_nextPhase {index : Nat} {call : Call} {phase : CallPhase}
    (hcall : s.calls[index]? = some call)
    (hcaller : caller? a = some index) (h : s.nextPhase env call a = some phase) :
    Moves env s a (s.setPhase index call phase) := by
  unfold nextPhase at h
  split at h
  -- The answer to the connection.
  case h_1 answer hphase =>
    cases h
    refine .moved _ _ _ _ hcall (by rw [hphase]; rfl) (.inl ?_)
    cases answer <;> trivial
  -- The lookup of an earlier receipt: every outcome is another phase of the same call.
  case h_2 error hphase =>
    cases h
    refine .moved _ _ _ _ hcall (by rw [hphase]; rfl) (.inl ?_)
    unfold lookup
    split
    · trivial
    · split
      · split <;> trivial
      · split <;> trivial
  -- The prepared statement, with which the inserts start.
  case h_3 error hphase =>
    cases h
    cases hcaller
    cases error with
    | none => exact .prepared _ _ hcall hphase
    | some error => exact .moved _ _ _ _ hcall (by rw [hphase]; rfl) (.inl trivial)
  -- A row of the import: it is refused, it is there already, or it is inserted.
  case h_4 readingId error ordinal rows hphase =>
    cases hcaller
    have hrunning : call.phase.isRunning = true := by rw [hphase]; rfl
    split at h
    case h_2 => cases h
    case h_1 row hrow =>
      unfold insertRow at h
      split at h
      · cases h
        exact .moved _ _ _ _ hcall hrunning (.inl trivial)
      · cases h
        exact .moved _ _ _ _ hcall hrunning (.inl trivial)
      · rename_i measuredAt pm25 no2 ozone hvalues
        split at h
        · cases h
        · dsimp only at h
          split at h
          · cases h
            exact .moved _ _ _ _ hcall hrunning (.inl trivial)
          · cases h
            exact .inserted index call ordinal rows row
              { readingId, stationId := call.request.stationId, measuredAt, pm25, no2, ozone
                call := some index }
              hcall hphase hrow hvalues rfl rfl
  -- The receipt after the last row: its key is free, taken, or held by another transaction.
  case h_5 receiptId error ordinal rows hphase =>
    cases hcaller
    have hrunning : call.phase.isRunning = true := by rw [hphase]; rfl
    split at h
    case h_1 => cases h
    case h_2 hend =>
      unfold insertReceipt at h
      cases error with
      | some error =>
        cases h
        exact .moved _ _ _ _ hcall hrunning (.inl trivial)
      | none =>
        dsimp only at h
        split at h
        · cases h
          exact .moved _ _ _ _ hcall hrunning (.inl trivial)
        · rename_i hfree
          split at h
          · cases h
          · rename_i hheld
            split at h
            · cases h
              exact .moved _ _ _ _ hcall hrunning (.inl trivial)
            · cases h
              exact .reserved _ _ _ _ _ hcall hphase hend (Bool.eq_false_iff.mpr hfree)
                (Bool.eq_false_iff.mpr hheld)
  -- A call that is dropped.
  case h_6 =>
    split at h
    · rename_i hrunning
      cases h
      exact .moved _ _ _ _ hcall hrunning (.inr rfl)
    · cases h
  case h_7 => cases h

/-- What a step does. -/
theorem step_moves (h : s.step env a = some t) : Moves env s a t := by
  cases a with
  | call request =>
    cases h
    exact .called _
  | commit index outcome =>
    obtain ⟨call, hcall, hcommit⟩ := Option.bind_eq_some_iff.mp h
    cases hphase : call.phase with
    | committing rows receipt =>
      simp only [hphase, Option.some.injEq] at hcommit
      subst hcommit
      cases outcome with
      | refused error => exact .moved _ _ _ _ hcall (by rw [hphase]; rfl) (.inl trivial)
      | answered | lost | abandoned => exact .committed _ _ _ _ _ hcall hphase
    | _ => simp [hphase] at hcommit
  | connect | lookup | prepare | insertRow | insertReceipt | drop =>
    obtain ⟨call, hcall, hrest⟩ := Option.bind_eq_some_iff.mp h
    obtain ⟨phase, hphase, hset⟩ := Option.bind_eq_some_iff.mp hrest
    cases hset
    exact .of_nextPhase hcall rfl hphase

end Steps

/-! ## What the steps keep -/

/-- What holds of a transaction that is about to commit: no receipt has its key. -/
structure Committing (env : Environment) (s : System) (index : Nat) (request : ImportCommit)
    (rows : List Reading) (receipt : ReceiptRow) : Prop where
  rowsAre : RowsAre env request rows
  marked : ∀ reading ∈ rows, reading.call = some index
  receipt : ∃ receiptId, receipt = request.receiptRow env receiptId index
  free : ∀ other ∈ s.receipts, other.idempotencyKey ≠ request.idempotencyKey

/-- What holds of a call between steps. -/
structure CallKept (env : Environment) (s : System) (index : Nat) (call : Call) : Prop where
  unrecorded : Bare call.phase ∨ call.phase.isRunning = true → s.Unrecorded index
  inserted : ∀ ordinal rows, call.phase = .inserting ordinal rows →
    Inserted env index call.request ordinal rows
  committing : ∀ rows receipt, call.phase = .committing rows receipt →
    Committing env s index call.request rows receipt
  recorded : s.Unrecorded index ∨ s.Recorded env index call.request
  returned : ∀ receipt, call.phase = .returned receipt false → s.Recorded env index call.request

/-- A transaction that is about to commit has inserted a receipt with the key. -/
def Holds (s : System) (index : Nat) (key : String) : Prop :=
  ∃ call rows receipt, s.calls[index]? = some call ∧ call.phase = .committing rows receipt ∧
    call.request.idempotencyKey = key

/-- What holds between steps: receipts are those of requests, rows are of calls that were made, and
no two transactions that are about to commit have one key. -/
structure Kept (env : Environment) (s : System) : Prop where
  once : (s.receipts.map ReceiptRow.idempotencyKey).Nodup
  receipts : ∀ receipt ∈ s.receipts,
    ∃ request, (s.calls.map Call.request)[receipt.call]? = some request ∧
    ∃ receiptId, receipt = request.receiptRow env receiptId receipt.call
  rowsPast : ∀ reading ∈ s.readings, ∀ index, reading.call = some index → index < s.calls.length
  calls : ∀ index call, s.calls[index]? = some call → CallKept env s index call
  exclusive : ∀ key index other, s.Holds index key → s.Holds other key → index = other

section Kept

variable {env : Environment} {s t : System} {index other : Nat} {call : Call}

/-- At the start there are no calls. -/
theorem kept_start (seeded : List Reading) : Kept env (start seeded) where
  once := List.nodup_nil
  receipts _ h := absurd h List.not_mem_nil
  rowsPast reading h := by
    obtain ⟨_, -, rfl⟩ := List.mem_map.mp h
    exact nofun
  calls _ _ h := by cases h
  exclusive _ _ _ h _ := by
    obtain ⟨_, _, _, hcall, -⟩ := h
    cases hcall

/-- A call that changes no table stays unrecorded. -/
theorem Unrecorded.of_tables (h : s.Unrecorded index) (hreceipts : t.receipts = s.receipts)
    (hreadings : t.readings = s.readings) : t.Unrecorded index := by
  refine ⟨?_, ?_⟩
  · rw [hreceipts]
    exact h.noReceipt
  · unfold imported
    rw [hreadings]
    exact h.noRows

/-- A call that changes no table stays recorded. -/
theorem Recorded.of_tables {request : ImportCommit} (h : s.Recorded env index request)
    (hreceipts : t.receipts = s.receipts) (hreadings : t.readings = s.readings) :
    t.Recorded env index request := by
  refine ⟨?_, ?_⟩
  · rw [hreceipts]
    exact h.receipt
  · unfold imported
    rw [hreadings]
    exact h.rows

/-- A call that changes no table stays as it was. -/
theorem CallKept.of_tables (h : CallKept env s index call) (hreceipts : t.receipts = s.receipts)
    (hreadings : t.readings = s.readings) : CallKept env t index call where
  unrecorded hphase := (h.unrecorded hphase).of_tables hreceipts hreadings
  inserted := h.inserted
  committing rows receipt hphase := by
    obtain ⟨hrows, hmarked, hreceipt, hfree⟩ := h.committing rows receipt hphase
    exact ⟨hrows, hmarked, hreceipt, by rwa [hreceipts]⟩
  recorded := h.recorded.imp (·.of_tables hreceipts hreadings) (·.of_tables hreceipts hreadings)
  returned receipt hphase := (h.returned receipt hphase).of_tables hreceipts hreadings

/-- The calls after one of them has moved. -/
theorem getElem?_setPhase {phase : CallPhase} {found : Call}
    (h : (s.setPhase index call phase).calls[other]? = some found) :
    (other = index ∧ found = { call with phase }) ∨
      (other ≠ index ∧ s.calls[other]? = some found) :=
  getElem?_set_eq_some h

/-- The requests do not change. -/
theorem requests_setPhase (phase : CallPhase) (hcall : s.calls[index]? = some call) :
    (s.setPhase index call phase).calls.map Call.request = s.calls.map Call.request := by
  apply List.ext_getElem?
  intro i
  rw [List.getElem?_map, List.getElem?_map, System.setPhase, List.getElem?_set]
  split
  · rename_i heq
    rw [← heq, if_pos (List.getElem?_eq_some_iff.mp hcall).1, hcall]
    rfl
  · rfl

/-- A call that holds a key after a change of phase held it, or begins to. -/
theorem holds_setPhase {phase : CallPhase} {key : String}
    (h : (s.setPhase index call phase).Holds other key) :
    (other = index ∧ (∃ rows receipt, phase = .committing rows receipt) ∧
      call.request.idempotencyKey = key) ∨ (other ≠ index ∧ s.Holds other key) := by
  obtain ⟨found, rows, receipt, hfound, hphase, hkey⟩ := h
  rcases getElem?_setPhase hfound with ⟨heq, rfl⟩ | ⟨hne, hold⟩
  · exact .inl ⟨heq, ⟨rows, receipt, hphase⟩, hkey⟩
  · exact .inr ⟨hne, found, rows, receipt, hold, hphase, hkey⟩

/-- A step that moves one call and leaves the tables keeps the invariant, if what the call then is
does. -/
theorem Kept.setPhase (hs : Kept env s) {phase : CallPhase} (hcall : s.calls[index]? = some call)
    (hkept : CallKept env s index { call with phase })
    (hexclusive : (∃ rows receipt, phase = .committing rows receipt) →
      ∀ other, ¬s.Holds other call.request.idempotencyKey) :
    Kept env (s.setPhase index call phase) where
  once := hs.once
  receipts receipt h := by
    rw [requests_setPhase phase hcall]
    exact hs.receipts receipt h
  rowsPast reading h i hi := by
    simpa [System.setPhase] using hs.rowsPast reading h i hi
  calls other found h := by
    -- The call that moves is kept by hypothesis, the others as before.
    rcases getElem?_setPhase h with ⟨rfl, rfl⟩ | ⟨-, hother⟩
    · exact hkept.of_tables rfl rfl
    · exact (hs.calls other found hother).of_tables rfl rfl
  exclusive key i j hi hj := by
    -- Two holders of the key: the moved call excludes the others.
    rcases holds_setPhase hi with ⟨rfl, hphase, rfl⟩ | ⟨-, hfirst⟩
    · rcases holds_setPhase hj with ⟨rfl, -, -⟩ | ⟨-, hsecond⟩
      · rfl
      · exact absurd hsecond (hexclusive hphase j)
    · rcases holds_setPhase hj with ⟨rfl, hphase, rfl⟩ | ⟨-, hsecond⟩
      · exact absurd hfirst (hexclusive hphase i)
      · exact hs.exclusive key i j hfirst hsecond

/-- The call of a receipt is one of those made. -/
theorem Kept.receipt_past (hs : Kept env s) {receipt : ReceiptRow} (h : receipt ∈ s.receipts) :
    receipt.call < s.calls.length := by
  obtain ⟨request, hrequest, -⟩ := hs.receipts receipt h
  simpa using (List.getElem?_eq_some_iff.mp hrequest).1

/-- A call more changes nothing for the others. -/
theorem Kept.called (hs : Kept env s) (request : ImportCommit) :
    Kept env { s with calls := s.calls ++ [⟨request, .connecting⟩] } where
  once := hs.once
  receipts receipt h := by
    obtain ⟨found, hfound, hreceipt⟩ := hs.receipts receipt h
    refine ⟨found, ?_, hreceipt⟩
    rw [List.map_append, List.getElem?_append_left (List.getElem?_eq_some_iff.mp hfound).1, hfound]
  rowsPast reading h i hi := by
    have hpast := hs.rowsPast reading h i hi
    simp only [List.length_append, List.length_singleton]
    omega
  -- A new call has recorded nothing yet.
  calls other found h := by
    rcases getElem?_concat_eq_some h with hold | ⟨rfl, rfl⟩
    · exact (hs.calls other found hold).of_tables rfl rfl
    · have hunrecorded : s.Unrecorded s.calls.length := by
        refine ⟨fun receipt hreceipt heq => ?_,
          List.filter_eq_nil_iff.mpr fun reading hreading heq => ?_⟩
        · exact absurd (hs.receipt_past hreceipt) (heq ▸ Nat.lt_irrefl _)
        · exact absurd (hs.rowsPast reading hreading _ (of_decide_eq_true heq)) (Nat.lt_irrefl _)
      have hunrecorded' := hunrecorded.of_tables
        (t := { s with calls := s.calls ++ [⟨request, .connecting⟩] }) rfl rfl
      exact ⟨fun _ => hunrecorded', nofun, nofun, .inl hunrecorded', nofun⟩
  -- It holds no key either.
  exclusive key i j hi hj := by
    have hold {index : Nat}
      (h : Holds { s with calls := s.calls ++ [⟨request, .connecting⟩] } index key) :
        s.Holds index key := by
      obtain ⟨found, rows, receipt, hfound, hphase, hkey⟩ := h
      rcases getElem?_concat_eq_some hfound with hfound | ⟨-, rfl⟩
      · exact ⟨found, rows, receipt, hfound, hphase, hkey⟩
      · cases hphase
    exact hs.exclusive key i j (hold hi) (hold hj)

/-- A commit adds its rows to those of its call, and none to those of the others. -/
theorem imported_append {readings rows : List Reading}
    (hmarked : ∀ reading ∈ rows, reading.call = some index)
    (calls : List Call) (receipts : List ReceiptRow) :
    imported ⟨receipts, readings ++ rows, calls⟩ other =
      imported ⟨receipts, readings, calls⟩ other ++ if other = index then rows else [] := by
  unfold imported
  rw [List.filter_append]
  congr 1
  split
  · rename_i heq
    subst heq
    exact List.filter_eq_self.mpr fun reading hreading => decide_eq_true (hmarked reading hreading)
  · rename_i hne
    refine List.filter_eq_nil_iff.mpr fun reading hreading heq => ?_
    have hother := of_decide_eq_true heq
    rw [hmarked reading hreading] at hother
    exact hne (Option.some.inj hother).symm

section Commit

variable {rows : List Reading} {receipt : ReceiptRow} {found : Call}

/-- The tables after a commit. -/
def withCommit (s : System) (rows : List Reading) (receipt : ReceiptRow) : System :=
  { s with receipts := s.receipts ++ [receipt], readings := s.readings ++ rows }

/-- A commit of another call leaves a call unrecorded. -/
theorem Unrecorded.withCommit (h : s.Unrecorded other)
    (hmarked : ∀ reading ∈ rows, reading.call = some index)
    (hreceipt : receipt.call = index) (hne : other ≠ index) :
    (s.withCommit rows receipt).Unrecorded other := by
  refine ⟨fun found hfound => ?_, ?_⟩
  · rcases List.mem_append.mp hfound with hold | hnew
    · exact h.noReceipt found hold
    · rw [List.mem_singleton.mp hnew, hreceipt]
      exact hne.symm
  · exact (imported_append hmarked _ _).trans (by rw [if_neg hne, List.append_nil]; exact h.noRows)

/-- A commit of another call leaves a call recorded. -/
theorem Recorded.withCommit {request : ImportCommit} (h : s.Recorded env other request)
    (hmarked : ∀ reading ∈ rows, reading.call = some index) (hne : other ≠ index) :
    (s.withCommit rows receipt).Recorded env other request := by
  obtain ⟨⟨receiptId, hreceipt⟩, hrows⟩ := h
  refine ⟨⟨receiptId, List.mem_append_left _ hreceipt⟩, ?_⟩
  have himported : (s.withCommit rows receipt).imported other = s.imported other :=
    (imported_append hmarked _ _).trans (by rw [if_neg hne, List.append_nil]; rfl)
  rwa [himported]

/-- The other calls are kept by a commit, since no other transaction holds the key. -/
theorem CallKept.withCommit (h : CallKept env s other found)
    (hmarked : ∀ reading ∈ rows, reading.call = some index) (hreceipt : receipt.call = index)
    (hne : other ≠ index)
    (hheld : ∀ rows' receipt', found.phase = .committing rows' receipt' →
      receipt.idempotencyKey ≠ found.request.idempotencyKey) :
    CallKept env (s.withCommit rows receipt) other found where
  unrecorded hphase := (h.unrecorded hphase).withCommit hmarked hreceipt hne
  inserted := h.inserted
  committing rows' receipt' hphase := by
    obtain ⟨hrows, hmarked', hreceipt', hfree⟩ := h.committing rows' receipt' hphase
    refine ⟨hrows, hmarked', hreceipt', fun row hrow => ?_⟩
    rcases List.mem_append.mp hrow with hold | hnew
    · exact hfree row hold
    · rw [List.mem_singleton.mp hnew]
      exact hheld rows' receipt' hphase
  recorded := h.recorded.imp (·.withCommit hmarked hreceipt hne) (·.withCommit hmarked hne)
  returned value hphase := (h.returned value hphase).withCommit hmarked hne

/-- A commit records its call. -/
theorem Committing.recorded (h : Committing env s index call.request rows receipt)
    (hunrecorded : s.Unrecorded index) :
    (s.withCommit rows receipt).Recorded env index call.request := by
  obtain ⟨receiptId, rfl⟩ := h.receipt
  refine ⟨⟨receiptId, List.mem_append_right _ List.mem_cons_self⟩, ?_⟩
  have himported :
      imported (s.withCommit rows (call.request.receiptRow env receiptId index)) index = rows :=
    (imported_append h.marked _ _).trans (by
      rw [if_pos rfl]
      exact congrArg (· ++ rows) hunrecorded.noRows)
  rw [himported]
  exact h.rowsAre

/-- A commit records its call, and nothing of the others. -/
theorem Kept.committed (hs : Kept env s) (outcome : CommitOutcome)
    (hcall : s.calls[index]? = some call) (hphase : call.phase = .committing rows receipt) :
    Kept env ((s.withCommit rows receipt).setPhase index call
      (System.committed call.request receipt.receiptId outcome)) := by
  have hkept := hs.calls index call hcall
  have hcommitting := hkept.committing _ _ hphase
  have hrecorded := hcommitting.recorded (hkept.unrecorded (.inr (by rw [hphase]; rfl)))
  have hpast : index < s.calls.length := (List.getElem?_eq_some_iff.mp hcall).1
  have hheld : s.Holds index call.request.idempotencyKey :=
    ⟨call, rows, receipt, hcall, hphase, rfl⟩
  obtain ⟨hrows, hmarked, ⟨receiptId, rfl⟩, hfree⟩ := hcommitting
  have hlength (phase : CallPhase) :
      (s.calls.set index { call with phase }).length = s.calls.length :=
    List.length_set
  refine ⟨?_, fun row hrow => ?_, fun reading hreading i hi => ?_, fun other found hfound => ?_,
    fun key i j hi hj => ?_⟩
  · show ((s.receipts ++ [_]).map _).Nodup
    rw [List.map_append, List.nodup_append]
    refine ⟨hs.once, by simp, fun key hkey key' hkey' => ?_⟩
    obtain ⟨row, hrow, rfl⟩ := List.mem_map.mp hkey
    rw [List.mem_singleton.mp hkey']
    exact hfree row hrow
  · rw [requests_setPhase _ (s := s.withCommit rows _) hcall]
    rcases List.mem_append.mp hrow with hold | hnew
    · exact hs.receipts row hold
    · obtain rfl := List.mem_singleton.mp hnew
      refine ⟨call.request, ?_, receiptId, rfl⟩
      show (s.calls.map Call.request)[index]? = _
      rw [List.getElem?_map, hcall]
      rfl
  · refine (hlength _).symm ▸ ?_
    rcases List.mem_append.mp hreading with hold | hnew
    · exact hs.rowsPast reading hold i hi
    · cases (hmarked reading hnew).symm.trans hi
      exact hpast
  · rcases getElem?_setPhase hfound with ⟨rfl, rfl⟩ | ⟨hne, hold⟩
    · -- The call has ended in one of three ways, and is recorded in each.
      refine CallKept.of_tables (s := s.withCommit rows _) ?_ rfl rfl
      cases outcome <;>
        exact ⟨fun h => (h.elim id nofun).elim, nofun, nofun, .inr hrecorded, fun _ _ => hrecorded⟩
    · refine CallKept.of_tables (s := s.withCommit rows _) ?_ rfl rfl
      refine (hs.calls other found hold).withCommit hmarked rfl hne
        fun rows' receipt' hother heq => ?_
      exact hne (hs.exclusive _ _ _ ⟨found, rows', receipt', hold, hother, heq.symm⟩ hheld)
  · have hbefore {receipt : ReceiptRow} {i : Nat}
      (h : Holds ((s.withCommit rows receipt).setPhase index call
        (System.committed call.request receiptId outcome)) i key) : s.Holds i key := by
      rcases holds_setPhase h with ⟨-, ⟨_, _, hphase⟩, -⟩ | ⟨-, hold⟩
      · cases outcome <;> cases hphase
      · exact hold
    exact hs.exclusive key i j (hbefore hi) (hbefore hj)

end Commit

/-- An identifier that is new to two lists is new to each. -/
theorem hasReading_eq_false_of_append {readings more : List Reading} {id : Uuid}
    (h : hasReading (readings ++ more) id = false) :
    hasReading readings id = false ∧ hasReading more id = false := by
  simpa only [hasReading, List.any_append, Bool.or_eq_false_iff] using h

/-- A row with a new identifier is inserted. -/
theorem FreshIds.inserts {ordinal : Nat} {rows : List Reading} {readingId : Uuid}
    {error : Option String}
    (h : FreshIds s (.insertRow index readingId error)) (hcall : s.calls[index]? = some call)
    (hphase : call.phase = .inserting ordinal rows) :
    hasReading (s.readings ++ rows) readingId = false := by
  obtain ⟨hreadings, hpending⟩ := hasReading_eq_false_of_append h
  simp only [hasReading, List.any_append, Bool.or_eq_false_iff]
  refine ⟨hreadings, ?_⟩
  rw [List.any_eq_false]
  intro reading hreading
  refine List.any_eq_false.mp hpending reading
    (List.mem_flatMap.mpr ⟨call, List.mem_of_getElem? hcall, ?_⟩)
  rwa [hphase]

/-- A row more is inserted. -/
theorem Inserted.concat {request : ImportCommit} {ordinal : Nat} {rows : List Reading}
    {row : List String}
    {reading : Reading} (h : Inserted env index request ordinal rows)
    (hrow : request.rows[ordinal]? = some row)
    (hvalues : readRow env row = .ok reading.values)
    (hstation : reading.stationId = request.stationId) (hmark : reading.call = some index) :
    Inserted env index request (ordinal + 1) (rows ++ [reading]) := by
  refine ⟨?_, fun found hfound => ?_, fun found hfound => ?_⟩
  · rw [List.take_add_one, hrow, Option.toList_some, List.mapM_append, h.values]
    simp [hvalues, bind, Except.bind, pure, Except.pure]
  · rcases List.mem_append.mp hfound with hold | hnew
    · exact h.station found hold
    · rwa [List.mem_singleton.mp hnew]
  · rcases List.mem_append.mp hfound with hold | hnew
    · exact h.marked found hold
    · rwa [List.mem_singleton.mp hnew]

/-- A bare or dropped phase holds no rows and no receipt. -/
theorem holds_nothing {phase : CallPhase} (h : Bare phase ∨ phase = .dropped) :
    (∀ ordinal rows, phase ≠ .inserting ordinal rows) ∧
    (∀ rows receipt, phase ≠ .committing rows receipt) ∧
      ∀ receipt, phase ≠ .returned receipt false := by
  refine ⟨?_, ?_, ?_⟩
  all_goals
    intros
    rintro rfl
    exact h.elim id nofun

/-- A key that no receipt clashes with is free. -/
theorem key_ne_of_not_clashes {receipt other : ReceiptRow} (h : clashes receipt other = false) :
    other.idempotencyKey ≠ receipt.idempotencyKey := by
  rw [clashes, Bool.or_eq_false_iff] at h
  exact of_decide_eq_false h.1

/-- A step keeps the invariant. -/
theorem Kept.step {a : Action} (hs : Kept env s) (hfresh : FreshIds s a)
    (h : s.step env a = some t) :
    Kept env t := by
  cases step_moves h with
  | called request => exact hs.called request
  | moved a index call phase hcall hrunning hphase =>
    have hunrecorded := (hs.calls index call hcall).unrecorded (.inr hrunning)
    obtain ⟨hinserting, hcommitting, hreturned⟩ := holds_nothing hphase
    refine hs.setPhase hcall ⟨fun _ => hunrecorded,
      fun ordinal rows h => absurd h (hinserting ordinal rows),
      fun rows receipt h => absurd h (hcommitting rows receipt), .inl hunrecorded,
      fun receipt h => absurd h (hreturned receipt)⟩ ?_
    exact fun ⟨rows, receipt, h⟩ => absurd h (hcommitting rows receipt)
  | prepared index call hcall hphase =>
    have hunrecorded := (hs.calls index call hcall).unrecorded (.inr (by rw [hphase]; rfl))
    refine hs.setPhase hcall ⟨fun _ => hunrecorded, ?_, nofun, .inl hunrecorded, nofun⟩ nofun
    rintro _ _ ⟨⟩
    exact ⟨rfl, nofun, nofun⟩
  | inserted index call ordinal rows row reading hcall hphase hrow hvalues hstation hmark =>
    have hkept := hs.calls index call hcall
    have hunrecorded := hkept.unrecorded (.inr (by rw [hphase]; rfl))
    rw [hfresh.inserts hcall hphase]
    refine hs.setPhase hcall ⟨fun _ => hunrecorded, ?_, nofun, .inl hunrecorded, nofun⟩ nofun
    rintro _ _ ⟨⟩
    exact (hkept.inserted _ _ hphase).concat hrow hvalues hstation hmark
  | reserved index call ordinal rows receiptId hcall hphase hend hfree hheld =>
    have hkept := hs.calls index call hcall
    have hunrecorded := hkept.unrecorded (.inr (by rw [hphase]; rfl))
    have hinserted := hkept.inserted _ _ hphase
    refine hs.setPhase hcall ⟨fun _ => hunrecorded, nofun, ?_, .inl hunrecorded, nofun⟩ ?_
    · rintro _ _ ⟨⟩
      refine ⟨⟨?_, hinserted.station⟩, hinserted.marked, ⟨receiptId, rfl⟩, ?_⟩
      · have hall : call.request.rows.take ordinal = call.request.rows :=
          List.take_of_length_le (List.getElem?_eq_none_iff.mp hend)
        have hvalues := hinserted.values
        rwa [hall] at hvalues
      · exact fun other hother => key_ne_of_not_clashes (Bool.eq_false_iff.mpr
          (List.any_eq_false.mp hfree other hother))
    · -- A transaction that holds the key has inserted a receipt, which would have been waited for.
      rintro - other ⟨found, rows', receipt', hfound, hcommitting, hkey⟩
      have hclash := List.any_eq_false.mp hheld found (List.mem_of_getElem? hfound)
      rw [hcommitting] at hclash
      obtain ⟨receiptId', hreceipt⟩ :=
        ((hs.calls other found hfound).committing _ _ hcommitting).receipt
      refine key_ne_of_not_clashes (Bool.eq_false_iff.mpr hclash) ?_
      rw [hreceipt]
      exact hkey
  | committed index call rows receipt outcome hcall hphase =>
    exact hs.committed outcome hcall hphase

/-- A call whose receipt or rows are in the tables is recorded. -/
theorem Kept.recorded_of_receipt (hs : Kept env s) {receipt : ReceiptRow} (h : receipt ∈ s.receipts)
    (hcall : s.calls[receipt.call]? = some call) : s.Recorded env receipt.call call.request :=
  (hs.calls _ call hcall).recorded.resolve_left fun hnone => hnone.noReceipt receipt h rfl

/-- A reading is that of a recorded call. -/
theorem Kept.recorded_of_reading (hs : Kept env s) {reading : Reading} (h : reading ∈ s.readings)
    (hmark : reading.call = some index) (hcall : s.calls[index]? = some call) :
    s.Recorded env index call.request := by
  refine (hs.calls _ call hcall).recorded.resolve_left fun hnone => ?_
  have hmem : reading ∈ s.imported index := List.mem_filter.mpr ⟨h, decide_eq_true hmark⟩
  rw [hnone.noRows] at hmem
  exact absurd hmem List.not_mem_nil

/-- A key has one receipt. -/
theorem Kept.eq_of_key (hs : Kept env s) {receipt found : ReceiptRow} (h : receipt ∈ s.receipts)
    (hfound : found ∈ s.receipts) (hkey : receipt.idempotencyKey = found.idempotencyKey) :
    receipt = found :=
  List.inj_on_of_nodup_map hs.once h hfound hkey

/-- The rows for a key are those of the call that has its receipt. -/
theorem Kept.importedFor_eq (hs : Kept env s) {receipt : ReceiptRow} (h : receipt ∈ s.receipts)
    (hcall : s.calls[receipt.call]? = some call)
    (hkey : receipt.idempotencyKey = call.request.idempotencyKey) :
    s.importedFor receipt.idempotencyKey = s.imported receipt.call := by
  refine List.filter_congr fun reading hreading => ?_
  rw [Bool.eq_iff_iff, decide_eq_true_iff]
  constructor
  · intro hany
    obtain ⟨index, hmark, hany⟩ := (Option.any_eq_true _ _).mp hany
    obtain ⟨found, hfound, hmatch⟩ := (Option.any_eq_true _ _).mp hany
    obtain ⟨⟨receiptId, hrow⟩, -⟩ := hs.recorded_of_reading hreading hmark hfound
    have heq := hs.eq_of_key h hrow (of_decide_eq_true hmatch).symm
    rw [hmark, heq]
    rfl
  · intro hmark
    rw [hmark, Option.any_some, hcall, Option.any_some]
    exact decide_eq_true hkey.symm

/-- Without a receipt nothing is imported for a key. -/
theorem Kept.importedFor_eq_nil (hs : Kept env s) {key : String}
    (hnone : ∀ receipt ∈ s.receipts, receipt.idempotencyKey ≠ key) : s.importedFor key = [] := by
  refine List.filter_eq_nil_iff.mpr fun reading hreading hany => ?_
  obtain ⟨index, hmark, hany⟩ := (Option.any_eq_true _ _).mp hany
  obtain ⟨found, hfound, hmatch⟩ := (Option.any_eq_true _ _).mp hany
  obtain ⟨⟨receiptId, hrow⟩, -⟩ := hs.recorded_of_reading hreading hmark hfound
  exact hnone _ hrow (of_decide_eq_true hmatch)

end Kept

/-! ## Replays -/

/-- A request asks for the import of another again: it agrees in all that the lookup compares, and
the mapping is one that its column gives back as it was written. -/
structure Repeats (env : Environment) (original request : ImportCommit) : Prop where
  key : request.idempotencyKey = original.idempotencyKey
  bundle : request.bundleDigest = original.bundleDigest
  revision : request.targetRevision = original.targetRevision
  plan : request.planDigest = original.planDigest
  owner : request.localOwner = original.localOwner
  mapping : request.mapping = original.mapping
  bytes : request.byteCount = original.byteCount
  stored : env.jsonb original.mapping = original.mapping

/-- The phases of a call that gets a receipt back; a statement before that may fail. -/
inductive Replaying (receipt : ReceiptRow) : CallPhase → Prop
  | connecting : Replaying receipt .connecting
  | looking : Replaying receipt .looking
  | returned : Replaying receipt (.returned receipt.receiptJson true)
  | unconnected (error : String) : Replaying receipt (.failed (.connect error))
  | unanswered (error : String) : Replaying receipt (.failed (.statement error))
  | dropped : Replaying receipt .dropped

section Replays

variable {env : Environment} {s t : System} {a : Action} {index : Nat} {call : Call}
  {receipt : ReceiptRow}

/-- The receipt of a key is found by it. -/
theorem Kept.receiptOf?_eq (hs : Kept env s) (h : receipt ∈ s.receipts) :
    s.receiptOf? receipt.idempotencyKey = some receipt := by
  cases hfind : s.receiptOf? receipt.idempotencyKey with
  | none => exact absurd (decide_eq_true rfl) (List.find?_eq_none.mp hfind receipt h)
  | some found =>
    have hkey : found.idempotencyKey = receipt.idempotencyKey := by
      simpa using List.find?_some hfind
    rw [hs.eq_of_key (List.mem_of_find?_eq_some hfind) h hkey]

/-- A repeated request conflicts with no receipt. -/
theorem Repeats.not_conflictsWith {original request : ImportCommit}
    (h : Repeats env original request)
    (receiptId : Uuid) :
    request.conflictsWith (original.receiptRow env receiptId index) = false := by
  simp [ImportCommit.conflictsWith, ImportCommit.receiptRow, h.bundle, h.revision, h.plan, h.owner,
    h.mapping, h.bytes, h.stored]

/-- The lookup of a repeated request finds the receipt and gives it back. -/
theorem Repeats.lookup_eq {original request : ImportCommit} (h : Repeats env original request)
    (hs : Kept env s) (hreceipt : receipt ∈ s.receipts)
    (hrow : ∃ receiptId, receipt = original.receiptRow env receiptId receipt.call) :
    s.lookup request none = .returned receipt.receiptJson true := by
  obtain ⟨receiptId, hrow⟩ := hrow
  have hkey : receipt.idempotencyKey = request.idempotencyKey := by
    rw [hrow]
    exact h.key.symm
  have hconflict : request.conflictsWith receipt = false := by
    rw [hrow]
    exact h.not_conflictsWith receiptId
  unfold System.lookup
  rw [← hkey, hs.receiptOf?_eq hreceipt]
  dsimp only
  rw [hconflict]
  rfl

/-- A repeated request is answered with the receipt. -/
theorem Repeats.nextPhase {original : ImportCommit} {phase : CallPhase}
    (h : Repeats env original call.request) (hs : Kept env s) (hreceipt : receipt ∈ s.receipts)
    (hrow : ∃ receiptId, receipt = original.receiptRow env receiptId receipt.call)
    (hreplaying : Replaying receipt call.phase) (hphase : s.nextPhase env call a = some phase) :
    Replaying receipt phase := by
  unfold System.nextPhase at hphase
  split at hphase
  case h_1 answer _ =>
    cases hphase
    -- The connection was answered, and the lookup comes next.
    cases answer with
    | connected => exact .looking
    | refused error => exact .unconnected error
    | noTransaction error => exact .unanswered error
  case h_2 error _ =>
    cases hphase
    cases error with
    | none =>
      -- The lookup finds the receipt of the first call.
      rw [h.lookup_eq hs hreceipt hrow]
      exact .returned
    | some error => exact .unanswered error
  -- A replaying call is in none of these phases.
  case h_3 hother | h_4 hother | h_5 hother =>
    rw [hother] at hreplaying
    cases hreplaying
  case h_6 =>
    split at hphase
    · cases hphase
      exact .dropped
    · cases hphase
  case h_7 => cases hphase

/-- Where a call stands after a step: it was just made, it did not move, it moved, or it
committed. -/
theorem step_call (h : s.step env a = some t) (hcall : t.calls[index]? = some call) :
    s.calls[index]? = some call ∨ (index = s.calls.length ∧ call.phase = .connecting) ∨
      ∃ old, s.calls[index]? = some old ∧ call.request = old.request ∧
        (s.nextPhase env old a = some call.phase ∨
          ∃ rows receipt, old.phase = .committing rows receipt) := by
  -- A call is an old one, the new one, or the one whose step this is.
  cases a with
  | call request =>
    cases h
    rcases getElem?_concat_eq_some hcall with hold | ⟨rfl, rfl⟩
    · exact .inl hold
    · exact .inr (.inl ⟨rfl, rfl⟩)
  | commit i outcome =>
    obtain ⟨old, hold, hcommit⟩ := Option.bind_eq_some_iff.mp h
    cases hphase : old.phase with
    -- A commit changes the phase of its own call only.
    | committing rows receipt =>
      simp only [hphase, Option.some.injEq] at hcommit
      subst hcommit
      have hset : ∃ phase, (s.commit i old rows receipt outcome).calls =
          s.calls.set i { old with phase } := by
        cases outcome <;> exact ⟨_, rfl⟩
      obtain ⟨phase, hset⟩ := hset
      rw [hset] at hcall
      rcases getElem?_set_eq_some hcall with ⟨rfl, rfl⟩ | ⟨-, hother⟩
      · exact .inr (.inr ⟨old, hold, rfl, .inr ⟨rows, receipt, hphase⟩⟩)
      · exact .inl hother
    | _ => simp [hphase] at hcommit
  | connect | lookup | prepare | insertRow | insertReceipt | drop =>
    obtain ⟨old, hold, hrest⟩ := Option.bind_eq_some_iff.mp h
    obtain ⟨phase, hphase, hset⟩ := Option.bind_eq_some_iff.mp hrest
    cases hset
    rcases getElem?_setPhase hcall with ⟨rfl, rfl⟩ | ⟨-, hother⟩
    · exact .inr (.inr ⟨old, hold, rfl, .inl hphase⟩)
    · exact .inl hother

/-- The tables only grow. -/
theorem step_grows (h : s.step env a = some t) :
    s.receipts <+: t.receipts ∧ s.readings <+: t.readings := by
  cases step_moves h with
  | committed => exact ⟨List.prefix_append _ _, List.prefix_append _ _⟩
  | _ => exact ⟨List.prefix_rfl, List.prefix_rfl⟩

end Replays

/-! ## Runs -/

/-- What a run says about imports, from a state `s` on: `t` is a later state. -/
structure ImportsExact (env : Environment) (s t : System) : Prop where
  once : (t.receipts.map ReceiptRow.idempotencyKey).Nodup
  /-- The rows for a key are there, in full, just when its receipt is. -/
  rows : ∀ key, (∃ receipt ∈ t.receipts, receipt.idempotencyKey = key ∧ ∃ call,
      t.calls[receipt.call]? = some call ∧ RowsAre env call.request (t.importedFor key)) ∨
    ((∀ receipt ∈ t.receipts, receipt.idempotencyKey ≠ key) ∧ t.importedFor key = [])
  /-- A call that has failed has left nothing, -/
  failed : ∀ index call error, t.calls[index]? = some call → call.phase = .failed error →
    t.Unrecorded index
  /-- and what was there is still there. -/
  grown : s.receipts <+: t.receipts ∧ s.readings <+: t.readings
  /-- A later call that repeats an import gets its receipt from the lookup, and inserts nothing. -/
  replayed : ∀ receipt ∈ s.receipts, ∀ original, s.calls[receipt.call]? = some original →
    ∀ index call, s.calls.length ≤ index → t.calls[index]? = some call →
      Repeats env original.request call.request →
        receipt.receiptJson = env.jsonb (original.request.receipt receipt.receiptId) ∧
        Replaying receipt call.phase ∧ t.Unrecorded index ∧
        (call.phase = .looking → t.step env (.lookup index none) =
          some (t.setPhase index call (.returned receipt.receiptJson true)))

section Runs

variable {env : Environment} {s t : System} {a : Action}

/-- The rows of a key are there just when its receipt is. -/
theorem Kept.rows_iff_receipt (hs : Kept env s) (key : String) :
    (∃ receipt ∈ s.receipts, receipt.idempotencyKey = key ∧ ∃ call,
      s.calls[receipt.call]? = some call ∧ RowsAre env call.request (s.importedFor key)) ∨
    ((∀ receipt ∈ s.receipts, receipt.idempotencyKey ≠ key) ∧ s.importedFor key = []) := by
  by_cases h : ∃ receipt ∈ s.receipts, receipt.idempotencyKey = key
  · obtain ⟨receipt, hreceipt, rfl⟩ := h
    obtain ⟨request, hrequest, receiptId, hrow⟩ := hs.receipts receipt hreceipt
    rw [List.getElem?_map] at hrequest
    obtain ⟨call, hcall, rfl⟩ := Option.map_eq_some_iff.mp hrequest
    refine .inl ⟨receipt, hreceipt, rfl, call, hcall, ?_⟩
    rw [hs.importedFor_eq hreceipt hcall (by rw [hrow]; rfl)]
    exact (hs.recorded_of_receipt hreceipt hcall).rows
  · have hnone : ∀ receipt ∈ s.receipts, receipt.idempotencyKey ≠ key :=
      fun receipt hreceipt heq => h ⟨receipt, hreceipt, heq⟩
    exact .inr ⟨hnone, hs.importedFor_eq_nil hnone⟩

/-- What a run keeps from a state `s` on, about the calls that repeat an import whose receipt was
there. -/
structure Follows (env : Environment) (s t : System) : Prop where
  kept : Kept env t
  grown : s.receipts <+: t.receipts ∧ s.readings <+: t.readings
  longer : s.calls.length ≤ t.calls.length
  replaying : ∀ receipt ∈ s.receipts, ∀ original,
    (∃ receiptId, receipt = ImportCommit.receiptRow original env receiptId receipt.call) →
    ∀ index call, s.calls.length ≤ index → t.calls[index]? = some call →
      Repeats env original call.request → Replaying receipt call.phase

/-- A state follows from itself. -/
theorem Follows.refl (hs : Kept env s) : Follows env s s where
  kept := hs
  grown := ⟨List.prefix_rfl, List.prefix_rfl⟩
  longer := Nat.le_refl _
  replaying _ _ _ _ _ _ hindex hcall _ :=
    absurd (List.getElem?_eq_some_iff.mp hcall).1 (Nat.not_lt.mpr hindex)

/-- No step takes a call away. -/
theorem step_longer (h : s.step env a = some t) : s.calls.length ≤ t.calls.length := by
  cases step_moves h with
  | called => simp
  | _ => simp [System.setPhase]

/-- A state that follows, after a step more. -/
theorem Follows.step {u : System} (h : Follows env s t) (hfresh : FreshIds t a)
    (hstep : t.step env a = some u) : Follows env s u where
  kept := h.kept.step hfresh hstep
  grown := ⟨h.grown.1.trans (step_grows hstep).1, h.grown.2.trans (step_grows hstep).2⟩
  longer := Nat.le_trans h.longer (step_longer hstep)
  replaying receipt hreceipt original hrow index call hindex hcall hrepeats := by
    rcases step_call hstep hcall with hold | ⟨-, hconnecting⟩ | ⟨old, hold, hrequest, hmoved⟩
    · exact h.replaying receipt hreceipt original hrow index call hindex hold hrepeats
    · rw [hconnecting]
      exact .connecting
    · rw [hrequest] at hrepeats
      have hreplaying := h.replaying receipt hreceipt original hrow index old hindex hold hrepeats
      rcases hmoved with hphase | ⟨rows, receipt', hcommitting⟩
      · exact hrepeats.nextPhase h.kept (h.grown.1.subset hreceipt) hrow hreplaying hphase
      · rw [hcommitting] at hreplaying
        cases hreplaying

/-- A call that was made after a receipt was there has not recorded another for its key. -/
theorem Follows.unrecorded {receipt : ReceiptRow} {index : Nat} {call : Call} (h : Follows env s t)
    (hs : Kept env s) (hreceipt : receipt ∈ s.receipts) (hindex : s.calls.length ≤ index)
    (hcall : t.calls[index]? = some call)
    (hkey : call.request.idempotencyKey = receipt.idempotencyKey) : t.Unrecorded index := by
  refine (h.kept.calls index call hcall).recorded.resolve_right fun hrecorded => ?_
  obtain ⟨receiptId, hrow⟩ := hrecorded.receipt
  have heq := h.kept.eq_of_key hrow (h.grown.1.subset hreceipt) hkey
  have hpast := hs.receipt_past hreceipt
  rw [← heq] at hpast
  exact absurd hpast (Nat.not_lt.mpr hindex)

/-- What follows from a kept state imports exactly. -/
theorem Follows.importsExact (h : Follows env s t) (hs : Kept env s) : ImportsExact env s t where
  once := h.kept.once
  rows := h.kept.rows_iff_receipt
  failed index call error hcall hphase :=
    (h.kept.calls index call hcall).unrecorded (.inl (by rw [hphase]; trivial))
  grown := h.grown
  replayed receipt hreceipt original horiginal index call hindex hcall hrepeats := by
    obtain ⟨request, hrequest, hrow⟩ := hs.receipts receipt hreceipt
    rw [List.getElem?_map, horiginal] at hrequest
    cases hrequest
    have hkey : call.request.idempotencyKey = receipt.idempotencyKey := by
      obtain ⟨receiptId, hrow⟩ := hrow
      rw [hrow]
      exact hrepeats.key
    refine ⟨?_, h.replaying receipt hreceipt _ hrow index call hindex hcall hrepeats,
      h.unrecorded hs hreceipt hindex hcall hkey, fun hlooking => ?_⟩
    · obtain ⟨receiptId, hrow⟩ := hrow
      rw [hrow]
      rfl
    · have hlookup := hrepeats.lookup_eq h.kept (h.grown.1.subset hreceipt) hrow
      simp [System.step, System.nextPhase, caller?, hcall, hlooking, hlookup]

end Runs

/-- Imports are atomic and happen once, in every run in which new rows get new identifiers. -/
theorem imports_exact (env : Environment) (seeded : List Reading) (before after : List Action)
    (s t : System) (hfresh : Guarded (System.step env) FreshIds (start seeded) (before ++ after))
    (hs : run (System.step env) (start seeded) before = some s)
    (ht : run (System.step env) s after = some t) : ImportsExact env s t := by
  obtain ⟨hbefore, hafter⟩ := hfresh.append hs
  have hkept : Kept env s := run_invariant (fun _ _ _ hu hfresh h => Kept.step hu hfresh h) hbefore
    (kept_start seeded) hs
  have hfollows : Follows env s t :=
    run_invariant (fun _ _ _ hu hfresh h => Follows.step hu hfresh h) hafter (.refl hkept) ht
  exact hfollows.importsExact hkept

/-- Whether identifiers are fresh can be checked. -/
instance (s : System) : (a : Action) → Decidable (FreshIds s a)
  | .insertRow .. => inferInstanceAs (Decidable (_ = _))
  | .call _ | .connect .. | .lookup .. | .prepare .. | .insertReceipt .. | .commit .. | .drop _ =>
    inferInstanceAs (Decidable True)

/-- An environment that reads one time, and whose `JSONB` columns give documents back as they
are. -/
def plainEnvironment : Environment where
  parseRfc3339 text :=
    if text = "2026-01-01T00:00:00Z" then
      .ok 1767225600 else .error "input contains invalid characters"
  jsonb document := document

/-- An import of one row. The bundle and the revision have the identifier of a station in them. -/
def oneRow : ImportCommit :=
  { stationId := 2, rows := [["2026-01-01T00:00:00Z", "8.5", "14", "31.2"]]
    bundleDigest := "sha256:9f:" ++ uuidText 1, planDigest := "sha256:7a", targetRevision := "r1"
    sourceResource := .string "source", targetResource := .string "target", localOwner := 7
    localPolicy := .null, sourceEvidence := .null, mapping := .array [], byteCount := 34
    failureStage := none }

/-- Another bundle for another station, with the same key. -/
def sameKey : ImportCommit :=
  { oneRow with
    stationId := 1, bundleDigest := "sha256:9f", targetRevision := uuidText 2 ++ ":r1" }

/-- A call that imports its one row, up to its commit. -/
def importing (request : ImportCommit) : List Action :=
  [.call request, .connect 0 .connected, .lookup 0 none, .prepare 0 none, .insertRow 0 10 none,
    .insertReceipt 0 11 none]

/-- A second call, up to its lookup. -/
def lookingUp (request : ImportCommit) : List Action :=
  [.call request, .connect 1 .connected, .lookup 1 none]

/-- The row is imported once, and the repeated call gets the same receipt. -/
theorem oneRow_imported_once :
    ∃ s t, run (System.step plainEnvironment) (start [])
      (importing oneRow ++ ([.commit 0 .answered] : List Action)) = some s ∧
      run (System.step plainEnvironment) s (lookingUp oneRow) = some t ∧
      ImportsExact plainEnvironment s t := by
  refine ⟨_, _, rfl, rfl, imports_exact plainEnvironment []
    (importing oneRow ++ ([.commit 0 .answered] : List Action)) (lookingUp oneRow) _ _ ?_ rfl rfl⟩
  decide

/-- A later call with the key, plan, owner, mapping and byte count of an import is a conflict, and a
call that returns an error has imported its rows. -/
theorem sameKey_conflicts :
    (sameKey.idempotencyKey = oneRow.idempotencyKey ∧ sameKey.planDigest = oneRow.planDigest ∧
      sameKey.localOwner = oneRow.localOwner ∧ sameKey.mapping = oneRow.mapping ∧
      sameKey.byteCount = oneRow.byteCount ∧
      ∃ t, run (System.step plainEnvironment) (start [])
          (importing oneRow ++ ([.commit 0 .answered] : List Action) ++ lookingUp sameKey) =
            some t ∧
        t.calls[1]?.map Call.phase = some (.failed (.conflictingReplay oneRow.idempotencyKey))) ∧
    ∃ t, run (System.step plainEnvironment) (start [])
        (importing oneRow ++ ([.commit 0 (.lost "connection closed")] : List Action)) = some t ∧
      t.calls[0]?.map Call.phase = some (.unanswered (.statement "connection closed")) ∧
      t.receipts.length = 1 ∧ t.readings.length = 1 := by
  refine ⟨⟨by decide, rfl, rfl, rfl, rfl, _, rfl, rfl⟩, _, rfl, rfl, rfl, rfl⟩

end System

end QueryFabric.Demo
