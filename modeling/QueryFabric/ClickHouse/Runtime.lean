import QueryFabric.Adapter
import QueryFabric.Lib.Runs

/-!
# The ClickHouse runtime

`ClickHouseRuntime` of `crates/queryfabric-adapter-clickhouse/src/runtime.rs`: `execute` emits the
statement of a query and hands it to a transport, and the stream that it returns polls the
cancellation token and the transport until the transport ends.

The transport is what each poll of its stream gives. Which of two futures `select` takes when both
are ready is a parameter; the runtime relies on the first one. A poll takes effect when it looks at
the token. Polling a stream that has ended is no step, since an unfolded stream panics then.

After the cancellation every poll gives the error once more, and the stream does not end: what it
gives is proper just when it is polled at most once after the cancellation, `proper_iff`.
-/

namespace QueryFabric.ClickHouse

open Lib

/-- `ExecutionRuntimeMode`. -/
inductive ExecutionRuntimeMode
  | interactive
  | batch
  | isolated
  | federated
deriving DecidableEq, Repr

/-- The errors of a runtime that this one returns. -/
inductive RuntimeError
  | notImplemented
  | cancelled
  | adapter (message : String)
deriving DecidableEq, Repr

/-- The `Display` text of an error. -/
def displayError : QueryFabricError → String
  | .parse message => "Parse error: " ++ message
  | .bind message _ _ _ => "Bind error: " ++ message
  | .unsupportedFeature feature _ => "Unsupported feature: " ++ feature

/-- `Poll`. -/
inductive Poll (α : Type)
  | pending
  | ready (value : α)
deriving DecidableEq, Repr

/-- The result that a poll gives, if it gives one. -/
def Poll.result? {α : Type} : Poll (Option α) → Option α
  | .ready result => result
  | .pending => none

/-- A stream of the transport: what its polls give, one after the other. -/
abbrev TransportStream (Batch : Type) := Nat → Poll (Option (Except String Batch))

/-- `ClickHouseRuntime`, with the stream of the transport. -/
structure ClickHouseRuntime (Batch : Type) where
  queryArrowStream : String → TransportStream Batch
  catalog : Catalog
  sqlTransform : Option (SqlArtifact → String)

/-- `execute`, up to the stream of the transport that the returned one is unfolded from. -/
def ClickHouseRuntime.execute {Batch : Type} (runtime : ClickHouseRuntime Batch) (plan : BoundQuery)
    (mode : ExecutionRuntimeMode) (cancelled : Bool) :
    Except RuntimeError (TransportStream Batch) :=
  if mode ≠ .interactive then .error .notImplemented
  else if cancelled then .error .cancelled
  else
    match ClickHouseAdapter.emit plan runtime.catalog with
    | .error error =>
      .error
        (.adapter ("emit ClickHouse SQL artifact from bound query plan: " ++ displayError error))
    | .ok artifact =>
      let sql := match runtime.sqlTransform with
        | some transform => transform artifact
        | none => artifact.text
      .ok (runtime.queryArrowStream sql)

/-- `execute` returns a stream just when it is called interactively, before the cancellation, for a
query that is emitted. -/
theorem ClickHouseRuntime.execute_isOk_iff {Batch : Type} (runtime : ClickHouseRuntime Batch)
    (plan : BoundQuery) (mode : ExecutionRuntimeMode) (cancelled : Bool) :
    (∃ batches, runtime.execute plan mode cancelled = .ok batches) ↔
      mode = .interactive ∧ cancelled = false ∧
      ∃ artifact, ClickHouseAdapter.emit plan runtime.catalog = .ok artifact := by
  unfold execute
  by_cases hmode : mode = .interactive
  · cases cancelled with
    | true => simp [hmode]
    | false => cases ClickHouseAdapter.emit plan runtime.catalog <;> simp [hmode]
  · simp [hmode]

/-! ## The stream -/

/-- What the stream gives. -/
inductive Item (Batch : Type)
  | batch (batch : Batch)
  | error (error : RuntimeError)
  | ended
deriving DecidableEq, Repr

/-- Which of the two futures is taken when both are ready. -/
inductive Side
  | left
  | right
deriving DecidableEq, Repr

/-- `select` of the token and the next batch. -/
def selectNext {β : Type} (pick : Side) (cancelled : Bool) (next : Poll β) : Poll (Unit ⊕ β) :=
  match cancelled, next with
  | false, .pending => .pending
  | false, .ready value => .ready (.inr value)
  | true, .pending => .ready (.inl ())
  | true, .ready value =>
    match pick with
    | .left => .ready (.inl ())
    | .right => .ready (.inr value)

/-- A result of the transport as an item. -/
def resultItem {Batch : Type} : Except String Batch → Item Batch
  | .ok batch => .batch batch
  | .error message =>
    .error (.adapter ("stream ClickHouse Arrow batches for emitted SQL: " ++ message))

/-- What a caller of the stream does. -/
inductive Action
  | cancel
  | poll
deriving DecidableEq, Repr

/-- The stream: whether the token is cancelled and whether the stream has ended, how often it has
polled the transport, what it has given, and what of that it has given to polls after the
cancellation. -/
structure BatchStream (Batch : Type) where
  cancelled : Bool := false
  ended : Bool := false
  polled : Nat := 0
  items : List (Item Batch) := []
  late : List (Item Batch) := []

namespace BatchStream

section Step

variable {Batch : Type} (pick : Nat → Side) (batches : TransportStream Batch)

/-- The stream gives an item. -/
def give (s : BatchStream Batch) (item : Item Batch) : BatchStream Batch :=
  { s with items := s.items ++ [item], late := if s.cancelled then s.late ++ [item] else s.late }

/-- A step of the stream, if it can be taken. -/
def step (s : BatchStream Batch) : Action → Option (BatchStream Batch)
  | .cancel => some { s with cancelled := true }
  | .poll =>
    -- An unfolded stream that has ended panics when it is polled.
    if s.ended then none
    else
      match selectNext (pick s.polled) s.cancelled (batches s.polled) with
      | .pending => some { s with polled := s.polled + 1 }
      -- The state is the one that the poll was called with, so that the stream goes on.
      | .ready (.inl ()) => some (s.give (.error .cancelled))
      | .ready (.inr none) => some { s.give .ended with polled := s.polled + 1, ended := true }
      | .ready (.inr (some result)) =>
        some { s.give (resultItem result) with polled := s.polled + 1 }

end Step

variable {Batch : Type} {pick : Nat → Side} {batches : TransportStream Batch}

/-- The results of the first polls of the transport. -/
def results (batches : TransportStream Batch) (polls : Nat) : List (Except String Batch) :=
  (List.range polls).filterMap fun index => (batches index).result?

/-- What was given are results of the transport, from the first on, and then the end of the stream,
or one error of the cancellation and then the end. -/
def Proper (batches : TransportStream Batch) (s : BatchStream Batch) : Prop :=
  ∃ delivered, delivered <+: results batches s.polled ∧
    (s.items <+: delivered.map resultItem ++ ([.ended] : List (Item Batch)) ∨
      s.items <+: delivered.map resultItem ++ ([.error .cancelled, .ended] : List (Item Batch)))

/-- No poll after the cancellation has given a batch. -/
def NoLateBatch (s : BatchStream Batch) : Prop := ∀ batch, .batch batch ∉ s.late

/-- The polls after a cancellation. -/
def latePolls : Bool → List Action → Nat
  | _, [] => 0
  | _, .cancel :: actions => latePolls true actions
  | true, .poll :: actions => latePolls true actions + 1
  | false, .poll :: actions => latePolls false actions

/-- The results after one poll more. -/
theorem results_succ (polls : Nat) :
    results batches (polls + 1) = results batches polls ++ (batches polls).result?.toList := by
  rw [results, List.range_succ, List.filterMap_append, results]
  cases hresult : (batches polls).result? <;> simp [hresult]

/-- What the runs keep: the results come first, then the errors of the polls after the cancellation,
or the end. -/
structure Kept (batches : TransportStream Batch) (s : BatchStream Batch) : Prop where
  items : s.items = (results batches s.polled).map resultItem ++ s.late ++ if s.ended then
    [.ended] else []
  late : s.late = List.replicate s.late.length (.error .cancelled)
  before : s.cancelled = false → s.late = []
  ended : s.ended = true → s.late = []

/-- Nothing was delivered at the start. -/
theorem kept_start : Kept batches {} := ⟨rfl, rfl, fun _ => rfl, nofun⟩

/-- A cancellation changes nothing that was given. -/
theorem Kept.cancel {s : BatchStream Batch} (h : Kept batches s) :
    Kept batches { s with cancelled := true } :=
  ⟨h.items, h.late, nofun, h.ended⟩

/-- A poll after the cancellation gives the error. -/
theorem Kept.poll_cancelled {s : BatchStream Batch} (h : Kept batches s)
    (hcancelled : s.cancelled = true)
    (hended : s.ended = false) : Kept batches (s.give (.error .cancelled)) where
  items := by
    simp only [give, hcancelled, hended, if_true, Bool.false_eq_true, if_false, List.append_nil]
    rw [h.items, hended, if_neg Bool.false_ne_true, List.append_nil, List.append_assoc]
  late := by
    simp only [give, hcancelled, if_true, List.length_append, List.length_singleton]
    rw [List.replicate_succ', ← h.late]
  before hbefore := absurd (hcancelled.symm.trans hbefore) nofun
  ended h' := absurd (hended.symm.trans h') nofun

/-- A poll before the cancellation gives what the transport gives. -/
theorem Kept.poll {s t : BatchStream Batch} (h : Kept batches s) (hcancelled : s.cancelled = false)
    (hended : s.ended = false) (hstep : BatchStream.step pick batches s .poll = some t) :
    Kept batches t ∧ t.cancelled = false ∧ t.late = [] := by
  have hlate : s.late = [] := h.before hcancelled
  have hitems : s.items = (results batches s.polled).map resultItem := by
    rw [h.items, hlate, hended, if_neg Bool.false_ne_true, List.append_nil, List.append_nil]
  have hsucc : results batches (s.polled + 1) = results batches s.polled ++
      (batches s.polled).result?.toList :=
    results_succ s.polled
  rw [BatchStream.step, hended, if_neg Bool.false_ne_true, hcancelled] at hstep
  -- Before the cancellation only the transport is ready.
  cases hnext : batches s.polled with
  | pending =>
    simp only [hnext, selectNext, Option.some_inj] at hstep
    subst hstep
    refine ⟨⟨?_, h.late, fun _ => hlate, fun _ => hlate⟩, rfl, hlate⟩
    simp [hsucc, hnext, Poll.result?, hitems, hlate]
  | ready result =>
    cases result with
    | none =>
      simp only [hnext, selectNext, Option.some_inj] at hstep
      subst hstep
      refine ⟨⟨?_, ?_, fun _ => ?_, fun _ => ?_⟩, hcancelled, ?_⟩ <;>
        simp [give, hsucc, hnext, Poll.result?, hitems, hlate, hcancelled]
    | some result =>
      simp only [hnext, selectNext, Option.some_inj] at hstep
      subst hstep
      refine ⟨⟨?_, ?_, fun _ => ?_, fun _ => ?_⟩, hcancelled, ?_⟩ <;>
        simp [give, hsucc, hnext, Poll.result?, hitems, hlate, hcancelled, hended]

/-- One step keeps it, and each poll after the cancellation gives one item. -/
theorem Kept.step (hpick : ∀ n, pick n = .left) {s t : BatchStream Batch} {a : Action}
    (h : Kept batches s) (hstep : BatchStream.step pick batches s a = some t) :
    Kept batches t ∧ ∀ actions, t.late.length + latePolls t.cancelled actions =
      s.late.length + latePolls s.cancelled (a :: actions) := by
  -- A cancellation changes the flag only; a poll is before it or after it.
  cases a with
  | cancel =>
    cases hstep
    refine ⟨h.cancel, fun actions => ?_⟩
    cases s.cancelled <;> rfl
  | poll =>
    -- A stream that has ended is not polled.
    have hended : s.ended = false := by
      by_contra hended
      rw [BatchStream.step, if_pos (by simpa using hended)] at hstep
      cases hstep
    cases hcancelled : s.cancelled with
    | false =>
      obtain ⟨hkept, hbefore, hlate⟩ := h.poll hcancelled hended hstep
      refine ⟨hkept, fun actions => ?_⟩
      rw [hbefore, hlate, h.before hcancelled, latePolls]
    | true =>
      -- `select` is biased to its first branch, so after a cancellation a poll gives the error.
      have hgive : t = s.give (.error .cancelled) := by
        rw [BatchStream.step, hended, if_neg Bool.false_ne_true, hcancelled] at hstep
        cases hnext : batches s.polled <;>
          simp only [hnext, selectNext, hpick, Option.some_inj] at hstep <;> exact hstep.symm
      subst hgive
      refine ⟨h.poll_cancelled hcancelled hended, fun actions => ?_⟩
      simp only [give, hcancelled, if_true, List.length_append, List.length_singleton, latePolls]
      omega

/-- What a run keeps. -/
theorem kept_of_run (hpick : ∀ n, pick n = .left) :
    ∀ {actions : List Action} {s t : BatchStream Batch},
    Kept batches s → run (BatchStream.step pick batches) s actions = some t →
      Kept batches t ∧ t.late.length = s.late.length + latePolls s.cancelled actions
  | [], s, t, h, ht => by
    cases ht
    exact ⟨h, rfl⟩
  | a :: actions, s, t, h, ht => by
    obtain ⟨u, hu, hrun⟩ := run_cons ht
    obtain ⟨hkept, hlate⟩ := h.step hpick hu
    obtain ⟨hkept', hlate'⟩ := kept_of_run hpick hkept hrun
    exact ⟨hkept', hlate'.trans (hlate actions)⟩

/-- Whether an item is the error of the cancellation. -/
def isCancelled : Item Batch → Bool
  | .error .cancelled => true
  | _ => false

/-- No result of the transport is a cancellation. -/
theorem countP_results (delivered : List (Except String Batch)) :
    (delivered.map resultItem).countP isCancelled = 0 := by
  rw [List.countP_eq_zero]
  intro item hitem
  obtain ⟨result, -, rfl⟩ := List.mem_map.mp hitem
  cases result <;> simp [resultItem, isCancelled]

/-- What is proper has the error of the cancellation once at most. -/
theorem Proper.countP_le {s : BatchStream Batch} (h : Proper batches s) :
    s.items.countP isCancelled ≤ 1 := by
  obtain ⟨delivered, -, hitems | hitems⟩ := h
  · have hle := hitems.sublist.countP_le (p := isCancelled)
    rw [List.countP_append, countP_results] at hle
    exact hle.trans (Nat.zero_le 1)
  · have hle := hitems.sublist.countP_le (p := isCancelled)
    rw [List.countP_append, countP_results] at hle
    exact hle.trans (Nat.le_refl 1)

/-- What the polls after the cancellation give, in what was given. -/
theorem Kept.countP_eq {s : BatchStream Batch} (h : Kept batches s) :
    s.items.countP isCancelled = s.late.length := by
  rw [h.items, List.countP_append, List.countP_append, countP_results, h.late,
    List.countP_replicate]
  cases s.ended <;> simp [isCancelled]

/-- With one poll after the cancellation, or none, what was given is proper. -/
theorem Kept.proper {s : BatchStream Batch} (h : Kept batches s) (hlate : s.late.length ≤ 1) :
    Proper batches s := by
  refine ⟨results batches s.polled, List.prefix_rfl, ?_⟩
  rw [h.items]
  -- Without an error nothing but the end comes after the results. With one the stream has not
  -- ended.
  obtain hnone | hone := Nat.le_one_iff_eq_zero_or_eq_one.mp hlate
  · rw [List.length_eq_zero_iff.mp hnone, List.append_nil]
    refine .inl ((List.prefix_append_right_inj _).mpr ?_)
    cases s.ended <;> simp
  · have hrunning : s.ended = false := by
      by_contra hended
      rw [h.ended (by simpa using hended)] at hone
      cases hone
    rw [h.late, hone, hrunning, if_neg Bool.false_ne_true, List.append_nil]
    exact .inr ((List.prefix_append_right_inj _).mpr (by simp))

/-- A kept stream gives no late batch. -/
theorem Kept.noLateBatch {s : BatchStream Batch} (h : Kept batches s) : NoLateBatch s := by
  intro batch hbatch
  rw [h.late] at hbatch
  cases List.eq_of_mem_replicate hbatch

/-- What the stream gives in a run is proper, and it gives no batch to a poll after the
cancellation, just when it is polled at most once after the cancellation. -/
theorem proper_iff {Batch : Type} (pick : Nat → Side) (hpick : ∀ n, pick n = .left)
    (batches : TransportStream Batch) (actions : List Action) (s : BatchStream Batch)
    (hs : run (BatchStream.step pick batches) {} actions = some s) :
    Proper batches s ∧ NoLateBatch s ↔ latePolls false actions ≤ 1 := by
  obtain ⟨hkept, hlate⟩ := kept_of_run hpick kept_start hs
  have hpolls : s.late.length = latePolls false actions := by simpa using hlate
  rw [← hpolls]
  constructor
  · rintro ⟨hproper, -⟩
    have hcount := hproper.countP_le
    rwa [hkept.countP_eq] at hcount
  · exact fun hle => ⟨hkept.proper hle, hkept.noLateBatch⟩

/-- A transport that gives two batches and ends. -/
def twoBatches : TransportStream Nat
  | 0 => .ready (some (.ok 0))
  | 1 => .ready (some (.ok 1))
  | _ => .ready none

/-- A stream that is cancelled after the first batch and polled once more ends with the error. -/
theorem proper_twoBatches :
    ∃ s, run (BatchStream.step (fun _ => .left) twoBatches) {} [.poll, .cancel, .poll] = some s ∧
      s.items = [.batch 0, .error .cancelled] ∧ Proper twoBatches s ∧ NoLateBatch s :=
  ⟨{ cancelled := true, polled := 1, items := [.batch 0, .error .cancelled]
     late := [.error .cancelled] }, rfl, rfl,
    (proper_iff (fun _ => .left) (fun _ => rfl) twoBatches [.poll, .cancel, .poll] _ rfl).mpr
      (by decide)⟩

/-- A stream that is cancelled after the first batch and polled twice gives the error twice, and
does not end. -/
theorem cancelled_twice :
    ∃ s, run (BatchStream.step (fun _ => .left) twoBatches) {}
      [.poll, .cancel, .poll, .poll] = some s ∧
      s.items = [.batch 0, .error .cancelled, .error .cancelled] ∧ ¬ Proper twoBatches s := by
  refine ⟨{ cancelled := true, polled := 1,
            items := [.batch 0, .error .cancelled, .error .cancelled],
            late := [.error .cancelled, .error .cancelled] }, rfl, rfl, fun h => ?_⟩
  have hcount := h.countP_le
  exact absurd hcount (by decide)

end BatchStream

end QueryFabric.ClickHouse
