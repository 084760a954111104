import QueryFabric.K8s.Driver

/-!
# Whether a Job is left behind

The watcher deletes the Job of an execution that is cancelled, and the stream that `spawn` returns
deletes it when it ends or is dropped. Between the creation of the Job and the return of the stream
there are many errors, and on none of them is anything deleted: the Job stays unless the token is
cancelled. `jobs_deleted_iff` says that a run leaves no Job behind just when every one of these
errors comes to an execution whose token is cancelled, and whose Job it knows of.
-/

namespace QueryFabric.K8s

open Lib

/-- The stream that `spawn` returned is over. -/
def Phase.isOver : Phase → Bool
  | .ended | .dropped => true
  | _ => false

namespace System

/-- The execution has issued a request to delete its Job. -/
def Issued (s : System) (index : Nat) (execution : Execution) : Prop :=
  ∃ request ∈ s.deletes, request.execution = index ∧ request.name = jobNameFor execution.spec

/-- A task of the execution is about to issue such a request. -/
def Due (s : System) (execution : Execution) : Prop :=
  execution.cleanup = true ∨ (execution.watcher = true ∧ s.isCancelled execution = true)

/-- `spawn` has returned an error, the stream is over, or the execution is cancelled. -/
def Finished (s : System) (execution : Execution) : Prop :=
  (∃ error, execution.phase = .failed error) ∨ execution.phase.isOver = true ∨
    s.isCancelled execution = true

/-- The Job of every execution that is finished has been asked to be deleted, or is about to be. -/
def NothingLeft (s : System) : Prop :=
  ∀ (index : Nat) (execution : Execution), s.executions[index]? = some execution →
    execution.created = true → s.Finished execution → s.Issued index execution ∨ s.Due execution

/-- Nothing is left behind after the step. -/
def LeavesNothing (driver : Driver) (s : System) (a : Action) : Prop :=
  ∀ t, s.step driver a = some t → t.NothingLeft

/-- An error other than `Cancelled`, after the Job was created, comes only to an execution that
knows of its Job and is cancelled. -/
def FailsOnlyCancelled (driver : Driver) (s : System) (a : Action) : Prop :=
  ∀ (index : Nat) (execution : Execution), actor? a = some index →
    s.executions[index]? = some execution → s.fails driver execution a = true →
      execution.created = true ∧ s.isCancelled execution = true

/-- A task that is about to issue a request can do so. -/
theorem exists_step_of_due {driver : Driver} {s : System} {index : Nat} {execution : Execution}
    (hexecution : s.executions[index]? = some execution) (hdue : s.Due execution) :
    ∃ a t, s.step driver a = some t ∧ t.Issued index execution := by
  have hlast (new : Execution) :
    ((s.put index new).delete index (jobNameFor execution.spec) true).Issued
      index execution := ⟨_, List.mem_append_right _ (List.mem_singleton.mpr rfl), rfl, rfl⟩
  rcases hdue with hcleanup | ⟨hwatcher, hcancelled⟩
  · refine ⟨.cleanup index true, _, ?_, hlast { execution with cleanup := false }⟩
    simp [System.step, actor?, hexecution, stepOf, hcleanup]
  · refine ⟨.watch index true, _, ?_, hlast { execution with watcher := false }⟩
    simp [System.step, actor?, hexecution, stepOf, hwatcher, hcancelled]

/-- What holds of an execution between the steps of a run whose errors come only to cancelled
executions. -/
structure Tidy (s : System) (index : Nat) (execution : Execution) : Prop where
  watched : execution.created = true → execution.watcher = true ∨ s.Issued index execution
  cleaned : execution.phase.isOver = true → execution.cleanup = true ∨ s.Issued index execution
  failed : execution.created = true → ∀ error, execution.phase = .failed error →
    s.isCancelled execution = true
  fresh : execution.phase = .creating → execution.created = false
  created : execution.phase.isConnecting = true ∨ execution.phase = .streaming ∨
    execution.phase.isOver = true → execution.created = true
  watcher : execution.watcher = true → execution.created = true
  scheduled : execution.cleanup = true → execution.phase.isOver = true
  issued : ∀ request ∈ s.deletes, request.execution = index →
    (execution.created = true ∧ s.isCancelled execution = true) ∨ execution.phase.isOver = true

/-- The same, for every execution; no request is of an execution that is yet to come. -/
structure AllTidy (s : System) : Prop where
  tidy : ∀ (index : Nat) (execution : Execution), s.executions[index]? = some execution →
    s.Tidy index execution
  past : ∀ request ∈ s.deletes, request.execution < s.executions.length

/-- At the start there is nothing to tidy. -/
theorem allTidy_start : AllTidy start where
  tidy _ _ h := by cases h
  past _ h := absurd h List.not_mem_nil

section Steps

variable {driver : Driver} {s t : System} {a : Action}

/-- A finished execution that is tidy leaves no job of its own. -/
theorem Tidy.leaves {index : Nat} {execution : Execution} (h : s.Tidy index execution)
    (hcreated : execution.created = true) (hfinished : s.Finished execution) :
    s.Issued index execution ∨ s.Due execution := by
  -- An execution that has failed is cancelled, and the watcher sees to cancelled ones.
  have hcancelled (hc : s.isCancelled execution = true) : s.Issued index execution ∨
      s.Due execution := by
    rcases h.watched hcreated with hwatcher | hissued
    · exact .inr (.inr ⟨hwatcher, hc⟩)
    · exact .inl hissued
  rcases hfinished with ⟨error, hfailed⟩ | hover | hc
  · exact hcancelled (h.failed hcreated error hfailed)
  · rcases h.cleaned hover with hcleanup | hissued
    · exact .inr (.inl hcleanup)
    · exact .inl hissued
  · exact hcancelled hc

/-- Where every execution is tidy nothing is left behind. -/
theorem AllTidy.nothingLeft (hs : AllTidy s) : s.NothingLeft :=
  fun index execution hexecution hcreated hfinished =>
    (hs.tidy index execution hexecution).leaves hcreated hfinished

/-- An execution that does not take the step is as tidy as before. -/
theorem Tidy.mono {index : Nat} {execution : Execution} (h : s.Tidy index execution)
    (hdeletes : ∀ request ∈ s.deletes, request ∈ t.deletes)
    (hown : ∀ request ∈ t.deletes, request.execution = index → request ∈ s.deletes)
    (hcancelled : s.isCancelled execution = true → t.isCancelled execution = true) :
    t.Tidy index execution := by
  have hissued : s.Issued index execution → t.Issued index execution :=
    fun ⟨request, hrequest, hindex, hname⟩ => ⟨request, hdeletes request hrequest, hindex, hname⟩
  refine ⟨fun hc => (h.watched hc).imp_right hissued, fun ho => (h.cleaned ho).imp_right hissued,
    fun hc error hf => hcancelled (h.failed hc error hf), h.fresh, h.created, h.watcher,
      h.scheduled, ?_⟩
  intro request hrequest hindex
  rcases h.issued request (hown request hrequest hindex) hindex with ⟨hc, hk⟩ | ho
  · exact .inl ⟨hc, hcancelled hk⟩
  · exact .inr ho

/-- An execution goes on by itself and issues no request. -/
theorem AllTidy.put (hs : AllTidy s) {index : Nat} {new : Execution} {jobs : List Job}
    {connections : List (Nat × Pod)} (hnew : s.Tidy index new) :
    AllTidy ({ s with jobs, connections }.put index new) := by
  refine ⟨fun other execution hexecution => ?_, fun request hrequest => ?_⟩
  · rcases executions_put hexecution with ⟨rfl, rfl⟩ | ⟨-, hold⟩
    · exact hnew.mono (fun _ h => h) (fun _ h _ => h) fun h => h
    · exact (hs.tidy other execution hold).mono (fun _ h => h) (fun _ h _ => h) fun h => h
  · simpa [System.put] using hs.past request hrequest

/-- An execution issues a request. -/
theorem AllTidy.delete (hs : AllTidy s) {index : Nat} {execution new : Execution} (delivered : Bool)
    (hexecution : s.executions[index]? = some execution)
    (hnew : ((s.put index new).delete index (jobNameFor execution.spec) delivered).Tidy index new) :
    AllTidy ((s.put index new).delete index (jobNameFor execution.spec) delivered) := by
  refine ⟨fun other found hfound => ?_, fun request hrequest => ?_⟩
  · rcases executions_put hfound with ⟨rfl, rfl⟩ | ⟨hne, hold⟩
    · exact hnew
    · refine (hs.tidy other found hold).mono (fun _ h => List.mem_append_left _ h) ?_ fun h => h
      intro request hrequest hindex
      simp only [System.delete, System.put, List.mem_append, List.mem_singleton] at hrequest
      rcases hrequest with hrequest | rfl
      · exact hrequest
      · exact absurd hindex.symm hne
  · have hlength : index < s.executions.length := (List.getElem?_eq_some_iff.mp hexecution).1
    simp only [System.delete, System.put, List.mem_append, List.mem_singleton] at hrequest ⊢
    rw [List.length_set]
    rcases hrequest with hrequest | rfl
    · exact hs.past request hrequest
    · exact hlength

/-- An execution that connects is not over. -/
theorem not_isOver_of_isConnecting {phase : Phase} (h : phase.isConnecting = true) :
    phase.isOver = false := by
  cases phase <;> first | rfl | cases h

/-- An execution that is connecting goes to another phase. -/
theorem Tidy.setPhase {index : Nat} {execution : Execution} (h : s.Tidy index execution)
    (hfrom : execution.phase.isConnecting = true) {phase : Phase} (hover : phase.isOver = false)
    (hcreating : phase ≠ .creating)
    (hfailed : ∀ error, phase = .failed error → s.isCancelled execution = true) :
    s.Tidy index { execution with phase } := by
  have hnotOver := not_isOver_of_isConnecting hfrom
  have hcreated := h.created (.inl hfrom)
  refine ⟨h.watched, fun ho => ?_, fun _ error herror => hfailed error herror,
    fun hphase => absurd hphase hcreating, fun _ => hcreated, h.watcher, fun hcleanup => ?_, ?_⟩
  · cases hover.symm.trans ho
  · cases hnotOver.symm.trans (h.scheduled hcleanup)
  · intro request hrequest hindex
    rcases h.issued request hrequest hindex with hcancelled | ho
    · exact .inl hcancelled
    · cases hnotOver.symm.trans ho

/-- An execution that is creating its Job has issued nothing and has no tasks. -/
theorem Tidy.of_creating {index : Nat} {execution : Execution} (h : s.Tidy index execution)
    (hphase : execution.phase = .creating) :
    execution.watcher = false ∧ execution.cleanup = false ∧
      ∀ request ∈ s.deletes, request.execution ≠ index := by
  have hfresh := h.fresh hphase
  have hover : execution.phase.isOver = false := by rw [hphase]; rfl
  refine ⟨?_, ?_, fun request hrequest hindex => ?_⟩
  · by_contra hwatcher
    rw [h.watcher (by simpa using hwatcher)] at hfresh
    cases hfresh
  · by_contra hcleanup
    cases hover.symm.trans (h.scheduled (by simpa using hcleanup))
  · rcases h.issued request hrequest hindex with ⟨hcreated, -⟩ | ho
    · cases hfresh.symm.trans hcreated
    · cases hover.symm.trans ho

/-- The execution has issued a request, as one of its tasks that was due. -/
theorem Tidy.delete {index : Nat} {execution new : Execution} (h : s.Tidy index execution)
    (delivered : Bool) (hspec : new.spec = execution.spec) (htoken : new.token = execution.token)
    (hphase : new.phase = execution.phase) (hcreated : new.created = execution.created)
    (hwatcher : new.watcher = true → execution.watcher = true)
    (hcleanup : new.cleanup = true → execution.cleanup = true)
    (hdue : (execution.created = true ∧ s.isCancelled execution = true) ∨
      execution.phase.isOver = true) :
    ((s.put index new).delete index (jobNameFor execution.spec) delivered).Tidy index new := by
  -- The request that is sent stands at the end of the list.
  have hissued :
      ((s.put index new).delete index (jobNameFor execution.spec) delivered).Issued index new :=
    ⟨_, List.mem_append_right _ (List.mem_singleton.mpr rfl), rfl, by rw [hspec]⟩
  have hcancelled :
    ((s.put index new).delete index (jobNameFor execution.spec) delivered).isCancelled
      new = s.isCancelled execution := by simp only [isCancelled, System.delete, System.put, htoken]
  refine ⟨fun _ => .inr hissued, fun _ => .inr hissued, ?_, ?_, ?_, ?_, ?_, ?_⟩
  · rw [hcreated, hphase, hcancelled]
    exact h.failed
  · rw [hcreated, hphase]
    exact h.fresh
  · rw [hcreated, hphase]
    exact h.created
  · rw [hcreated]
    exact fun hw => h.watcher (hwatcher hw)
  · rw [hphase]
    exact fun hc => h.scheduled (hcleanup hc)
  · rw [hcreated, hphase, hcancelled]
    -- It is due by the hypothesis; the earlier ones were due before.
    intro request hrequest hindex
    simp only [System.delete, System.put, List.mem_append, List.mem_singleton] at hrequest
    rcases hrequest with hrequest | rfl
    · exact h.issued request hrequest hindex
    · exact hdue

/-- A guarded step keeps every execution tidy. -/
theorem AllTidy.step (hs : AllTidy s) (hguard : FailsOnlyCancelled driver s a)
    (h : s.step driver a = some t) : AllTidy t := by
  cases step_effect h with
  | spawned spec token phase hphase =>
    refine ⟨fun index execution hexecution => ?_, fun request hrequest => ?_⟩
    · rw [List.getElem?_append] at hexecution
      split at hexecution
      · exact (hs.tidy index execution hexecution).mono (fun _ h => h) (fun _ h _ => h) fun h => h
      · rename_i hindex
        obtain rfl := List.mem_singleton.mp (List.mem_of_getElem? hexecution)
        refine ⟨fun h => ?_, fun ho => ?_, fun h => ?_, fun _ => rfl, fun hc => ?_, fun h => ?_,
          fun h => ?_, ?_⟩
        · cases h
        · rcases hphase with rfl | ⟨error, rfl⟩ <;> cases ho
        · cases h
        · rcases hphase with rfl | ⟨error, rfl⟩ <;> simp [Phase.isConnecting, Phase.isOver] at hc
        · cases h
        · cases h
        · intro request hrequest heq
          exact absurd (hs.past request hrequest) (heq ▸ hindex)
    · rw [List.length_append]
      exact Nat.lt_add_right _ (hs.past request hrequest)
  | cancelled token =>
    refine ⟨fun index execution hexecution => ?_, hs.past⟩
    refine (hs.tidy index execution hexecution).mono (fun _ h => h) (fun _ h _ => h) fun h => ?_
    simp only [isCancelled, List.contains_cons, Bool.or_eq_true] at h ⊢
    exact .inr h
  | cluster jobs pods =>
    exact ⟨fun index execution hexecution =>
      (hs.tidy index execution hexecution).mono (fun _ h => h) (fun _ h _ => h) fun h => h, hs.past⟩
  | created index execution haction hexecution hphase hfree =>
    obtain ⟨-, hcleanup, hnone⟩ := (hs.tidy index execution hexecution).of_creating hphase
    refine hs.put ⟨fun _ => .inl rfl, fun h => ?_, fun _ _ h => ?_, fun h => ?_, fun _ => rfl,
      fun _ => rfl, fun h => ?_, ?_⟩
    · cases h
    · cases h
    · cases h
    · cases hcleanup.symm.trans h
    · exact fun request hrequest hindex => absurd hindex (hnone request hrequest)
  | refused index execution error haction hexecution hphase =>
    have htidy := hs.tidy index execution hexecution
    obtain ⟨hwatcher, hcleanup, hnone⟩ := htidy.of_creating hphase
    have hfresh := htidy.fresh hphase
    refine hs.put ⟨fun h => ?_, fun h => ?_, fun h => ?_, fun _ => hfresh, ?_, fun h => ?_,
      fun h => ?_, ?_⟩
    · cases hfresh.symm.trans h
    · cases h
    · cases hfresh.symm.trans h
    · simp [createError, Phase.isConnecting, Phase.isOver]
    · cases hwatcher.symm.trans h
    · cases hcleanup.symm.trans h
    · exact fun request hrequest hindex => absurd hindex (hnone request hrequest)
  | lost index execution error haction hexecution hphase hfree =>
    -- The error comes to an execution that does not know of its Job.
    subst haction
    have hfails : s.fails driver execution (.create index (.unanswered error)) = true := by
      simp only [fails, hphase, hfree, Option.isNone_none]
    have hcreated := (hguard index execution rfl hexecution hfails).1
    cases ((hs.tidy index execution hexecution).fresh hphase).symm.trans hcreated
  | moved index execution phase hactor hexecution hfrom hto hfails =>
    refine hs.put ((hs.tidy index execution hexecution).setPhase hfrom ?_ ?_ fun error herror => ?_)
    · rcases hto with hto | rfl
      · exact not_isOver_of_isConnecting hto
      · rfl
    · rintro rfl
      simp [Phase.isConnecting] at hto
    · subst herror
      simp [Phase.isConnecting] at hto
  | connected index execution pod endpoint hactor hexecution hphase hpod hfails =>
    refine hs.put
      ((hs.tidy index execution hexecution).setPhase (by rw [hphase]; rfl) rfl (fun h => ?_)
      fun _ h => ?_)
    · cases h
    · cases h
  | aborted index execution error hactor hexecution hfrom hcause =>
    refine hs.put
      ((hs.tidy index execution hexecution).setPhase hfrom rfl (fun h => ?_) fun _ _ => ?_)
    · cases h
    · rcases hcause with hcancelled | hfails
      · exact hcancelled
      · exact (hguard index execution hactor hexecution hfails).2
  | ended index execution phase hactor hexecution hphase hto hfails =>
    have htidy := hs.tidy index execution hexecution
    have hover : phase.isOver = true := by rcases hto with rfl | rfl <;> rfl
    refine hs.put ⟨htidy.watched, fun _ => .inl rfl, fun _ error herror => ?_, fun h => ?_,
      fun _ => htidy.created (.inr (.inl hphase)), htidy.watcher, fun _ => hover,
        fun _ _ _ => .inr hover⟩
    · rcases hto with rfl | rfl <;> cases herror
    · rcases hto with rfl | rfl <;> cases h
  | dropped index execution hactor hexecution hphase hfails =>
    have htidy := hs.tidy index execution hexecution
    have hover : execution.phase.isOver = true := by rw [hphase]; rfl
    refine hs.put ⟨htidy.watched, fun _ => htidy.cleaned hover, fun _ _ h => ?_, fun h => ?_,
      fun _ => htidy.created (.inr (.inr hover)), htidy.watcher, fun _ => rfl,
        fun _ _ _ => .inr rfl⟩
    · cases h
    · cases h
  | watched index execution delivered hactor hexecution hwatcher hcancelled hfails =>
    have htidy := hs.tidy index execution hexecution
    refine hs.delete delivered hexecution (htidy.delete delivered rfl rfl rfl rfl (fun h => ?_) id
      (.inl ⟨htidy.watcher hwatcher, hcancelled⟩))
    cases h
  | cleaned index execution delivered hactor hexecution hcleanup hfails =>
    have htidy := hs.tidy index execution hexecution
    refine hs.delete delivered hexecution (htidy.delete delivered rfl rfl rfl rfl id (fun h => ?_)
      (.inr (htidy.scheduled hcleanup)))
    cases h

/-- An error that the execution can come to is a step. -/
theorem exists_step_of_fails {index : Nat} {execution : Execution} (hactor : actor? a = some index)
    (hexecution : s.executions[index]? = some execution)
    (hfails : s.fails driver execution a = true) :
    ∃ t, s.step driver a = some t := by
  have hstep : s.step driver a = s.stepOf driver index execution a := by
    cases a <;> cases hactor <;> simp [System.step, actor?, hexecution]
  rw [hstep]
  unfold fails at hfails
  unfold stepOf
  split at hfails <;> simp_all [System.create, System.doGet]

/-- A step of a tidy run leaves nothing behind just when its errors come only to cancelled
executions. -/
theorem AllTidy.leavesNothing_iff (hs : AllTidy s) :
    LeavesNothing driver s a ↔ FailsOnlyCancelled driver s a := by
  constructor
  · intro hleaves index execution hactor hexecution hfails
    have htidy := hs.tidy index execution hexecution
    obtain ⟨t, ht⟩ := exists_step_of_fails hactor hexecution hfails
    -- The step is one of the errors, and the execution that it comes to is the one that fails.
    have hsame {i : Nat} {e : Execution} (hi : actor? a = some i) (he : s.executions[i]? = some e) :
        i = index ∧ e = execution := by
      cases hi.symm.trans hactor
      cases he.symm.trans hexecution
      exact ⟨rfl, rfl⟩
    have hnot {i : Nat} {e : Execution} (hi : actor? a = some i) (he : s.executions[i]? = some e)
        (hf : s.fails driver e a = false) : False := by
      obtain ⟨rfl, rfl⟩ := hsame hi he
      cases hf.symm.trans hfails
    cases step_effect ht with
    | spawned _ _ _ _ hnone => cases hnone.symm.trans hactor
    | cancelled _ hnone => cases hnone.symm.trans hactor
    | cluster _ _ _ _ hnone => cases hnone.symm.trans hactor
    | created i e haction he hphase =>
      subst haction
      exact (hnot rfl he rfl).elim
    | refused i e error haction he hphase =>
      subst haction
      exact (hnot rfl he rfl).elim
    | lost i e error haction he hphase =>
      subst haction
      obtain ⟨rfl, rfl⟩ := hsame rfl he
      obtain ⟨hwatcher, hcleanup, hnone⟩ := htidy.of_creating hphase
      have hleft := hleaves _ ht i _ (getElem?_put he _) rfl (.inl ⟨_, rfl⟩)
      rcases hleft with ⟨request, hrequest, hindex, -⟩ | hdue | ⟨hdue, -⟩
      · exact absurd hindex (hnone request hrequest)
      · cases hcleanup.symm.trans hdue
      · cases hwatcher.symm.trans hdue
    | moved i e _ hi he _ _ hf => exact (hnot hi he hf).elim
    | connected i e _ _ hi he _ _ hf => exact (hnot hi he hf).elim
    | aborted i e error hi he hfrom =>
      obtain ⟨rfl, rfl⟩ := hsame hi he
      have hcreated := htidy.created (.inl hfrom)
      have hover := not_isOver_of_isConnecting hfrom
      refine ⟨hcreated, ?_⟩
      have hleft := hleaves _ ht i _ (getElem?_put he _) hcreated (.inl ⟨error, rfl⟩)
      rcases hleft with ⟨request, hrequest, hindex, -⟩ | hdue | ⟨-, hcancelled⟩
      · rcases htidy.issued request hrequest hindex with ⟨-, hcancelled⟩ | ho
        · exact hcancelled
        · cases hover.symm.trans ho
      · cases hover.symm.trans (htidy.scheduled hdue)
      · exact hcancelled
    | ended i e _ hi he _ _ hf => exact (hnot hi he hf).elim
    | dropped i e hi he _ hf => exact (hnot hi he hf).elim
    | watched i e _ hi he _ _ hf => exact (hnot hi he hf).elim
    | cleaned i e _ hi he _ hf => exact (hnot hi he hf).elim
  · intro hguard t ht
    exact (hs.step hguard ht).nothingLeft

end Steps

/-- A run leaves no Job behind just when the errors that are not `Cancelled`, after the creation of
a Job, come only to executions that know of their Job and are cancelled. -/
theorem jobs_deleted_iff (driver : Driver) (actions : List Action) :
    Guarded (System.step driver) (LeavesNothing driver) start actions ↔
      Guarded (System.step driver) (FailsOnlyCancelled driver) start actions :=
  guarded_congr (fun _ _ _ hs hguard h => AllTidy.step hs hguard h)
    (fun _ _ hs => hs.leavesNothing_iff) actions allTidy_start

/-- The time of an execution runs out before its pod is ready. -/
def timedOut : List Action := [.spawn selectOneSpec 1, .create 0 .answered]

/-- The run that ends in a timeout is not guarded. -/
theorem timedOut_leaves_job :
    ¬Guarded (System.step plainDriver)
      (LeavesNothing plainDriver) start (timedOut ++ [.poll 0 true]) := by
  intro h
  obtain ⟨s, hs⟩ : ∃ s, run (System.step plainDriver) start timedOut = some s := ⟨_, rfl⟩
  obtain ⟨-, hlast, -⟩ := h.append hs
  cases hs
  have hleft := hlast _ rfl 0 _ rfl rfl (.inl ⟨.timeout, rfl⟩)
  rcases hleft with ⟨request, hrequest, -⟩ | hdue | ⟨-, hcancelled⟩
  · cases hrequest
  · cases hdue
  · cases hcancelled

end System

end QueryFabric.K8s
