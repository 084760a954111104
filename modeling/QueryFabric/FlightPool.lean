import QueryFabric.Lib.Runs
import Mathlib.Logic.Function.Basic

/-!
# The pool of Flight channels

`FlightChannelPool` of `crates/queryfabric-flight-pool/src/lib.rs`. Any number of calls of
`get_client` and `reap_stale_connections` run side by side with calls of `remove`; a step takes one
of them to its next operation on the map, each of which is atomic, or to the end of its `connect`.

The map is a function from keys. A channel carries what it was created for, and the number of the
call that created it, which tells it from all others. `evicted` holds the channels that `remove` has
taken out of the map.

The fast path takes whatever channel the key has, and puts it back in a second step: `right_of_run`
holds in runs in which the keys are used for one endpoint each, and no channel is put back that was
evicted meanwhile.
-/

namespace QueryFabric.FlightPool

open Lib

variable {K : Type}

/-- The address of an endpoint. -/
def uri (endpoint : String) (tls : Bool) : String :=
  (if tls then "https" else "http") ++ "://" ++ endpoint

/-- The address tells the endpoint and the TLS setting. -/
theorem uri_inj {endpoint endpoint' : String} {tls tls' : Bool}
    (h : uri endpoint tls = uri endpoint' tls') :
    endpoint = endpoint' ∧ tls = tls' := by
  have hlist := congrArg String.toList h
  cases tls <;> cases tls' <;> simp [uri] at hlist ⊢ <;> exact String.toList_inj.mp hlist

/-- A channel, with the address that it was created for. -/
structure Channel where
  creator : Nat
  uri : String
deriving DecidableEq, Repr

/-- What `connect` ends with. An address that cannot be parsed makes the call panic. -/
inductive Connected
  | established
  | failed (message : String)
  | invalidUri

/-- Where a call of `get_client` is. -/
inductive Phase
  | looking
  | refreshing (channel : Channel)
  | connecting
  | inserting (channel : Channel)
  | returned (channel : Channel)
  | failed (message : String)
  | dropped
deriving DecidableEq, Repr

/-- The channel that a call has read and will put back. -/
def Phase.refreshed? : Phase → Option Channel
  | .refreshing channel => some channel
  | _ => none

/-- A call, with the channels that were evicted before it began. -/
structure Call (K : Type) where
  key : K
  endpoint : String
  tls : Bool
  evictedBefore : List Nat
  phase : Phase := .looking

/-- A call of `reap_stale_connections`: the keys that were found stale, until they are removed. -/
structure Reap (K : Type) where
  maxIdle : Nat
  stale : List K := []
  removing : Bool := false

/-- The channels of the pool with their creators, the clock and the calls and reaps under way. -/
structure Pool (K : Type) where
  channels : K → Option (Channel × Nat) := fun _ => none
  now : Nat := 0
  calls : List (Call K) := []
  reaps : List (Reap K) := []
  evicted : List Nat := []

/-- What can happen next: a call, its connection, its end, or a reap. -/
inductive Action (K : Type)
  | getClient (key : K) (endpoint : String) (tls : Bool)
  | call (index : Nat) (connected : Connected)
  | drop (index : Nat)
  | remove (key : K)
  | reap (maxIdle : Nat)
  | visit (index : Nat) (key : K)
  | reapNext (index : Nat)
  | tick (elapsed : Nat)

namespace Pool

section Step

variable [DecidableEq K]

/-- `insert`, with the time of the insertion. -/
def insert (s : Pool K) (key : K) (channel : Channel) : Pool K :=
  { s with channels := Function.update s.channels key (some (channel, s.now)) }

/-- A call goes on to its next phase. -/
def setPhase (s : Pool K) (index : Nat) (call : Call K) (phase : Phase) : Pool K :=
  { s with calls := s.calls.set index { call with phase } }

/-- The next step of a call. -/
def stepCall (s : Pool K) (index : Nat) (call : Call K) (connected : Connected) : Option (Pool K) :=
  match call.phase with
  | .looking =>
    match s.channels call.key with
    | some (channel, _) => some (s.setPhase index call (.refreshing channel))
    | none => some (s.setPhase index call .connecting)
  | .refreshing channel =>
    some ((s.insert call.key channel).setPhase index call (.returned channel))
  | .connecting =>
    match connected with
    | .established => some (s.setPhase index call (.inserting ⟨index, uri call.endpoint call.tls⟩))
    | .failed message => some (s.setPhase index call (.failed message))
    | .invalidUri => some (s.setPhase index call .dropped)
  | .inserting channel => some ((s.insert call.key channel).setPhase index call (.returned channel))
  | .returned _ | .failed _ | .dropped => none

/-- The next step of a call that reaps: the keys that were found are removed one after the other. -/
def stepReap (s : Pool K) (index : Nat) (reap : Reap K) : Option (Pool K) :=
  match reap.stale with
  | [] => none
  | key :: stale => some
    { s with
      channels := Function.update s.channels key none
      reaps := s.reaps.set index { reap with stale, removing := true } }

/-- One step of the pool. -/
def step (s : Pool K) : Action K → Option (Pool K)
  | .getClient key endpoint tls =>
    some { s with calls := s.calls ++ [{ key, endpoint, tls, evictedBefore := s.evicted }] }
  | .call index connected => (s.calls[index]?).bind fun call => s.stepCall index call connected
  -- The caller gives up while it waits for the connection.
  | .drop index => (s.calls[index]?).bind fun call =>
      match call.phase with
      | .connecting => some (s.setPhase index call .dropped)
      | _ => none
  | .remove key => some
    { s with
      channels := Function.update s.channels key none
      evicted := ((s.channels key).map fun entry => entry.1.creator).toList ++ s.evicted }
  | .reap maxIdle => some { s with reaps := s.reaps ++ [{ maxIdle }] }
  -- The reaper reads one key at a time, and removes what was stale afterwards.
  | .visit index key => (s.reaps[index]?).bind fun reap =>
      if reap.removing then none
      else
        match s.channels key with
        | some (_, lastUsed) =>
          if reap.maxIdle < s.now - lastUsed then
            some { s with reaps := s.reaps.set index { reap with stale := reap.stale ++ [key] } }
          else some s
        | none => some s
  | .reapNext index => (s.reaps[index]?).bind fun reap => s.stepReap index reap
  | .tick elapsed => some { s with now := s.now + elapsed }

end Step

/-- A call returns a channel that was created for its endpoint and its TLS setting, and that was not
evicted before the call began. -/
def Right (s : Pool K) : Prop :=
  ∀ call ∈ s.calls, ∀ channel, call.phase = .returned channel →
    channel.uri = uri call.endpoint call.tls ∧ channel.creator ∉ call.evictedBefore

/-- A call that finds a channel for its key finds one for its endpoint and its TLS setting, and no
call puts a channel back that was evicted since it was read. -/
def Orderly (s : Pool K) : Action K → Prop
  | .call index _ => ∀ call, s.calls[index]? = some call →
    (call.phase = .looking → ∀ channel lastUsed, s.channels call.key = some (channel, lastUsed) →
      channel.uri = uri call.endpoint call.tls) ∧
    ∀ channel, call.phase = .refreshing channel → channel.creator ∉ s.evicted
  | _ => True

/-- A call for the key has put the channel that it created into the map. -/
def HasReturned (s : Pool K) (key : K) (index : Nat) : Prop :=
  ∃ call channel, s.calls[index]? = some call ∧ call.key = key ∧ call.phase = .returned channel

/-- What is known of the channel of a call. -/
def Good (s : Pool K) (index : Nat) (call : Call K) : Prop :=
  match call.phase with
  | .refreshing channel => channel.uri = uri call.endpoint call.tls ∧
      channel.creator ∉ call.evictedBefore ∧
      s.HasReturned call.key channel.creator
  | .inserting channel => channel.uri = uri call.endpoint call.tls ∧ channel.creator = index
  | .returned channel => channel.uri = uri call.endpoint call.tls ∧
      channel.creator ∉ call.evictedBefore
  | _ => True

/-- What orderly runs keep: a key has a channel of a call for the key that has returned, and none
that was evicted. -/
structure Kept (s : Pool K) : Prop where
  mapped : ∀ key channel lastUsed, s.channels key = some (channel, lastUsed) →
    s.HasReturned key channel.creator ∧ channel.creator ∉ s.evicted
  evicted : ∀ creator ∈ s.evicted, ∃ key, s.HasReturned key creator
  before : ∀ (index : Nat) (call : Call K), s.calls[index]? = some call →
    call.evictedBefore ⊆ s.evicted
  good : ∀ (index : Nat) (call : Call K), s.calls[index]? = some call → s.Good index call

/-- An empty pool keeps its invariant. -/
theorem kept_start : Kept ({} : Pool K) := ⟨nofun, nofun, nofun, nofun⟩

/-- Where the pool's invariant holds, every call that returned got the channel it asked for. -/
theorem Kept.right {s : Pool K} (h : Kept s) : s.Right := by
  intro call hcall channel hphase
  obtain ⟨index, hindex⟩ := List.getElem?_of_mem hcall
  have hgood := h.good index call hindex
  rwa [Good, hphase] at hgood

/-- A call that is good stays so as channels are returned. -/
theorem Good.mono {s t : Pool K} {index : Nat} {call : Call K} (h : s.Good index call)
    (hreturned : ∀ key creator, s.HasReturned key creator → t.HasReturned key creator) :
    t.Good index call := by
  unfold Good at h ⊢
  split at h
  · exact ⟨h.1, h.2.1, hreturned _ _ h.2.2⟩
  · exact h
  · exact h
  · trivial

/-- A step that leaves the calls and the evicted channels, and puts nothing into the map. -/
theorem Kept.shrink {s t : Pool K} (h : Kept s) (hcalls : t.calls = s.calls)
    (hevicted : t.evicted = s.evicted)
    (hchannels : ∀ key entry, t.channels key = some entry → s.channels key = some entry) :
    Kept t := by
  have hreturned : ∀ key creator, s.HasReturned key creator → t.HasReturned key creator := by
    intro key creator hcreator
    rwa [HasReturned, hcalls]
  refine ⟨fun key channel lastUsed hchannel => ?_, fun creator hcreator => ?_,
    fun index call hcall => ?_,
    fun index call hcall => ?_⟩
  · obtain ⟨hcreator, hnot⟩ := h.mapped key channel lastUsed (hchannels _ _ hchannel)
    exact ⟨hreturned _ _ hcreator, by rwa [hevicted]⟩
  · obtain ⟨key, hkey⟩ := h.evicted creator (by rwa [hevicted] at hcreator)
    exact ⟨key, hreturned _ _ hkey⟩
  · rw [hevicted]
    exact h.before index call (by rwa [hcalls] at hcall)
  · exact (h.good index call (by rwa [hcalls] at hcall)).mono hreturned

/-- The channels of a key tell it from the other keys. -/
theorem HasReturned.key_inj {s : Pool K} {key key' : K} {creator : Nat}
    (h : s.HasReturned key creator) (h' : s.HasReturned key' creator) : key = key' := by
  obtain ⟨call, -, hcall, rfl, -⟩ := h
  obtain ⟨call', -, hcall', rfl, -⟩ := h'
  cases hcall.symm.trans hcall'
  rfl

/-- The phase of a call that has not returned is set. -/
theorem HasReturned.setPhase {s : Pool K} {index : Nat} {call : Call K} {phase : Phase}
    (hcall : s.calls[index]? = some call)
    (hphase : ∀ channel, call.phase ≠ .returned channel) {key : K} {creator : Nat}
    (h : s.HasReturned key creator) :
    (s.setPhase index call phase).HasReturned key creator := by
  obtain ⟨other, channel, hother, hkey, hreturned⟩ := h
  have hne : index ≠ creator := by
    rintro rfl
    cases hcall.symm.trans hother
    exact hphase channel hreturned
  exact ⟨other, channel, (List.getElem?_set_ne hne).trans hother, hkey, hreturned⟩

/-- A phase whose channel is good keeps the pool's invariant. -/
theorem Kept.setPhase {s : Pool K} {index : Nat} {call : Call K} {phase : Phase} (h : Kept s)
    (hcall : s.calls[index]? = some call) (hphase : ∀ channel, call.phase ≠ .returned channel)
    (hgood : s.Good index { call with phase }) : Kept (s.setPhase index call phase) where
  mapped key channel lastUsed hchannel := by
    obtain ⟨hreturned, hnot⟩ := h.mapped key channel lastUsed hchannel
    exact ⟨hreturned.setPhase hcall hphase, hnot⟩
  evicted creator hcreator := by
    obtain ⟨key, hkey⟩ := h.evicted creator hcreator
    exact ⟨key, hkey.setPhase hcall hphase⟩
  before other found hfound := by
    obtain ⟨-, rfl⟩ | ⟨-, hfound⟩ := getElem?_set_eq_some hfound
    · exact h.before index call hcall
    · exact h.before other found hfound
  good other found hfound := by
    refine Good.mono ?_ fun _ _ hreturned => hreturned.setPhase hcall hphase
    obtain ⟨rfl, rfl⟩ | ⟨-, hfound⟩ := getElem?_set_eq_some hfound
    · exact hgood
    · exact h.good other found hfound

/-- A call begins. -/
theorem Kept.getClient {s : Pool K} (h : Kept s) (key : K) (endpoint : String) (tls : Bool) :
    Kept { s with calls := s.calls ++ [{ key, endpoint, tls, evictedBefore := s.evicted }] } := by
  have hreturned : ∀ key' creator, s.HasReturned key' creator →
      HasReturned { s with calls := s.calls ++ [{ key, endpoint, tls, evictedBefore := s.evicted }]
                             } key' creator := by
    rintro key' creator ⟨call, channel, hcall, hparts⟩
    exact ⟨call, channel,
      (List.getElem?_append_left (List.getElem?_eq_some_iff.mp hcall).1).trans hcall, hparts⟩
  refine ⟨fun key' channel lastUsed hchannel => ?_, fun creator hcreator => ?_,
    fun index call hcall => ?_,
    fun index call hcall => ?_⟩
  · obtain ⟨hcreator, hnot⟩ := h.mapped key' channel lastUsed hchannel
    exact ⟨hreturned _ _ hcreator, hnot⟩
  · obtain ⟨key', hkey⟩ := h.evicted creator hcreator
    exact ⟨key', hreturned _ _ hkey⟩
  -- The new call has all that was evicted so far as evicted before it.
  · obtain hold | ⟨-, rfl⟩ := getElem?_concat_eq_some hcall
    · exact h.before index call hold
    · exact List.Subset.refl _
  · obtain hold | ⟨-, rfl⟩ := getElem?_concat_eq_some hcall
    · exact (h.good index call hold).mono hreturned
    · trivial

section Step

variable [DecidableEq K] {s t : Pool K}

/-- A key that is still there after one is removed is another key. -/
theorem update_none {key key' : K} {entry : Channel × Nat}
    (h : Function.update s.channels key none key' = some entry) : key' ≠ key ∧
    s.channels key' = some entry := by
  by_cases hkey : key' = key
  · rw [hkey, Function.update_self] at h
    cases h
  · exact ⟨hkey, by rwa [Function.update_of_ne hkey] at h⟩

/-- A call of `remove` evicts the channel that the key has. -/
theorem Kept.remove (h : Kept s) {key : K} (hstep : s.step (.remove key) = some t) : Kept t := by
  cases hstep
  have hevicted : ∀ creator, creator ∈ ((s.channels key).map fun entry => entry.1.creator).toList →
      s.HasReturned key creator := by
    intro creator hcreator
    simp only [Option.mem_toList, Option.map_eq_some_iff] at hcreator
    obtain ⟨⟨channel, lastUsed⟩, hchannel, rfl⟩ := hcreator
    exact (h.mapped key channel lastUsed hchannel).1
  refine ⟨fun key' channel lastUsed hchannel => ?_, fun creator hcreator => ?_,
    fun index call hcall => ?_,
    fun index call hcall => (h.good index call hcall).mono fun _ _ hreturned => hreturned⟩
  · obtain ⟨hkey, hchannel⟩ := update_none hchannel
    obtain ⟨hreturned, hnot⟩ := h.mapped key' channel lastUsed hchannel
    refine ⟨hreturned, fun hmem => ?_⟩
    obtain hmem | hmem := List.mem_append.mp hmem
    -- The evicted channel is one of another key.
    · exact hkey (hreturned.key_inj (hevicted _ hmem))
    · exact hnot hmem
  · obtain hcreator | hcreator := List.mem_append.mp hcreator
    · exact ⟨key, hevicted creator hcreator⟩
    · exact h.evicted creator hcreator
  · exact List.subset_append_of_subset_right _ (h.before index call hcall)

/-- A call puts its channel into the map and returns it. -/
theorem Kept.insert {index : Nat} {call : Call K} {channel : Channel} (h : Kept s)
    (hcall : s.calls[index]? = some call) (hphase : ∀ channel, call.phase ≠ .returned channel)
    (huri : channel.uri = uri call.endpoint call.tls)
    (hbefore : channel.creator ∉ call.evictedBefore)
    (hcreator : channel.creator = index ∨ s.HasReturned call.key channel.creator)
    (hevicted : channel.creator ∉ s.evicted) :
    Kept ((s.insert call.key channel).setPhase index call (.returned channel)) := by
  have hset : Kept (s.setPhase index call (.returned channel)) :=
    h.setPhase hcall hphase ⟨huri, hbefore⟩
  refine ⟨fun key other lastUsed hother => ?_, hset.evicted, hset.before, hset.good⟩
  by_cases hkey : key = call.key
  · -- The entry is the one that was put there.
    have hentry : (channel, s.now) = (other, lastUsed) := by
      rw [hkey] at hother
      exact Option.some_inj.mp ((Function.update_self call.key _ s.channels).symm.trans hother)
    cases hentry
    refine ⟨?_, hevicted⟩
    rw [hkey]
    -- The channel is the call's own, or one that it has read from the map.
    obtain hown | hreturned := hcreator
    · have hlength : index < s.calls.length := (List.getElem?_eq_some_iff.mp hcall).1
      rw [hown]
      exact ⟨_, channel, List.getElem?_set_self hlength, rfl, rfl⟩
    · exact hreturned.setPhase hcall hphase
  · exact hset.mapped key other lastUsed
      ((Function.update_of_ne hkey _ s.channels).symm.trans hother)

/-- The next step of a call keeps it, if it is orderly. -/
theorem Kept.call {index : Nat} {call : Call K} {connected : Connected} (h : Kept s)
    (hguard : s.Orderly (.call index connected)) (hcall : s.calls[index]? = some call)
    (hstep : s.stepCall index call connected = some t) : Kept t := by
  obtain ⟨hlook, hrefresh⟩ := hguard call hcall
  have hgood := h.good index call hcall
  unfold stepCall at hstep
  cases hphase : call.phase with
  | looking =>
    have hnot : ∀ channel, call.phase ≠ .returned channel := by simp [hphase]
    cases hchannel : s.channels call.key with
    | none =>
      simp only [hphase, hchannel, Option.some_inj] at hstep
      subst hstep
      exact h.setPhase hcall hnot trivial
    | some entry =>
      obtain ⟨channel, lastUsed⟩ := entry
      obtain ⟨hreturned, hevicted⟩ := h.mapped _ _ _ hchannel
      simp only [hphase, hchannel, Option.some_inj] at hstep
      subst hstep
      -- What is in the map was not evicted, neither before the call began nor since.
      refine h.setPhase hcall hnot
        ⟨hlook hphase channel lastUsed hchannel, fun hmem => ?_, hreturned⟩
      exact hevicted (h.before index call hcall hmem)
  | refreshing channel =>
    rw [Good, hphase] at hgood
    simp only [hphase, Option.some_inj] at hstep
    subst hstep
    exact h.insert hcall (by simp [hphase]) hgood.1 hgood.2.1 (.inr hgood.2.2)
      (hrefresh channel hphase)
  | connecting =>
    have hnot : ∀ channel, call.phase ≠ .returned channel := by simp [hphase]
    cases connected with
    | established =>
      simp only [hphase, Option.some_inj] at hstep
      subst hstep
      exact h.setPhase hcall hnot ⟨rfl, rfl⟩
    | failed message =>
      simp only [hphase, Option.some_inj] at hstep
      subst hstep
      exact h.setPhase hcall hnot trivial
    | invalidUri =>
      simp only [hphase, Option.some_inj] at hstep
      subst hstep
      exact h.setPhase hcall hnot trivial
  | inserting channel =>
    rw [Good, hphase] at hgood
    obtain ⟨huri, hown⟩ := hgood
    -- The channel is new: no other call has it, and it has never been in the map.
    have hevicted : channel.creator ∉ s.evicted := by
      intro hmem
      obtain ⟨_, other, returned, hother, -, hreturned⟩ := h.evicted _ hmem
      rw [hown] at hother
      cases hcall.symm.trans hother
      cases hphase.symm.trans hreturned
    simp only [hphase, Option.some_inj] at hstep
    subst hstep
    exact h.insert hcall (by simp [hphase]) huri
      (fun hmem => hevicted (h.before index call hcall hmem)) (.inl hown) hevicted
  | returned channel => simp [hphase] at hstep
  | failed message => simp [hphase] at hstep
  | dropped => simp [hphase] at hstep

/-- One step keeps it, if it is orderly. -/
theorem Kept.step {a : Action K} (h : Kept s) (hguard : s.Orderly a)
    (hstep : Pool.step s a = some t) : Kept t := by
  cases a with
  | getClient key endpoint tls =>
    cases hstep
    exact h.getClient key endpoint tls
  | call index connected =>
    obtain ⟨call, hcall, hstep⟩ := Option.bind_eq_some_iff.mp hstep
    exact h.call hguard hcall hstep
  | drop index =>
    obtain ⟨call, hcall, hstep⟩ := Option.bind_eq_some_iff.mp hstep
    cases hphase : call.phase with
    | connecting =>
      simp only [hphase, Option.some_inj] at hstep
      subst hstep
      exact h.setPhase hcall (by simp [hphase]) trivial
    | looking | refreshing | inserting | returned | failed | dropped => simp [hphase] at hstep
  | remove key => exact h.remove hstep
  | reap maxIdle =>
    cases hstep
    exact h.shrink rfl rfl fun _ _ hentry => hentry
  | visit index key =>
    obtain ⟨reap, -, hstep⟩ := Option.bind_eq_some_iff.mp hstep
    -- Whatever the visit finds, the map and the calls stay as they are.
    have hsame : t.calls = s.calls ∧ t.evicted = s.evicted ∧ t.channels = s.channels := by
      split at hstep
      · cases hstep
      · split at hstep
        · split at hstep <;> cases hstep <;> exact ⟨rfl, rfl, rfl⟩
        · cases hstep
          exact ⟨rfl, rfl, rfl⟩
    exact h.shrink hsame.1 hsame.2.1 fun key entry hentry => by rwa [hsame.2.2] at hentry
  | reapNext index =>
    obtain ⟨reap, -, hstep⟩ := Option.bind_eq_some_iff.mp hstep
    unfold stepReap at hstep
    cases hstale : reap.stale with
    | nil => simp [hstale] at hstep
    | cons key stale =>
      simp only [hstale, Option.some_inj] at hstep
      subst hstep
      exact h.shrink rfl rfl fun _ _ hentry => (update_none hentry).2
  | tick elapsed =>
    cases hstep
    exact h.shrink rfl rfl fun _ _ hentry => hentry

end Step

/-- In every orderly run of calls, evictions and reaps from an empty pool, calls return channels for
their endpoint and TLS setting, and none that was evicted before the call began. -/
theorem right_of_run [DecidableEq K] {actions : List (Action K)} {s : Pool K}
    (hguard : Guarded Pool.step Orderly ({} : Pool K) actions)
    (hs : run Pool.step {} actions = some s) : s.Right :=
  (run_invariant (fun _ _ _ => Kept.step) hguard kept_start hs).right

section Setting

variable (setting : K → String × Bool)

/-- Every key is used for one endpoint and TLS setting, and no call puts a channel back that was
evicted since it was read. -/
def KeepsSetting (s : Pool K) : Action K → Prop
  | .getClient key endpoint tls => setting key = (endpoint, tls)
  | .call index _ => ∀ call, s.calls[index]? = some call →
    ∀ channel, call.phase = .refreshing channel → channel.creator ∉ s.evicted
  | _ => True

/-- The calls for a key and the channel that it has are of its endpoint and TLS setting. -/
structure Settled (s : Pool K) : Prop where
  calls : ∀ call ∈ s.calls, setting call.key = (call.endpoint, call.tls)
  channels : ∀ key channel lastUsed, s.channels key = some (channel, lastUsed) →
    channel.uri = uri (setting key).1 (setting key).2

variable {setting} {s t : Pool K}

/-- An empty pool has nothing to settle. -/
theorem settled_start : Settled setting ({} : Pool K) := ⟨nofun, nofun⟩

/-- A call that finds a channel for its key finds one for its endpoint. -/
theorem Settled.orderly (h : Settled setting s) {a : Action K} (hguard : s.KeepsSetting setting a) :
    s.Orderly a := by
  cases a with
  | call index connected =>
    intro call hcall
    refine ⟨fun _ channel lastUsed hchannel => ?_, hguard call hcall⟩
    have huri := h.channels call.key channel lastUsed hchannel
    rwa [h.calls call (List.mem_of_getElem? hcall)] at huri
  | _ => trivial

/-- A step that leaves the calls, and puts nothing into the map. -/
theorem Settled.shrink (h : Settled setting s) (hcalls : t.calls = s.calls)
    (hchannels : ∀ key entry, t.channels key = some entry → s.channels key = some entry) :
    Settled setting t :=
  ⟨fun call hcall => h.calls call (by rwa [hcalls] at hcall),
    fun key channel lastUsed hchannel => h.channels key channel lastUsed (hchannels _ _ hchannel)⟩

/-- The phase of a call says nothing of its key and its endpoint. -/
theorem Settled.setPhase (h : Settled setting s) {index : Nat} {call : Call K}
    (hcall : s.calls[index]? = some call) (phase : Phase) :
    Settled setting (s.setPhase index call phase) := by
  refine ⟨fun other hother => ?_, h.channels⟩
  obtain hother | rfl := List.mem_or_eq_of_mem_set hother
  · exact h.calls other hother
  · exact h.calls call (List.mem_of_getElem? hcall)

variable [DecidableEq K]

/-- A call puts a channel of its own endpoint into the map. -/
theorem Settled.insert (h : Settled setting s) {call : Call K} (hcall : call ∈ s.calls)
    {channel : Channel} (huri : channel.uri = uri call.endpoint call.tls) :
    Settled setting (s.insert call.key channel) := by
  refine ⟨h.calls, fun key other lastUsed hother => ?_⟩
  by_cases hkey : key = call.key
  · rw [hkey] at hother ⊢
    have hentry := (Function.update_self call.key _ s.channels).symm.trans hother
    cases hentry
    rw [h.calls call hcall]
    exact huri
  · exact h.channels key other lastUsed
      ((Function.update_of_ne hkey _ s.channels).symm.trans hother)

/-- The next step of a call keeps the settings: what it puts into the map it has read there for its
key, or has created. -/
theorem Settled.call (h : Settled setting s) (hkept : Kept s) {index : Nat} {call : Call K}
    {connected : Connected} (hcall : s.calls[index]? = some call)
    (hstep : s.stepCall index call connected = some t) : Settled setting t := by
  have hmem := List.mem_of_getElem? hcall
  have hgood := hkept.good index call hcall
  unfold stepCall at hstep
  unfold Good at hgood
  split at hstep
  · split at hstep <;> cases hstep <;> exact h.setPhase hcall _
  · rename_i channel hphase
    rw [hphase] at hgood
    cases hstep
    exact (h.insert hmem hgood.1).setPhase hcall _
  · split at hstep <;> cases hstep <;> exact h.setPhase hcall _
  · rename_i channel hphase
    rw [hphase] at hgood
    cases hstep
    exact (h.insert hmem hgood.1).setPhase hcall _
  all_goals cases hstep

/-- One step keeps the settings. -/
theorem Settled.step {a : Action K} (h : Settled setting s) (hkept : Kept s)
    (hguard : s.KeepsSetting setting a) (hstep : Pool.step s a = some t) : Settled setting t := by
  -- A new call keeps to the setting of its key; the other steps add no key and no call.
  cases a with
  | getClient key endpoint tls =>
    cases hstep
    refine ⟨fun call hcall => ?_, h.channels⟩
    obtain hcall | hcall := List.mem_append.mp hcall
    · exact h.calls call hcall
    · rw [List.mem_singleton.mp hcall]
      exact hguard
  | call index connected =>
    obtain ⟨call, hcall, hstep⟩ := Option.bind_eq_some_iff.mp hstep
    exact h.call hkept hcall hstep
  | drop index =>
    obtain ⟨call, hcall, hstep⟩ := Option.bind_eq_some_iff.mp hstep
    split at hstep <;> cases hstep
    exact h.setPhase hcall _
  | remove key =>
    cases hstep
    exact h.shrink rfl fun _ _ hentry => (update_none hentry).2
  -- The reaper only ever takes channels away.
  | visit index key =>
    obtain ⟨reap, -, hstep⟩ := Option.bind_eq_some_iff.mp hstep
    repeat' split at hstep
    all_goals cases hstep
    all_goals exact h.shrink rfl fun _ _ hentry => hentry
  | reapNext index =>
    obtain ⟨reap, -, hstep⟩ := Option.bind_eq_some_iff.mp hstep
    unfold stepReap at hstep
    split at hstep <;> cases hstep
    exact h.shrink rfl fun _ _ hentry => (update_none hentry).2
  | reap | tick =>
    cases hstep
    exact h.shrink rfl fun _ _ hentry => hentry

/-- Calls return the right channels in every run that uses each key for one endpoint and TLS
setting, as long as no call puts a channel back that was evicted since it was read. -/
theorem right_of_oneSetting {actions : List (Action K)}
    (hguard : Guarded Pool.step (KeepsSetting setting) ({} : Pool K) actions)
    (hs : run Pool.step {} actions = some s) : s.Right := by
  have hkeeps : ∀ (u : Pool K) (a : Action K) (v : Pool K), Kept u ∧ Settled setting u →
      u.KeepsSetting setting a → Pool.step u a = some v → Kept v ∧ Settled setting v :=
    fun u a v h hguard hstep =>
      ⟨h.1.step (h.2.orderly hguard) hstep, h.2.step h.1 hguard hstep⟩
  exact (run_invariant hkeeps hguard ⟨kept_start, settled_start⟩ hs).1.right

end Setting

/-- Whether a step is orderly depends on one call and on the channel of its key. -/
instance decidableOrderly [DecidableEq K] (s : Pool K) : ∀ a, Decidable (s.Orderly a)
  | .call index connected =>
    decidable_of_iff (∀ call ∈ s.calls[index]?,
        (call.phase = .looking → ∀ entry ∈ s.channels call.key,
          entry.1.uri = uri call.endpoint call.tls) ∧
        ∀ channel ∈ call.phase.refreshed?, channel.creator ∉ s.evicted) <| by
      refine forall₂_congr fun call _ => and_congr (imp_congr_right fun _ => ?_) ?_
      · exact ⟨fun h channel lastUsed hentry => h (channel, lastUsed) hentry,
          fun h entry hentry => h entry.1 entry.2 hentry⟩
      · cases hphase : call.phase <;> simp [Phase.refreshed?]
  | .getClient .. | .drop _ | .remove _ | .reap _ | .visit .. | .reapNext _ | .tick _ =>
    .isTrue trivial

/-- Two calls for a key, of which the second finds the channel of the first, an eviction, and a
third call, which creates a channel of its own. -/
def reusedThenEvicted : List (Action String) :=
  [.getClient "node" "a:8815" true, .call 0 .established, .call 0 .established,
    .call 0 .established, .getClient "node" "a:8815" true, .call 1 .established,
    .call 1 .established, .remove "node", .getClient "node" "a:8815" true, .call 2 .established,
    .call 2 .established, .call 2 .established]

/-- The first two calls share a channel, and the third one does not get it. -/
theorem right_reusedThenEvicted : ∃ s, run Pool.step {} reusedThenEvicted = some s ∧ s.Right ∧
    s.calls.map Call.phase = [.returned ⟨0, "https://a:8815"⟩, .returned ⟨0, "https://a:8815"⟩,
      .returned ⟨2, "https://a:8815"⟩] := by
  have hguard : Guarded Pool.step Orderly ({} : Pool String) reusedThenEvicted := by decide +kernel
  exact ⟨_, rfl, right_of_run hguard rfl, by decide +kernel⟩

/-- A call for another endpoint, without TLS, returns the channel that the key has. -/
theorem other_endpoint_returned :
    ∃ s : Pool String, run Pool.step {}
        [.getClient "node" "a:8815" true, .call 0 .established, .call 0 .established,
          .call 0 .established,
          .getClient "node" "b:8815" false, .call 1 .established, .call 1 .established] = some s ∧
          ¬ s.Right := by
  refine ⟨_, rfl, fun h => ?_⟩
  obtain ⟨huri, -⟩ := h _ (List.mem_of_getElem? (i := 1) rfl) ⟨0, uri "a:8815" true⟩ rfl
  exact absurd (uri_inj huri).2 (by decide)

/-- A call that has read a channel puts it back after it was evicted, and a later call returns
it. -/
theorem evicted_channel_returned :
    ∃ s : Pool String, run Pool.step {}
        [.getClient "node" "a:8815" true, .call 0 .established, .call 0 .established,
          .call 0 .established,
          .getClient "node" "a:8815" true, .call 1 .established, .remove "node",
          .call 1 .established,
          .getClient "node" "a:8815" true, .call 2 .established, .call 2 .established] = some s ∧
          ¬ s.Right := by
  refine ⟨_, rfl, fun h => ?_⟩
  obtain ⟨-, hevicted⟩ := h _ (List.mem_of_getElem? (i := 2) rfl) ⟨0, uri "a:8815" true⟩ rfl
  exact hevicted (List.mem_singleton.mpr rfl)

end Pool

end QueryFabric.FlightPool
