import Mathlib.Data.List.AList

/-!
# Circuit breakers

The circuit breaker that the health monitor keeps for each cluster, `CircuitState` of
`crates/queryfabric-cluster/src/health_monitor.rs`. Instants and durations are counted in
nanoseconds of the monotonic clock, and every reading of the clock is an argument.
-/

namespace QueryFabric.Cluster

/-- `Health`. -/
inductive Health
  | healthy
  | degraded
  | unreachable
  | unknown
deriving DecidableEq, Repr

/-- `CircuitConfig`. -/
structure CircuitConfig where
  openThreshold : UInt32
  cooldown : Nat
deriving DecidableEq, Repr

/-- `CircuitPhase`. -/
inductive CircuitPhase
  | closed
  | open_
  | halfOpen
deriving DecidableEq, Repr

/-- `CircuitState`. -/
structure CircuitState where
  phase : CircuitPhase := .closed
  consecutiveFailures : UInt32 := 0
  openedAt : Option Nat := none
deriving DecidableEq, Repr

namespace CircuitState

/-- `should_skip_probe`. -/
def shouldSkipProbe (circuit : CircuitState) (config : CircuitConfig) (now : Nat) : Bool :=
  match circuit.phase with
  | .closed | .halfOpen => false
  | .open_ =>
    match circuit.openedAt with
    | some opened => now - opened < config.cooldown
    | none => false

/-- `maybe_transition_to_half_open`. -/
def maybeTransitionToHalfOpen (circuit : CircuitState) (config : CircuitConfig) (now : Nat) :
    CircuitState :=
  match circuit.phase, circuit.openedAt with
  | .open_, some opened =>
    if config.cooldown ≤ now - opened then { circuit with phase := .halfOpen } else circuit
  | _, _ => circuit

/-- `record_success`. -/
def recordSuccess (_circuit : CircuitState) : CircuitState :=
  { consecutiveFailures := 0, openedAt := none, phase := .closed }

/-- `record_failure`. -/
def recordFailure (circuit : CircuitState) (config : CircuitConfig) (now : Nat) : CircuitState :=
  let circuit := { circuit with consecutiveFailures := circuit.consecutiveFailures + 1 }
  if config.openThreshold ≤ circuit.consecutiveFailures then
    { circuit with phase := .open_, openedAt := some now }
  else circuit

end CircuitState

/-- The circuits of the clusters. -/
abbrev Circuits (C : Type) := AList fun _ : C => CircuitState

/-- The health of the clusters. -/
abbrev HealthCache (C : Type) := AList fun _ : C => Health

/-- `entry(cluster_id).or_default()`. -/
def Circuits.get {C : Type} [DecidableEq C] (circuits : Circuits C) (clusterId : C) :
    CircuitState :=
  (circuits.lookup clusterId).getD {}

end QueryFabric.Cluster
