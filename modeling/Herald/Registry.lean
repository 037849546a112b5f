import Herald.Breaker
import Herald.Crash
import Herald.KeyMap
import Herald.SlotPool

/-! The state of all hosts: a pool of slots and a breaker each, made when a host is first used. -/
namespace Herald

structure HostState where
  pool : SlotPool
  breaker : Breaker := {}
  deriving DecidableEq, Repr

/-- How many slots each host has, when breakers open, and the hosts that were used. -/
structure Registry where
  slots : Nat
  rule : Breaker.Rule
  hosts : KeyMap String HostState := {}

namespace Registry

def unused (r : Registry) : HostState := { pool := .ofSize r.slots }

def host (r : Registry) (key : String) : HostState := r.hosts.get key r.unused

def setHost (r : Registry) (key : String) (state : HostState) : Registry :=
  { r with hosts := r.hosts.set key state }

def hasPools (r : Registry) : Bool := r.slots ≤ SlotPool.maxSlots

def available (r : Registry) (key : String) : Except Crash Nat :=
  if r.hasPools then .ok (r.host key).pool.available else .error .slots

def recordFailure (r : Registry) (key : String) (now : Nat) : Registry × Breaker.Recorded :=
  let state := r.host key
  let (breaker, recorded) := state.breaker.recordFailure r.rule now
  (r.setHost key { state with breaker := breaker }, recorded)

def recordSuccess (r : Registry) (key : String) : Registry :=
  let state := r.host key
  r.setHost key { state with breaker := state.breaker.recordSuccess }

@[simp] theorem host_setHost_self (r : Registry) (key : String) (state : HostState) :
    (r.setHost key state).host key = state := by
  simp [host, setHost]

theorem host_setHost_other (r : Registry) {key other : String} (ne : other ≠ key)
    (state : HostState) : (r.setHost key state).host other = r.host other := by
  simp [host, setHost, unused, KeyMap.get_set_other _ ne]

@[simp] theorem setHost_setHost (r : Registry) (key : String) (state later : HostState) :
    (r.setHost key state).setHost key later = r.setHost key later := by
  simp [setHost]

end Registry

end Herald
