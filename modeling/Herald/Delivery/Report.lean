import Herald.Failure

/-! What became of a delivery: its attempts one by one and the result. -/
namespace Herald

inductive Outcome
  | success
  | transientFailure (text : String)
  | permanentFailure (text : String)
  | circuitRejected
  deriving DecidableEq, Repr

def Outcome.name : Outcome → String
  | .success => "Success"
  | .transientFailure _ => "TransientFailure"
  | .permanentFailure _ => "PermanentFailure"
  | .circuitRejected => "CircuitRejected"

def Outcome.detail : Outcome → Option String
  | .transientFailure text => some text
  | .permanentFailure text => some text
  | _ => none

/-- Attempts are counted from one; `elapsed` is how long the attempt took. -/
structure Attempt where
  index : Nat
  elapsed : Nat
  outcome : Outcome
  deriving DecidableEq, Repr

structure DeliveryReport where
  host : String
  attempts : List Attempt
  result : Except Failure Unit

namespace DeliveryReport

def isSuccess (r : DeliveryReport) : Bool :=
  match r.result with
  | .ok () => true
  | .error _ => false

def tries (r : DeliveryReport) : Nat := r.attempts.countP fun a => a.outcome != .circuitRejected

def rejected (host : String) : DeliveryReport :=
  ⟨host, [⟨1, 0, .circuitRejected⟩], .error (.circuitOpen host)⟩

theorem tries_rejected (host : String) : (rejected host).tries = 0 := rfl

end DeliveryReport

end Herald
