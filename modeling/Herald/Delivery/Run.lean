import Herald.Delivery.Course
import Herald.Delivery.Policy

/-! One run of attempts up to a success, a failure that no further attempt can mend, or the end of
patience. A run is a list of steps; all its times count from its start. -/
namespace Herald

/-- When a run is cut. Without a time of cancellation it is never cancelled. -/
structure Limits where
  deadline : Nat
  cancelAt : Option Nat := none
  deriving DecidableEq, Repr

namespace Limits

def isCancelledBy (l : Limits) (time : Nat) : Bool :=
  match l.cancelAt with
  | some c => c ≤ time
  | none => false

def stop (l : Limits) (time : Nat) : Nat := max time l.deadline

def cancelTime (l : Limits) (time : Nat) : Nat := max time (l.cancelAt.getD time)

end Limits

/-- A step of a run. A wait of no time only lets others go first. -/
inductive Step
  | wait (ms : Nat)
  | act (deed : Deed)

def Step.until (time due : Nat) : List Step := if time < due then [.wait (due - time)] else []

structure Stretch (α : Type) where
  steps : List Step
  time : Nat
  result : α

def Stretch.after {α : Type} (steps : List Step) (s : Stretch α) : Stretch α :=
  { s with steps := steps ++ s.steps }

/-- How a run or an attempt ends: some computations have no value. -/
abbrev Result := Except Crash (Except Failure Unit)

/-- A course that begins at a time, cut by the limits. What is finished at the deadline counts; what is
finished when the cancellation comes does not. -/
def Course.play (l : Limits) (time : Nat) : Course → Stretch Result
  | .done result => ⟨[], time, .ok result⟩
  | .crashed crash => ⟨[], time, .error crash⟩
  | .act deed next => (next.play l time).after [.act deed]
  | .pause 0 next => next.play l time
  | .pause (ms + 1) next =>
    let due := time + (ms + 1)
    let stop := l.stop time
    if l.isCancelledBy (min due stop) then
      ⟨Step.until time (l.cancelTime time), l.cancelTime time, .ok (.error .cancelled)⟩
    else if stop < due then ⟨Step.until time stop, stop, .ok (.error .deadlineExceeded)⟩
    else (next.play l due).after [.wait (ms + 1)]
  | .turn next =>
    if l.deadline ≤ time then ⟨[], time, .ok (.error .deadlineExceeded)⟩
    else (next.play l time).after [.wait 0]

/-- The wait for a retry, which the deadline cuts even if both come at once. -/
def Limits.rest (l : Limits) (time delay : Nat) : Stretch (Except Failure Unit) :=
  let due := time + delay
  let stop := l.stop time
  if l.isCancelledBy (min due stop) then
    ⟨Step.until time (l.cancelTime time), l.cancelTime time, .error .cancelled⟩
  else if l.deadline ≤ due then ⟨Step.until time stop, stop, .error .deadlineExceeded⟩
  else ⟨Step.until time due, due, .ok ()⟩

def Outcome.of : Except Failure Unit → Outcome
  | .ok () => .success
  | .error failure =>
    if failure.isRetryable then .transientFailure failure.message
    else .permanentFailure failure.message

def Course.attempt (l : Limits) (index time : Nat) (course : Course) : Stretch Result :=
  let tried : Stretch Result :=
    if l.isCancelledBy time then ⟨[], time, .ok (.error .cancelled)⟩
    else (course.play l time).after [.act .started]
  let ended := match tried.result with
    | .ok result => [.act (.ended ⟨index, tried.time - time, .of result⟩ result)]
    | .error _ => []
  ⟨.act .called :: tried.steps ++ ended, tried.time, tried.result⟩

def Stretch.retry (tried : Stretch Result) (again : Failure → Nat → Stretch Result) :
    Stretch Result :=
  match tried.result with
  | .ok (.error failure) =>
    if failure.isRetryable then (again failure tried.time).after tried.steps else tried
  | _ => tried

/-- The attempts from a number and a time on. The delays are those before the retries. -/
def attemptsFrom (l : Limits) (operation : Nat → Course) : List Nat → Nat → Nat → Stretch Result
  | [], index, time =>
    ((operation index).attempt l index time).retry fun failure time =>
      ⟨[], time, .ok (.error failure)⟩
  | delay :: delays, index, time =>
    ((operation index).attempt l index time).retry fun _ time =>
      let rested := l.rest time delay
      match rested.result with
      | .ok () => (attemptsFrom l operation delays (index + 1) rested.time).after rested.steps
      | .error failure => ⟨rested.steps, rested.time, .ok (.error failure)⟩

def Step.attempts (steps : List Step) : List Attempt :=
  steps.filterMap fun s =>
    match s with
    | .act (.ended attempt _) => some attempt
    | _ => none

def Step.timed : Nat → List Step → List (Nat × Deed)
  | _, [] => []
  | time, .wait ms :: rest => timed (time + ms) rest
  | time, .act deed :: rest => (time, deed) :: timed time rest

def Step.calls (steps : List Step) : List Nat :=
  (timed 0 steps).filterMap fun e =>
    match e.2 with
    | .called => some e.1
    | _ => none

def Step.waits (steps : List Step) : Nat :=
  steps.countP fun s =>
    match s with
    | .wait _ => true
    | .act _ => false

theorem Step.attempts_append (a b : List Step) : attempts (a ++ b) = attempts a ++ attempts b := by
  simp [attempts]

end Herald
