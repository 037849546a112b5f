import Herald.Delivery.Run
import Herald.Locator
import Herald.Registry

/-! A delivery goes through its job in turns. It takes a slot of its host, is rejected if the breaker is
open, makes its attempts, and gives the slot back. A turn touches nothing but the state of its host. -/
namespace Herald

/-- What is to be delivered: to which host, with which patience, and what each attempt does. A refusal is
found before the first attempt. If there is a receiver, the end is announced. -/
structure Job where
  host : String
  receiver : Option Destination := none
  needsSlot : Bool := true
  refusal : Option Failure := none
  timeout : Nat
  cancelAfter : Option Nat := none
  delays : List Nat
  operation : Nat → Course

namespace Job

def limits (j : Job) : Limits := ⟨j.timeout, j.cancelAfter⟩

def run (j : Job) : Stretch Result := attemptsFrom j.limits j.operation j.delays 1 0

end Job

inductive Ending
  | refused (failure : Failure)
  | reported (report : DeliveryReport)
  | crashed (crash : Crash)

def Job.ending (j : Job) : Ending :=
  match j.run.result with
  | .ok result => .reported ⟨j.host, Step.attempts j.run.steps, result⟩
  | .error crash => .crashed crash

inductive Happening
  | deed (deed : Deed)
  | opened
  | over (ending : Ending)

inductive Stage
  | arriving
  | queued
  | running (due : Nat) (steps : List Step)
  | over (ending : Ending)

/-- The breaker is that of the host right after the end. -/
structure Delivery where
  job : Job
  ticket : Nat
  stage : Stage := .arriving
  asked : Nat := 0
  begun : Nat := 0
  ended : Nat := 0
  breaker : Breaker := {}

/-- What the result of an attempt tells the breaker. The deadline counts as a failure of the host. -/
def Breaker.hear (rule : Rule) (now : Nat) (b : Breaker) (result : Except Failure Unit) :
    Breaker × Option Recorded :=
  match result with
  | .ok () => (b.recordSuccess, none)
  | .error failure =>
    if failure.isRetryable || failure == .deadlineExceeded then
      let (b, recorded) := b.recordFailure rule now
      (b, some recorded)
    else (b, none)

/-- What a turn does with the steps of a run: up to the next wait, the end or a crash. -/
structure Performance where
  breaker : Breaker
  seen : List Happening
  waits : Option (Nat × List Step) := none
  crash : Option Crash := none

def Performance.after (seen : List Happening) (p : Performance) : Performance :=
  { p with seen := seen ++ p.seen }

def Step.perform (rule : Breaker.Rule) (now : Nat) : Breaker → List Step → Performance
  | b, [] => ⟨b, [], none, none⟩
  | b, .wait ms :: rest => ⟨b, [], some (ms, rest), none⟩
  | b, .act (.ended attempt result) :: rest =>
    match b.hear rule now result with
    | (b, some .overflowed) => ⟨b, [], none, some .time⟩
    | (b, some .opened) =>
      (perform rule now b rest).after [.opened, .deed (.ended attempt result)]
    | (b, _) => (perform rule now b rest).after [.deed (.ended attempt result)]
  | b, .act deed :: rest => (perform rule now b rest).after [.deed deed]

namespace Delivery

structure Progress where
  host : HostState
  delivery : Delivery
  seen : List Happening := []

def finish (d : Delivery) (now : Nat) (host : HostState) (ending : Ending) : Progress :=
  ⟨{ host with pool := host.pool.release d.ticket },
    { d with stage := .over ending, ended := now, breaker := host.breaker }, [.over ending]⟩

def goOn (d : Delivery) (rule : Breaker.Rule) (now : Nat) (host : HostState) (steps : List Step) :
    Progress :=
  let p := Step.perform rule now host.breaker steps
  let host := { host with breaker := p.breaker }
  match p.waits with
  | some (ms, rest) => ⟨host, { d with stage := .running (now + ms) rest }, p.seen⟩
  | none =>
    let finished := d.finish now host ((p.crash.map Ending.crashed).getD d.job.ending)
    { finished with seen := p.seen ++ finished.seen }

/-- Begins once the slot is there: the deadline counts from now. -/
def commence (d : Delivery) (rule : Breaker.Rule) (now : Nat) (host : HostState) : Progress :=
  let d := { d with begun := now }
  if Breaker.endOfTime ≤ now + d.job.timeout then d.finish now host (.crashed .time)
  else match d.job.refusal with
    | some failure => d.finish now host (.refused failure)
    | none =>
      if host.breaker.isOpen now then d.finish now host (.reported (.rejected d.job.host))
      else d.goOn rule now host d.job.run.steps

def arrive (d : Delivery) (rule : Breaker.Rule) (hasPools : Bool) (now : Nat) (host : HostState) :
    Progress :=
  let d := { d with asked := now }
  if !d.job.needsSlot then d.commence rule now host
  else if !hasPools then d.finish now host (.crashed .slots)
  else
    let host := { host with pool := host.pool.request d.ticket }
    if host.pool.isHeld d.ticket then d.commence rule now host
    else ⟨host, { d with stage := .queued }, []⟩

def turn (d : Delivery) (rule : Breaker.Rule) (hasPools : Bool) (now : Nat) (host : HostState) :
    Progress :=
  match d.stage with
  | .arriving => d.arrive rule hasPools now host
  | .queued => if host.pool.isHeld d.ticket then d.commence rule now host else ⟨host, d, []⟩
  | .running _ steps => d.goOn rule now host steps
  | .over _ => ⟨host, d, []⟩

/-- How many turns there are at most until the end. -/
def effort (d : Delivery) : Nat :=
  match d.stage with
  | .arriving => Step.waits d.job.run.steps + 3
  | .queued => Step.waits d.job.run.steps + 2
  | .running _ steps => Step.waits steps + 1
  | .over _ => 0

def ending? (d : Delivery) : Option Ending :=
  match d.stage with
  | .over ending => some ending
  | _ => none

def isOver (d : Delivery) : Bool := d.ending?.isSome

def isGranted (d : Delivery) (pool : SlotPool) : Bool :=
  match d.stage with
  | .queued => pool.isHeld d.ticket
  | _ => false

end Delivery

end Herald
