import Herald.Delivery.Basic

/-! Deliveries side by side. The turn that is due first comes next; time passes only between turns. Of
turns that are due at once, either those of earlier deliveries or those that were asked for earlier come
first. -/
namespace Herald

/-- Turns in their order: by time, then by round, then by number. -/
structure Turn where
  due : Nat
  round : Nat
  number : Nat
  deriving DecidableEq, Repr

def Turn.precedes (a b : Turn) : Bool :=
  a.due < b.due || a.due == b.due &&
    (a.round < b.round || a.round == b.round && a.number < b.number)

/-- Which of several turns that are due at once comes first. -/
inductive Fairness
  | byPlace
  | byArrival
  deriving DecidableEq, Repr

/-- A turn of the delivery at a place, asked for during another turn. By place, the deliveries take turns
in rounds; by arrival, turns are numbered as they are asked for. -/
def Fairness.turn (fairness : Fairness) (current : Turn) (count place due : Nat) : Turn :=
  match fairness with
  | .byArrival => ⟨due, count, 0⟩
  | .byPlace =>
    let number := place + 1
    if current.due < due then ⟨due, 0, number⟩
    else if current.number < number then ⟨current.due, current.round, number⟩
    else ⟨current.due, current.round + 1, number⟩

structure Entry where
  time : Nat
  place : Nat
  what : Happening

/-- All deliveries, the turns to come with their places, and what happened so far, the last first. -/
structure Floor where
  registry : Registry
  fairness : Fairness := .byArrival
  deliveries : List Delivery := []
  agenda : List (Turn × Nat) := []
  now : Nat := 0
  current : Turn := ⟨0, 0, 0⟩
  count : Nat := 0
  tickets : Nat := 0
  log : List Entry := []

namespace Floor

def schedule (f : Floor) (place due : Nat) : Floor :=
  { f with
    agenda := (f.fairness.turn f.current f.count place due, place) :: f.agenda
    count := f.count + 1 }

def add (f : Floor) (job : Job) : Floor :=
  let d : Delivery := { job := job, ticket := f.tickets }
  ({ f with deliveries := f.deliveries ++ [d], tickets := f.tickets + 1 }).schedule
    f.deliveries.length f.now

def addAll (f : Floor) (jobs : List Job) : Floor := jobs.foldl add f

def granted? (f : Floor) (key : String) : Option Nat :=
  let pool := (f.registry.host key).pool
  f.deliveries.zipIdx.findSome? fun (d, place) =>
    if d.job.host == key && d.isGranted pool && !f.agenda.any (·.2 == place) then some place
    else none

def wake (f : Floor) (key : String) : Floor :=
  match f.granted? key with
  | some place => f.schedule place f.now
  | none => f

def first? : List (Turn × Nat) → Option (Turn × Nat)
  | [] => none
  | e :: rest =>
    match first? rest with
    | none => some e
    | some other => if other.1.precedes e.1 then some other else some e

def take (f : Floor) (turn : Turn) (place : Nat) : Floor :=
  let now := max f.now turn.due
  let f := { f with now := now, current := { turn with due := now },
                    agenda := f.agenda.filter (·.2 != place) }
  match f.deliveries[place]? with
  | none => f
  | some d =>
    let key := d.job.host
    let p := d.turn f.registry.rule f.registry.hasPools now (f.registry.host key)
    let f := { f with registry := f.registry.setHost key p.host,
                      deliveries := f.deliveries.set place p.delivery,
                      log := (p.seen.map (Entry.mk now place)).reverse ++ f.log }
    let f := match p.delivery.stage with
      | .running due _ => f.schedule place due
      | _ => f
    f.wake key

def playFor (goOn : Floor → Turn → Bool) : Nat → Floor → Floor
  | 0, f => f
  | n + 1, f =>
    match first? f.agenda with
    | none => f
    | some (turn, place) => if goOn f turn then playFor goOn n (f.take turn place) else f

def effort (f : Floor) : Nat := f.deliveries.foldr (fun d rest => d.effort + rest) 0

def playWhile (f : Floor) (goOn : Floor → Turn → Bool) : Floor := playFor goOn f.effort f

def playUntilOver (f : Floor) (place count : Nat) : Floor :=
  f.playWhile fun f _ => ((f.deliveries.drop place).countP Delivery.isOver) < count

def passUntil (f : Floor) (time : Nat) : Floor :=
  let f := f.playWhile fun _ turn => turn.due ≤ time
  { f with now := max f.now time }

/-- Asks for a slot of a host without a delivery; the number names the request. -/
def ask (f : Floor) (key : String) : Floor × Nat :=
  let state := f.registry.host key
  ({ f with registry := f.registry.setHost key { state with pool := state.pool.request f.tickets },
            tickets := f.tickets + 1 }, f.tickets)

def giveUp (f : Floor) (key : String) (ticket : Nat) : Floor :=
  let state := f.registry.host key
  let pool := if state.pool.isHeld ticket then state.pool.release ticket
    else state.pool.abandon ticket
  ({ f with registry := f.registry.setHost key { state with pool := pool } }).wake key

def since (f : Floor) (length : Nat) : List Entry := (f.log.take (f.log.length - length)).reverse

end Floor

end Herald
