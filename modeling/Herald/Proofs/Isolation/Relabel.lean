import Herald.Delivery.Floor
import Mathlib.Data.List.Basic
import Mathlib.Logic.Function.Basic

/-! Tickets are only names. If all tickets of a host are named anew, each by a name of its own, its pool and
its deliveries do the same as before under their new names. -/
namespace Herald

def SlotPool.relabel (label : Nat → Nat) (p : SlotPool) : SlotPool :=
  ⟨p.available, p.held.map label, p.waiting.map label⟩

def HostState.relabel (label : Nat → Nat) (s : HostState) : HostState :=
  { s with pool := s.pool.relabel label }

def Delivery.relabel (label : Nat → Nat) (d : Delivery) : Delivery :=
  { d with ticket := label d.ticket }

def Delivery.Progress.relabel (label : Nat → Nat) (p : Progress) : Progress :=
  ⟨p.host.relabel label, p.delivery.relabel label, p.seen⟩

@[simp] theorem HostState.available_relabel (label : Nat → Nat) (s : HostState) :
    (s.relabel label).pool.available = s.pool.available := rfl

@[simp] theorem HostState.breaker_relabel (label : Nat → Nat) (s : HostState) :
    (s.relabel label).breaker = s.breaker := rfl

variable {label : Nat → Nat} (distinct : Function.Injective label)

namespace SlotPool

theorem request_relabel (label : Nat → Nat) (p : SlotPool) (ticket : Nat) :
    (p.relabel label).request (label ticket) = (p.request ticket).relabel label := by
  simp only [request, relabel]
  by_cases free : 0 < p.available
  · simp [free]
  · simp [free]

include distinct

theorem isHeld_relabel (p : SlotPool) (ticket : Nat) :
    (p.relabel label).isHeld (label ticket) = p.isHeld ticket := by
  simp only [isHeld, relabel]
  rw [Bool.eq_iff_iff]
  simp [distinct.eq_iff]

theorem release_relabel (p : SlotPool) (ticket : Nat) :
    (p.relabel label).release (label ticket) = (p.release ticket).relabel label := by
  have held : label ticket ∈ p.held.map label ↔ ticket ∈ p.held := List.mem_map_of_injective distinct
  have erased : (p.held.map label).erase (label ticket) = (p.held.erase ticket).map label :=
    (List.map_erase distinct p.held).symm
  simp only [release, relabel, held]
  split
  · cases p.waiting with
    | nil => simp [erased]
    | cons first rest => simp [erased]
  · rfl

end SlotPool

namespace Delivery

include distinct

theorem finish_relabel (d : Delivery) (now : Nat) (host : HostState) (ending : Ending) :
    (d.relabel label).finish now (host.relabel label) ending =
      (d.finish now host ending).relabel label := by
  simp only [finish, relabel, HostState.relabel, Progress.relabel,
    SlotPool.release_relabel distinct]

theorem goOn_relabel (d : Delivery) (rule : Breaker.Rule) (now : Nat) (host : HostState)
    (steps : List Step) :
    (d.relabel label).goOn rule now (host.relabel label) steps =
      (d.goOn rule now host steps).relabel label := by
  simp only [goOn, HostState.breaker_relabel]
  split
  · rfl
  · have ends := finish_relabel distinct d now
      { host with breaker := (Step.perform rule now host.breaker steps).breaker }
      (((Step.perform rule now host.breaker steps).crash.map Ending.crashed).getD d.job.ending)
    simp only [HostState.relabel] at ends ⊢
    rw [show (d.relabel label).job = d.job from rfl, ends]
    rfl

theorem commence_relabel (d : Delivery) (rule : Breaker.Rule) (now : Nat) (host : HostState) :
    (d.relabel label).commence rule now (host.relabel label) =
      (d.commence rule now host).relabel label := by
  have ends (ending : Ending) := finish_relabel distinct { d with begun := now } now host ending
  have goes := goOn_relabel distinct { d with begun := now } rule now host d.job.run.steps
  have job : (d.relabel label).job = d.job := rfl
  simp only [commence, job, HostState.breaker_relabel]
  by_cases late : Breaker.endOfTime ≤ now + d.job.timeout
  · simp only [late, if_true]
    exact ends _
  · simp only [late, if_false]
    cases d.job.refusal with
    | some failure => exact ends _
    | none =>
      cases host.breaker.isOpen now with
      | true => exact ends _
      | false => exact goes

theorem arrive_relabel (d : Delivery) (rule : Breaker.Rule) (hasPools : Bool) (now : Nat)
    (host : HostState) :
    (d.relabel label).arrive rule hasPools now (host.relabel label) =
      (d.arrive rule hasPools now host).relabel label := by
  have begins := commence_relabel distinct { d with asked := now } rule now
  have job : (d.relabel label).job = d.job := rfl
  have pool : (host.relabel label).pool.request (d.relabel label).ticket =
      (host.pool.request d.ticket).relabel label := SlotPool.request_relabel label host.pool d.ticket
  have held : ((host.pool.request d.ticket).relabel label).isHeld (d.relabel label).ticket =
      (host.pool.request d.ticket).isHeld d.ticket := SlotPool.isHeld_relabel distinct _ _
  simp only [arrive, job, pool, held]
  cases d.job.needsSlot with
  | false => exact begins host
  | true =>
    cases hasPools with
    | false => exact finish_relabel distinct { d with asked := now } now host _
    | true =>
      cases (host.pool.request d.ticket).isHeld d.ticket with
      | false => rfl
      | true => exact begins { host with pool := host.pool.request d.ticket }

theorem turn_relabel (d : Delivery) (rule : Breaker.Rule) (hasPools : Bool) (now : Nat)
    (host : HostState) :
    (d.relabel label).turn rule hasPools now (host.relabel label) =
      (d.turn rule hasPools now host).relabel label := by
  have same : (d.relabel label).stage = d.stage := rfl
  simp only [turn, same]
  cases stage : d.stage with
  | arriving => exact arrive_relabel distinct d rule hasPools now host
  | queued =>
    have held : (host.relabel label).pool.isHeld (d.relabel label).ticket =
        host.pool.isHeld d.ticket := SlotPool.isHeld_relabel distinct _ _
    simp only [held]
    cases host.pool.isHeld d.ticket with
    | false => rfl
    | true => exact commence_relabel distinct d rule now host
  | running due steps => exact goOn_relabel distinct d rule now host steps
  | _ => rfl

theorem isGranted_relabel (d : Delivery) (pool : SlotPool) :
    (d.relabel label).isGranted (pool.relabel label) = d.isGranted pool := by
  have held : (pool.relabel label).isHeld (d.relabel label).ticket = pool.isHeld d.ticket :=
    SlotPool.isHeld_relabel distinct _ _
  have same : (d.relabel label).stage = d.stage := rfl
  simp only [isGranted, same, held]

end Delivery

end Herald
