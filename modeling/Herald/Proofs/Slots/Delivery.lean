import Herald.Proofs.Delivery.Turn
import Herald.Proofs.Slots.History

/-! A delivery and the pool of its host. The ticket of a delivery is in the pool just from its request to
its end, and holds a slot while the delivery runs; every turn keeps it so, by operations with this ticket
alone. -/
namespace Herald

open SlotPool

def Stage.isUnderway : Stage → Bool
  | .arriving => false
  | .queued => true
  | .running .. => true
  | .over _ => false

def Stage.isRunning : Stage → Bool
  | .running .. => true
  | _ => false

namespace Delivery

def occupies (d : Delivery) (pool : SlotPool) : Bool :=
  d.job.needsSlot && (d.stage.isRunning || d.isGranted pool)

/-- A delivery is in the pool of its host while it is under way, and holds its slot while it runs. -/
structure Fits (d : Delivery) (pool : SlotPool) : Prop where
  has : pool.Has d.ticket ↔ d.job.needsSlot = true ∧ d.stage.isUnderway = true
  holds : d.job.needsSlot = true → d.stage.isRunning = true → d.ticket ∈ pool.held

theorem Fits.held {d : Delivery} {pool : SlotPool} (fits : d.Fits pool)
    (occupies : d.occupies pool = true) : d.ticket ∈ pool.held := by
  obtain ⟨needs, at_⟩ := Bool.and_eq_true_iff.1 occupies
  rcases Bool.or_eq_true_iff.1 at_ with running | granted
  · exact fits.holds needs running
  · unfold isGranted at granted
    split at granted
    · simpa [isHeld] using granted
    · cases granted

structure Operates (d : Delivery) (pool next : SlotPool) (ops : List Op) : Prop where
  pool : next = pool.applyAll ops
  own : ∀ op ∈ ops, op.ticket = d.ticket
  asks : ops.flatMap Op.asks = [] ∨ (ops.flatMap Op.asks = [d.ticket] ∧ d.stage = .arriving)

structure Turned (d : Delivery) (pool : SlotPool) (p : Progress) : Prop where
  ticket : p.delivery.ticket = d.ticket
  job : p.delivery.job = d.job
  begun : p.delivery.stage ≠ .arriving
  fits : p.delivery.Fits p.host.pool
  operates : ∃ ops, d.Operates pool p.host.pool ops

variable {d : Delivery} {pool start : SlotPool} {p : Progress}

theorem Operates.nil (d : Delivery) (pool : SlotPool) : d.Operates pool pool [] :=
  ⟨rfl, by simp, .inl rfl⟩

theorem Operates.release {ops : List Op} (operates : d.Operates start pool ops) :
    d.Operates start (pool.release d.ticket) (ops ++ [.release d.ticket]) := by
  obtain ⟨rfl, own, asks⟩ := operates
  refine ⟨by rw [applyAll_append]; rfl, ?_, by simpa [Op.asks] using asks⟩
  intro op mem
  rcases List.mem_append.1 mem with mem | mem
  · exact own op mem
  · rw [List.mem_singleton.1 mem]
    rfl

theorem turned_of_over {ops : List Op} {ending : Ending} (operates : d.Operates start pool ops)
    (once : pool.held.Nodup) (apart : d.ticket ∉ pool.waiting)
    (ticket : p.delivery.ticket = d.ticket) (job : p.delivery.job = d.job)
    (stage : p.delivery.stage = .over ending) (released : p.host.pool = pool.release d.ticket) :
    d.Turned start p := by
  refine ⟨ticket, job, by simp [stage], ⟨?_, ?_⟩, _, released ▸ operates.release⟩
  · rw [ticket, released, stage]
    simp [not_has_release once apart, Stage.isUnderway]
  · rw [stage]
    intro _ running
    cases running

theorem turned_of_proceeds {ops : List Op} (operates : d.Operates start pool ops)
    (once : pool.held.Nodup) (apart : d.ticket ∉ pool.waiting)
    (slot : d.ticket ∈ pool.held ↔ d.job.needsSlot = true) (proceeds : d.Proceeds pool p) :
    d.Turned start p := by
  obtain ⟨ticket, job, ⟨⟨due, steps, stage⟩, same⟩ | ⟨⟨ending, stage⟩, released⟩⟩ := proceeds
  · refine ⟨ticket, job, by simp [stage], ⟨?_, ?_⟩, ops, same ▸ operates⟩
    · rw [ticket, job, same, stage, ← slot]
      simp [Has, apart, Stage.isUnderway]
    · intro needs _
      rw [ticket, same]
      exact slot.2 (job ▸ needs)
  · exact turned_of_over operates once apart ticket job stage released

theorem turned_of_request (rule : Breaker.Rule) (now : Nat) {host : HostState}
    (once : host.pool.held.Nodup) (absent : ¬ host.pool.Has d.ticket)
    (arriving : d.stage = .arriving) (needs : d.job.needsSlot = true) :
    d.Turned host.pool (d.arrive rule true now host) := by
  obtain ⟨unheld, unasked⟩ := not_or.1 absent
  have asks : d.Operates host.pool (host.pool.request d.ticket) [.request d.ticket] :=
    ⟨rfl, by simp [Op.ticket], .inr ⟨rfl, arriving⟩⟩
  have has : (host.pool.request d.ticket).Has d.ticket := has_request.2 (.inr rfl)
  simp only [arrive, needs, Bool.not_true, Bool.false_eq_true, if_false]
  split
  · next held =>
    have held : d.ticket ∈ (host.pool.request d.ticket).held := by
      simpa [isHeld] using held
    have made := request_of_held unheld held
    have once : (host.pool.request d.ticket).held.Nodup := by
      rw [made]
      exact List.nodup_append_comm.1 (List.nodup_cons.2 ⟨unheld, once⟩)
    have apart : d.ticket ∉ (host.pool.request d.ticket).waiting := by
      rw [made]
      exact unasked
    exact turned_of_proceeds asks once apart (by simp [held, needs])
      ((proceeds_commence { d with asked := now } rule now
        { host with pool := host.pool.request d.ticket }).congr rfl rfl)
  · refine ⟨rfl, rfl, by simp, ⟨?_, ?_⟩, _, asks⟩
    · simp [has, needs, Stage.isUnderway]
    · intro _ running
      cases running

theorem turned_arrive (rule : Breaker.Rule) (hasPools : Bool) (now : Nat) {host : HostState}
    (once : host.pool.held.Nodup) (absent : ¬ host.pool.Has d.ticket)
    (arriving : d.stage = .arriving) : d.Turned host.pool (d.arrive rule hasPools now host) := by
  by_cases needs : d.job.needsSlot = true
  · cases hasPools with
    | false =>
      have made : d.arrive rule false now host =
          { d with asked := now }.finish now host (.crashed .slots) := by
        simp [arrive, needs]
      rw [made]
      exact turned_of_over (.nil _ _) once (not_or.1 absent).2 rfl rfl rfl rfl
    | true => exact turned_of_request rule now once absent arriving needs
  · have made : d.arrive rule hasPools now host =
        { d with asked := now }.commence rule now host := by
      simp [arrive, needs]
    rw [made]
    exact turned_of_proceeds (.nil _ _) once (not_or.1 absent).2
      (by simp [(not_or.1 absent).1, needs]) ((proceeds_commence _ rule now host).congr rfl rfl)

theorem turned_turn (rule : Breaker.Rule) (hasPools : Bool) (now : Nat) {host : HostState}
    (once : host.pool.held.Nodup) (apart : ∀ t ∈ host.pool.held, t ∉ host.pool.waiting)
    (fits : d.Fits host.pool) : d.Turned host.pool (d.turn rule hasPools now host) := by
  have stays (begun : d.stage ≠ .arriving) : d.Turned host.pool ⟨host, d, []⟩ :=
    ⟨rfl, rfl, begun, fits, [], .nil _ _⟩
  cases stage : d.stage with
  | arriving =>
    have absent : ¬ host.pool.Has d.ticket := by
      rw [fits.has, stage]
      simp [Stage.isUnderway]
    have arrives : d.turn rule hasPools now host = d.arrive rule hasPools now host := by
      rw [turn, stage]
    rw [arrives]
    exact turned_arrive rule hasPools now once absent stage
  | queued =>
    rw [turn, stage]
    by_cases held : host.pool.isHeld d.ticket = true
    · have mem : d.ticket ∈ host.pool.held := by simpa [isHeld] using held
      have needs := (fits.has.1 (.inl mem)).1
      simp only [held, if_true]
      exact turned_of_proceeds (.nil _ _) once (apart _ mem) (by simp [mem, needs])
        (proceeds_commence d rule now host)
    · simp only [held]
      exact stays (by simp [stage])
  | running due steps =>
    rw [turn, stage]
    have slot : d.ticket ∈ host.pool.held ↔ d.job.needsSlot = true :=
      ⟨fun mem => (fits.has.1 (.inl mem)).1, fun needs => fits.holds needs (by rw [stage]; rfl)⟩
    have unasked : d.ticket ∉ host.pool.waiting := fun waits =>
      apart _ (slot.2 (fits.has.1 (.inr waits)).1) waits
    exact turned_of_proceeds (.nil _ _) once unasked slot (proceeds_goOn d rule now host steps)
  | _ =>
    -- nothing is left to do for a delivery that is over
    rw [turn, stage]
    exact stays (by simp [stage])

end Delivery

end Herald
