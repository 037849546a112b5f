import Herald.Proofs.Interleaving.Access
import Herald.Proofs.Slots.Floor

/-! The slots of the hosts while deliveries are interleaved access by access. A single access is operations
with the ticket of the delivery alone, just as a turn is, so the pools are in order between any two. -/
namespace Herald

open SlotPool

namespace Delivery

variable {d : Delivery} {rule : Breaker.Rule} {hasPools : Bool} {now : Nat} {host : HostState}
  {pool : SlotPool} {p : Progress}

theorem Fits.apart (fits : d.Fits pool) (apart : ∀ t ∈ pool.held, t ∉ pool.waiting)
    (idle : d.stage = .arriving ∨ d.isGranted pool = true ∨ d.stage.isRunning = true) :
    d.ticket ∉ pool.waiting := by
  intro waits
  obtain ⟨needs, underway⟩ := fits.has.1 (.inr waits)
  have held : d.ticket ∈ pool.held := by
    rcases idle with arriving | granted | running
    · rw [arriving] at underway
      cases underway
    · simpa [isHeld] using (isGranted_iff.1 granted).2
    · exact fits.holds needs running
  exact apart _ held waits

theorem turned_of_idle (fits : d.Fits pool) (same : p.host.pool = pool)
    (ticket : p.delivery.ticket = d.ticket) (job : p.delivery.job = d.job)
    (stage : p.delivery.stage.isUnderway = d.stage.isUnderway ∨ d.job.needsSlot = false)
    (begun : p.delivery.stage ≠ .arriving)
    (holds : d.job.needsSlot = true → p.delivery.stage.isRunning = true → d.ticket ∈ pool.held) :
    d.Turned pool p := by
  refine ⟨ticket, job, begun, ⟨?_, ?_⟩, [], same ▸ .nil d pool⟩
  · rw [same, ticket, job, fits.has]
    rcases stage with stage | free
    · rw [stage]
    · simp [free]
  · rw [same, ticket, job]
    exact holds

theorem turned_of_accessed (once : host.pool.held.Nodup)
    (apart : ∀ t ∈ host.pool.held, t ∉ host.pool.waiting) (fits : d.Fits host.pool)
    (accessed : d.Accessed rule hasPools now host p) : d.Turned host.pool p := by
  have finished {before : HostState} {by_ : Delivery} {ending : Ending}
      (idle : d.stage = .arriving ∨ d.isGranted host.pool = true ∨ d.stage.isRunning = true)
      (pool : before.pool = host.pool) (ticket : by_.ticket = d.ticket) (job : by_.job = d.job) :
      d.Turned host.pool (by_.finish now before ending) :=
    turned_of_over (.nil d host.pool) once (fits.apart apart idle) ticket job rfl
      (by rw [finish, pool, ticket])
  have entering (enters : d.Enters host.pool) :
      d.stage = .arriving ∨ d.isGranted host.pool = true ∨ d.stage.isRunning = true :=
    enters.imp And.left .inl
  cases accessed with
  | idles stage =>
    rcases stage with queued | ⟨ending, finished⟩
    · exact turned_of_idle fits rfl rfl rfl (.inl rfl) (by simp [queued])
        (by simp [queued, Stage.isRunning])
    · exact turned_of_idle fits rfl rfl rfl (.inl rfl) (by simp [finished])
        (by simp [finished, Stage.isRunning])
  | asks arriving needs =>
    refine ⟨rfl, rfl, by simp, ⟨?_, by simp [Stage.isRunning]⟩, [.request d.ticket], rfl,
      by simp [Op.ticket], .inr ⟨rfl, arriving⟩⟩
    simp [has_request, needs, Stage.isUnderway]
  | barred before _ => exact finished (before.imp_right .inl) rfl rfl rfl
  | rejected enters _ => exact finished (entering enters) rfl rfl rfl
  | admitted enters closed =>
    rcases enters with ⟨arriving, free⟩ | granted
    · exact turned_of_idle fits rfl rfl rfl (.inr free) (by simp) (by simp [free])
    · obtain ⟨queued, held⟩ := isGranted_iff.1 granted
      exact turned_of_idle fits rfl rfl rfl (.inl (by simp [queued, Stage.isUnderway])) (by simp)
        fun _ _ => by simpa [isHeld] using held
  | rests running =>
    exact turned_of_idle fits rfl rfl rfl (.inl (by simp [running, Stage.isUnderway])) (by simp)
      fun needs _ => fits.holds needs (by rw [running]; rfl)
  | acts running noticed recordable =>
    exact turned_of_idle fits rfl rfl rfl (.inl (by simp [running, Stage.isUnderway])) (by simp)
      fun needs _ => fits.holds needs (by rw [running]; rfl)
  | crashes running _ => exact finished (.inr (.inr (by rw [running]; rfl))) rfl rfl rfl
  | ends running => exact finished (.inr (.inr (by rw [running]; rfl))) rfl rfl rfl

end Delivery

namespace Floor

variable {slots : Nat} {guests : List (String × Nat)} {f : Floor}

theorem kept_idle {r : Registry} (idle : ∀ key, (r.host key).pool = .ofSize r.slots)
    (fairness : Fairness) (now : Nat) :
    Kept r.slots [] { registry := r, fairness := fairness, now := now } where
  account := ⟨[], ⟨idle, List.nodup_nil, by simp [Registry.asked]⟩, by simp⟩
  named := List.nodup_nil
  below := by simp [names]
  strangers := by simp [names]
  owned := fun key _ has => by
    rw [pool, idle] at has
    rcases has with mem | mem <;> cases mem
  fits := by simp

theorem Kept.touch (kept : Kept slots guests f) (time place : Nat) :
    Kept slots guests (f.touch time place) := by
  cases there : f.deliveries[place]? with
  | none =>
    rw [touch_of_none there]
    exact kept.congr (fun _ => rfl) rfl rfl
  | some d =>
    obtain ⟨p, touched⟩ := touched time there
    obtain ⟨once, apart⟩ := kept.sound d.job.host
    have turned := Delivery.turned_of_accessed once apart
      (kept.fits d (List.mem_of_getElem? there)) touched.accessed
    exact kept.of_turned there turned touched.registry touched.deliveries touched.tickets

theorem Kept.move (kept : Kept slots guests f) (m : Move) : Kept slots guests (f.move m) := by
  cases m with
  | add job => exact kept.add job
  | pass time => exact kept.congr (fun _ => rfl) rfl rfl
  | touch time place => exact kept.touch time place

theorem Kept.moves (kept : Kept slots guests f) (ms : List Move) :
    Kept slots guests (f.moves ms) := by
  induction ms generalizing f with
  | nil => exact kept
  | cons m ms ih => exact ih (kept.move m)

end Floor

end Herald
