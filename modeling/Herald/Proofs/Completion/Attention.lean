import Herald.Proofs.Isolation.Agenda
import Mathlib.Data.Nat.Find

/-! No delivery is left behind. Whoever can use a turn has one on the agenda, so once the agenda is empty
all deliveries are over: the slot that the first of those in the queue waits for has gone to nobody else. -/
namespace Herald

open SlotPool

namespace SlotPool

variable {p : SlotPool} {ticket : Nat}

theorem mem_held_of_request {t : Nat} (mem : t ∈ (p.request ticket).held) :
    t = ticket ∨ t ∈ p.held := by
  unfold request at mem
  split at mem
  · rcases List.mem_append.1 mem with before | new
    · exact .inr before
    · exact .inl (List.mem_singleton.1 new)
  · exact .inr mem

theorem exists_heir (p : SlotPool) (ticket : Nat) :
    ∃ heir, ∀ t ∈ (p.release ticket).held, t ∈ p.held ∨ t = heir := by
  unfold release
  split
  · cases p.waiting with
    | nil => exact ⟨ticket, fun t mem => .inl (List.mem_of_mem_erase mem)⟩
    | cons heir rest =>
      refine ⟨heir, fun t mem => ?_⟩
      rcases List.mem_append.1 mem with before | new
      · exact .inl (List.mem_of_mem_erase before)
      · exact .inr (List.mem_singleton.1 new)
  · exact ⟨ticket, fun t mem => .inl mem⟩

end SlotPool

namespace Delivery

/-- A delivery after its turn can use another one only if it runs on, and waits only for a slot that it
needs. Of the others, one at most was given a slot by its turn. -/
structure Leaves (d : Delivery) (pool : SlotPool) (p : Progress) : Prop where
  runs : p.delivery.Ready p.host.pool → p.delivery.stage.isRunning = true
  needy : p.delivery.stage = .queued → d.stage = .queued ∨ d.job.needsSlot = true
  heir : ∃ heir, ∀ t ∈ p.host.pool.held, t = d.ticket ∨ t ∈ pool.held ∨ t = heir

variable {d : Delivery} {pool start : SlotPool} {p : Progress}

theorem exists_of_isOver (finished : d.isOver = true) : ∃ ending, d.stage = .over ending := by
  unfold isOver ending? at finished
  split at finished
  · exact ⟨_, ‹_›⟩
  · cases finished

theorem leaves_of_proceeds (proceeds : d.Proceeds start p)
    (had : ∀ t ∈ start.held, t = d.ticket ∨ t ∈ pool.held) : d.Leaves pool p := by
  obtain ⟨-, -, ⟨⟨due, steps, stage⟩, same⟩ | ⟨⟨ending, stage⟩, released⟩⟩ := proceeds
  · refine ⟨fun _ => by rw [stage]; rfl, by simp [stage], 0, fun t mem => ?_⟩
    rw [same] at mem
    exact (had t mem).imp_right .inl
  · obtain ⟨heir, passes⟩ := start.exists_heir d.ticket
    refine ⟨fun ready => ?_, by simp [stage], heir, fun t mem => ?_⟩
    · simp [Ready, isGranted, stage, Stage.isRunning] at ready
    · rw [released] at mem
      rcases passes t mem with before | is
      · exact (had t before).imp_right .inl
      · exact .inr (.inr is)

theorem leaves_turn (d : Delivery) (rule : Breaker.Rule) (hasPools : Bool) (now : Nat)
    (host : HostState) : d.Leaves host.pool (d.turn rule hasPools now host) := by
  have waits {p : Progress} (is : p.delivery.stage = .queued)
      (unheld : ¬ p.host.pool.isHeld p.delivery.ticket = true)
      (needy : d.stage = .queued ∨ d.job.needsSlot = true)
      (had : ∀ t ∈ p.host.pool.held, t = d.ticket ∨ t ∈ host.pool.held) : d.Leaves host.pool p := by
    refine ⟨fun ready => ?_, fun _ => needy, 0, fun t mem => (had t mem).imp_right .inl⟩
    simp [Ready, isGranted, is, unheld, Stage.isRunning] at ready
  cases stage : d.stage with
  | arriving =>
    simp only [turn, stage, arrive]
    split
    · exact leaves_of_proceeds ((proceeds_commence _ rule now host).congr rfl rfl) fun _ => .inr
    · next needs =>
      split
      · exact leaves_of_proceeds ((proceeds_finish _ now host _).congr rfl rfl) fun _ => .inr
      · split
        · exact leaves_of_proceeds ((proceeds_commence _ rule now _).congr rfl rfl)
            fun t mem => mem_held_of_request mem
        · next unheld =>
          exact waits rfl unheld (.inr (by simpa using needs))
            fun t mem => mem_held_of_request mem
  | queued =>
    simp only [turn, stage]
    split
    · exact leaves_of_proceeds (proceeds_commence d rule now host) fun _ => .inr
    · next unheld => exact waits stage unheld (.inl stage) fun _ => .inr
  | running due steps =>
    simp only [turn, stage]
    exact leaves_of_proceeds (proceeds_goOn d rule now host steps) fun _ => .inr
  | _ =>
    simp only [turn, stage]
    refine ⟨fun ready => ?_, by simp [stage], 0, fun t mem => .inr (.inl mem)⟩
    simp [Ready, isGranted, stage, Stage.isRunning] at ready

end Delivery

namespace Floor

variable {f : Floor} {turn : Turn} {place : Nat} {d : Delivery} {key : String} {guests : Nat}

theorem Planned.congr {later : Floor} (planned : Planned guests f) (pools : ∀ key, later.pool key = f.pool key)
    (deliveries : later.deliveries = f.deliveries) (agenda : later.agenda = f.agenda)
    (tickets : later.tickets = f.tickets) (ahead : ∀ e ∈ f.agenda, later.now ≤ e.1.due) :
    Planned guests later := by
  refine ⟨agenda ▸ ahead, fun e mem => ?_, deliveries ▸ planned.numbered, ?_⟩
  · rw [agenda] at mem
    rw [deliveries]
    simpa only [pools] using planned.ready e mem
  · rw [tickets, deliveries]
    exact planned.tickets

def Misses (f : Floor) (place : Nat) : Prop :=
  (∃ d, f.deliveries[place]? = some d ∧ d.Ready (f.pool d.job.host)) ∧ ∀ e ∈ f.agenda, e.2 ≠ place

/-- Whoever can use a turn has one, and whoever waits for a slot needs one. -/
structure Attended (f : Floor) : Prop where
  turns : ∀ place, ¬ f.Misses place
  needy : ∀ d ∈ f.deliveries, d.stage = .queued → d.job.needsSlot = true

theorem attended_start (r : Registry) (fairness : Fairness) (now : Nat) :
    Attended { registry := r, fairness := fairness, now := now } :=
  ⟨by simp [Misses], by simp⟩

theorem Attended.exists_turn (attended : Attended f) (there : f.deliveries[place]? = some d)
    (ready : d.Ready (f.pool d.job.host)) : ∃ e ∈ f.agenda, e.2 = place := by
  have misses := not_and_or.1 (attended.turns place)
  simpa using misses.resolve_left fun none_ => none_ ⟨d, there, ready⟩

theorem Attended.congr {later : Floor} (attended : Attended f)
    (pools : ∀ key, later.pool key = f.pool key) (deliveries : later.deliveries = f.deliveries)
    (agenda : later.agenda = f.agenda) : Attended later := by
  refine ⟨fun place => ?_, deliveries ▸ attended.needy⟩
  have same : later.Misses place ↔ f.Misses place := by
    simp only [Misses, pools, deliveries, agenda]
  rw [same]
  exact attended.turns place

theorem Attended.add (attended : Attended f) (job : Job) : Attended (f.add job) := by
  refine ⟨fun place misses => ?_, fun d mem queued => ?_⟩
  · obtain ⟨⟨d, there, ready⟩, free⟩ := misses
    rw [getElem?_add] at there
    split at there
    · next last => exact free _ List.mem_cons_self last.symm
    · exact attended.turns place ⟨⟨d, there, ready⟩, fun e mem => free e (List.mem_cons_of_mem _ mem)⟩
  · rcases List.mem_append.1 mem with old | new
    · exact attended.needy d old queued
    · rw [List.mem_singleton.1 new] at queued
      cases queued

theorem isGrantable_iff : f.isGrantable key place = true ↔
    (∃ d, f.deliveries[place]? = some d ∧ d.job.host = key ∧ d.isGranted (f.pool key) = true) ∧
      ∀ e ∈ f.agenda, e.2 ≠ place := by
  cases there : f.deliveries[place]? with
  | none => simp [isGrantable, there]
  | some d => simp [isGrantable, there, and_assoc]

theorem attended_wake (needy : ∀ d ∈ f.deliveries, d.stage = .queued → d.job.needsSlot = true)
    (granted : ∀ place, f.Misses place → f.isGrantable key place = true)
    (alone : ∀ a b, f.Misses a → f.Misses b → a = b) : Attended (f.wake key) := by
  refine ⟨fun place misses => ?_, by rw [deliveries_wake]; exact needy⟩
  unfold wake at misses
  split at misses
  · next heir is =>
    obtain ⟨⟨d, there, host, waits⟩, free⟩ := isGrantable_iff.1 (granted?_eq_some.1 is).1
    have own : f.Misses heir := ⟨⟨d, there, .inr (.inl (host ▸ waits))⟩, free⟩
    have still : f.Misses place :=
      ⟨misses.1, fun e mem => misses.2 e (List.mem_cons_of_mem _ mem)⟩
    exact misses.2 _ List.mem_cons_self (alone _ _ own still)
  · next none_ =>
    have some_ : ∃ place, f.isGrantable key place = true := ⟨place, granted place misses⟩
    have first := granted?_eq_some.2 ⟨Nat.find_spec some_, fun other less => by
      simpa using Nat.find_min some_ less⟩
    rw [none_] at first
    cases first

def work (f : Floor) (turn : Turn) (place : Nat) (d : Delivery) : Floor :=
  ((f.give turn place).settle place d.job.host (f.progress turn d)).resume place
    (f.progress turn d).delivery.stage

theorem deliveries_work (f : Floor) (turn : Turn) (place : Nat) (d : Delivery) :
    (f.work turn place d).deliveries = f.deliveries.set place (f.progress turn d).delivery :=
  deliveries_resume _ _ _

theorem registry_work (f : Floor) (turn : Turn) (place : Nat) (d : Delivery) :
    (f.work turn place d).registry = f.registry.setHost d.job.host (f.progress turn d).host := by
  unfold work resume
  split <;> rfl

theorem mem_agenda_work {e : Turn × Nat} (mem : e ∈ f.agenda) (ne : e.2 ≠ place) :
    e ∈ (f.work turn place d).agenda := by
  have kept : e ∈ ((f.give turn place).settle place d.job.host (f.progress turn d)).agenda :=
    List.mem_filter.2 ⟨mem, by simpa using ne⟩
  unfold work resume
  split
  · exact List.mem_cons_of_mem _ kept
  · exact kept

theorem not_misses_work (there : f.deliveries[place]? = some d) :
    ¬ (f.work turn place d).Misses place := by
  rintro ⟨⟨o, at_, ready⟩, free⟩
  have inside := (List.getElem?_eq_some_iff.1 there).1
  have job : (f.progress turn d).delivery.job = d.job := (d.turn_keeps ..).1
  have leaves : d.Leaves (f.pool d.job.host) (f.progress turn d) := d.leaves_turn ..
  rw [deliveries_work, List.getElem?_set_self inside] at at_
  obtain rfl := Option.some.inj at_
  rw [job, (pool_setHost (registry_work f turn place d)).1] at ready
  have running := leaves.runs ready
  unfold work resume at free
  split at free
  · exact free _ List.mem_cons_self rfl
  · next idle =>
    cases stage : (f.progress turn d).delivery.stage with
    | running due steps => exact idle due steps stage
    | _ => simp [stage, Stage.isRunning] at running

theorem Attended.heir (attended : Attended f) (planned : Planned guests f) (turn : Turn)
    (there : f.deliveries[place]? = some d) :
    ∃ heir, ∀ other, (f.work turn place d).Misses other →
      (f.work turn place d).isGrantable d.job.host other = true ∧ guests + other = heir := by
  have leaves : d.Leaves (f.pool d.job.host) (f.progress turn d) := d.leaves_turn ..
  obtain ⟨heir, passes⟩ := leaves.heir
  obtain ⟨here, others⟩ := pool_setHost (registry_work f turn place d)
  refine ⟨heir, fun other misses => ?_⟩
  have apart : place ≠ other := by
    rintro rfl
    exact not_misses_work there misses
  obtain ⟨⟨o, at_, ready⟩, free⟩ := misses
  have before : f.deliveries[other]? = some o := by
    rwa [deliveries_work, List.getElem?_set_ne apart] at at_
  have unready : ¬ o.Ready (f.pool o.job.host) := fun ready =>
    attended.turns other ⟨⟨o, before, ready⟩, fun e mem is =>
      free e (mem_agenda_work mem fun own => apart (own.symm.trans is)) is⟩
  have granted : o.isGranted ((f.work turn place d).pool o.job.host) = true := by
    rcases ready with arriving | granted | running
    · exact absurd (.inl arriving) unready
    · exact granted
    · exact absurd (.inr (.inr running)) unready
  have host : o.job.host = d.job.host := by_contra fun foreign =>
    unready (.inr (.inl (by rw [← others _ foreign]; exact granted)))
  rw [host] at granted unready
  obtain ⟨queued, held⟩ := Delivery.isGranted_iff.1 granted
  have unheld : o.ticket ∉ (f.pool d.job.host).held := fun held =>
    unready (.inr (.inl (Delivery.isGranted_iff.2 ⟨queued, by simpa [isHeld] using held⟩)))
  have ne : o.ticket ≠ d.ticket := by
    rw [planned.numbered _ _ before, planned.numbered _ _ there]
    omega
  refine ⟨isGrantable_iff.2 ⟨⟨o, at_, host, granted⟩, free⟩, ?_⟩
  have held : o.ticket ∈ (f.progress turn d).host.pool.held := by
    rw [here] at held
    simpa [isHeld] using held
  exact (planned.numbered _ _ before).symm.trans
    (((passes _ held).resolve_left ne).resolve_left unheld)

/-- While the first turn is taken, nobody is left behind. -/
theorem Attended.take (attended : Attended f) (planned : Planned guests f)
    (first : first? f.agenda = some (turn, place)) : Attended (f.take turn place) := by
  obtain ⟨d, there, -⟩ := planned.ready _ (mem_of_first? first)
  have leaves : d.Leaves (f.pool d.job.host) (f.progress turn d) := d.leaves_turn ..
  have job : (f.progress turn d).delivery.job = d.job := (d.turn_keeps ..).1
  obtain ⟨heir, only⟩ := attended.heir planned turn there
  rw [take_eq_steps there]
  refine attended_wake (f := f.work turn place d) (fun o mem queued => ?_)
    (fun other misses => (only other misses).1) fun a b first second => ?_
  · rw [deliveries_work] at mem
    rcases List.mem_or_eq_of_mem_set mem with old | rfl
    · exact attended.needy o old queued
    · rw [job]
      exact (leaves.needy queued).elim (attended.needy d (List.mem_of_getElem? there)) id
  · have same := (only a first).2.trans (only b second).2.symm
    omega

/-- Once nobody has a turn to come, all deliveries are over: if one of them waited, the slots of its host
would be with others, and these would have turns. -/
theorem over_of_idle {slots : Nat} (kept : Kept slots [] f) (attended : Attended f)
    (idle : f.agenda = []) : ∀ d ∈ f.deliveries, d.isOver = true := by
  have unready : ∀ d ∈ f.deliveries, ¬ d.Ready (f.pool d.job.host) := fun d mem ready => by
    obtain ⟨place, there⟩ := List.mem_iff_getElem?.1 mem
    exact attended.turns place ⟨⟨d, there, ready⟩, by simp [idle]⟩
  intro d mem
  cases stage : d.stage with
  | arriving => exact absurd (.inl stage) (unready d mem)
  | queued =>
    obtain ⟨⟨ops, accounted, -⟩, -, -, -, owned, fits⟩ := kept
    obtain ⟨sound, -⟩ := accounted.sound d.job.host
    have conserved := sound.conserved
    have busy := sound.busy
    rw [← accounted.pools] at conserved busy
    have waits : d.ticket ∈ (f.pool d.job.host).waiting := by
      have has := (fits d mem).has.2 ⟨attended.needy d mem stage, by rw [stage]; rfl⟩
      refine has.resolve_left fun held => unready d mem (.inr (.inl ?_))
      exact Delivery.isGranted_iff.2 ⟨stage, by simpa [isHeld] using held⟩
    have none_left : (f.pool d.job.host).available = 0 := by
      refine Nat.eq_zero_of_not_pos fun free => ?_
      rw [busy free] at waits
      cases waits
    obtain ⟨ticket, held⟩ : ∃ ticket, ticket ∈ (f.pool d.job.host).held :=
      List.exists_mem_of_length_pos (by omega)
    have owner := owned _ _ (.inl held)
    rw [List.append_nil] at owner
    obtain ⟨o, there, is⟩ := List.mem_map.1 owner
    obtain ⟨host, rfl⟩ := Prod.mk.inj is
    have underway := ((fits o there).has.1 (.inl (host ▸ held))).2
    have running : o.Ready (f.pool o.job.host) := by
      cases other : o.stage with
      | queued =>
        exact .inr (.inl (Delivery.isGranted_iff.2 ⟨other, by simpa [isHeld, host] using held⟩))
      | running => exact .inr (.inr (by rw [other]; rfl))
      | _ => simp [other, Stage.isUnderway] at underway
    exact absurd running (unready o there)
  | running due steps => exact absurd (.inr (.inr (by rw [stage]; rfl))) (unready d mem)
  | _ => simp [Delivery.isOver, Delivery.ending?, stage]

end Floor

end Herald
