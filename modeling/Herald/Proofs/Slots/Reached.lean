import Herald.Proofs.Slots.Floor
import Herald.Service

/-! The floors that deliveries lead to, in any order of turns and with guests who ask for slots
themselves. -/
namespace Herald

open SlotPool

namespace Floor

variable {slots : Nat} {guests : List (String × Nat)} {f : Floor}

theorem playFor_induction {P : Floor → Prop} (goOn : Floor → Turn → Bool) (turns : Nat)
    (takes : ∀ {g : Floor} {turn : Turn} {place : Nat}, first? g.agenda = some (turn, place) →
      P g → P (g.take turn place)) (holds : P f) : P (playFor goOn turns f) := by
  induction turns generalizing f with
  | zero => exact holds
  | succ turns ih =>
    unfold playFor
    split
    · exact holds
    · next turn place first =>
      split
      · exact ih (takes first holds)
      · exact holds

theorem dispatch_induction {P : Floor → Prop} (s : Service) (lookup : Int → Lookup) (event : Event)
    (waits : ∀ {g : Floor} (time : Nat), P g → P (g.passUntil time))
    (begins : ∀ {g : Floor} (hook : Hook), P g → P (g.add (s.hookJob event hook))) (holds : P f) :
    P (s.dispatch lookup event f).floor := by
  unfold Service.dispatch
  split
  · exact holds
  · next owner _ =>
    have waited := waits (f.now + ((lookup owner).within s.config.fetchTimeoutMs).wait) holds
    simp only
    split
    · exact waited
    · exact waited
    · refine List.foldlRecOn _ _ waited fun g kept job mem => ?_
      obtain ⟨hook, -, rfl⟩ := List.mem_map.1 mem
      exact begins hook kept

def tell (f : Floor) (key : String) (breaker : Breaker) : Floor :=
  { f with registry := f.registry.setHost key { f.registry.host key with breaker := breaker } }

theorem pool_tell (f : Floor) (key other : String) (breaker : Breaker) :
    (f.tell key breaker).pool other = f.pool other := by
  have made : (f.tell key breaker).registry =
      f.registry.setHost key { f.registry.host key with breaker := breaker } := rfl
  obtain ⟨here, others⟩ := pool_setHost made
  by_cases same : other = key
  · rw [same, here]
    rfl
  · exact others other same

/-- The floors that deliveries lead to in any order of turns, with guests who ask for slots without a
delivery and with anything done to breakers meanwhile. The guests are those who have not given up yet. -/
inductive Reached (slots : Nat) (rule : Breaker.Rule) : List (String × Nat) → Floor → Prop
  | start (fairness : Fairness) (now : Nat) :
    Reached slots rule [] { registry := ⟨slots, rule, {}⟩, fairness := fairness, now := now }
  | add {guests : List (String × Nat)} {f : Floor} (job : Job) :
    Reached slots rule guests f → Reached slots rule guests (f.add job)
  | take {guests : List (String × Nat)} {f : Floor} (turn : Turn) (place : Nat) :
    Reached slots rule guests f → Reached slots rule guests (f.take turn place)
  | pass {guests : List (String × Nat)} {f : Floor} (time : Nat) :
    Reached slots rule guests f → Reached slots rule guests { f with now := max f.now time }
  | tell {guests : List (String × Nat)} {f : Floor} (key : String) (breaker : Breaker) :
    Reached slots rule guests f → Reached slots rule guests (f.tell key breaker)
  | ask {guests : List (String × Nat)} {f : Floor} (key : String) :
    Reached slots rule guests f → Reached slots rule ((key, f.tickets) :: guests) (f.ask key).1
  | giveUp {guests : List (String × Nat)} {f : Floor} {key : String} {ticket : Nat} :
    (key, ticket) ∈ guests → Reached slots rule guests f →
      Reached slots rule (guests.erase (key, ticket)) (f.giveUp key ticket)

theorem Reached.kept {rule : Breaker.Rule} (reached : Reached slots rule guests f) :
    Kept slots guests f := by
  induction reached with
  | start fairness now => exact kept_start slots rule fairness now
  | add job _ ih => exact ih.add job
  | take turn place _ ih => exact ih.take turn place
  | pass time _ ih => exact ih.congr (fun _ => rfl) rfl rfl
  | tell key breaker _ ih => exact ih.congr (fun other => pool_tell _ key other breaker) rfl rfl
  | ask key _ ih => exact ih.ask key
  | giveUp guest _ ih => exact ih.giveUp guest

section

variable {rule : Breaker.Rule}

theorem Reached.playFor (reached : Reached slots rule guests f) (goOn : Floor → Turn → Bool)
    (turns : Nat) : Reached slots rule guests (playFor goOn turns f) :=
  playFor_induction goOn turns (fun _ => .take _ _) reached

theorem Reached.passUntil (reached : Reached slots rule guests f) (time : Nat) :
    Reached slots rule guests (f.passUntil time) :=
  (reached.playFor _ _).pass time

theorem Reached.dispatch (reached : Reached slots rule guests f) (s : Service)
    (lookup : Int → Lookup) (event : Event) :
    Reached slots rule guests (s.dispatch lookup event f).floor :=
  dispatch_induction s lookup event (fun time before => before.passUntil time)
    (fun _ before => before.add _) reached

theorem Reached.test (reached : Reached slots rule guests f) (s : Service)
    (locator content : String) : Reached slots rule guests (s.test locator content f).1 :=
  (reached.add _).playFor _ _

end

/-- After any operations on the slots of any hosts the pool of a host is that of the operations on it:
no slot is lost, none is free while someone waits, and slots are granted in the order of the requests that
were not withdrawn. The pools of the floors that deliveries lead to are of this kind, so no host has more
deliveries under way than slots, and it has all of them again when they are over. -/
theorem slots_conserved (slots : Nat) (rule : Breaker.Rule) :
    (∀ (ops : List (String × Op)) (key : String),
      ((Registry.opsOn key ops).flatMap Op.asks).Nodup →
      let r := Registry.operateAll ⟨slots, rule, {}⟩ ops
      let record := Record.of slots (Registry.opsOn key ops)
      (r.host key).pool = record.pool ∧
      record.pool.held.length + record.pool.available = max 1 slots ∧
      (0 < record.pool.available → record.pool.waiting = []) ∧
      record.granted ++ record.pool.waiting =
        ((Registry.opsOn key ops).flatMap Op.asks).filter (· ∉ record.abandoned) ∧
      (∀ ticket, ((r.operate key (.abandon ticket)).host key).pool =
        { record.pool with waiting := record.pool.waiting.filter (· ≠ ticket) }) ∧
      ∀ other op, other ≠ key → (r.operate other op).host key = r.host key) ∧
    (∀ (guests : List (String × Nat)) (f : Floor), Reached slots rule guests f →
      (∀ (s : Service) (lookup : Int → Lookup) (event : Event) (locator content : String),
        Reached slots rule guests (s.dispatch lookup event f).floor ∧
        Reached slots rule guests (s.test locator content f).1) ∧
      (∃ ops, (Registry.asked ops).Nodup ∧
        ∀ key, f.pool key = ((Registry.operateAll ⟨slots, rule, {}⟩ ops).host key).pool) ∧
      ∀ key,
        (f.deliveries.countP fun d => d.job.host == key && d.occupies (f.pool key)) ≤ max 1 slots ∧
        ((∀ d ∈ f.deliveries, d.job.host = key → d.isOver = true) →
          (∀ ticket, (key, ticket) ∉ guests) → (f.pool key).available = max 1 slots)) := by
  constructor
  · intro ops key distinct r record
    have sound : record.Sound slots := Record.sound_of slots _ distinct
    have asked : record.asked = (Registry.opsOn key ops).flatMap Op.asks := Record.asked_of slots _
    have pool : (r.host key).pool = record.pool := Registry.pool_operateAll slots rule ops key
    have waiting : record.pool.waiting.Nodup := (sound.nodup (asked ▸ distinct)).of_append_right
    refine ⟨pool, sound.conserved, sound.busy, asked ▸ sound.ordered, fun ticket => ?_,
      fun other op ne => Registry.host_operate_other r ne op⟩
    rw [Registry.pool_operate_self, pool, apply, abandon, waiting.erase_eq_filter]
    congr 1
    exact List.filter_congr fun other _ => by simp [bne, beq_eq_decide]
  · intro guests f reached
    have kept := reached.kept
    refine ⟨fun s lookup event locator content =>
      ⟨reached.dispatch s lookup event, reached.test s locator content⟩, ?_,
      fun key => ⟨kept.countP_occupies_le key, kept.available_of_over⟩⟩
    obtain ⟨ops, accounted, -⟩ := kept.account
    refine ⟨ops, accounted.distinct, fun key => ?_⟩
    rw [accounted.pools, Registry.pool_operateAll]

/-- A pool of one slot, for which three ask and one of them gives up, and a delivery that is over. -/
theorem slots_conserved_of_one_slot :
    let rule : Breaker.Rule := ⟨3, 60000⟩
    let ops : List (String × Op) := [("a", .request 0), ("a", .request 1), ("a", .request 2),
      ("b", .request 3), ("a", .abandon 1), ("a", .release 0)]
    let job : Job := { host := "a", timeout := 1000, delays := [], operation := fun _ => .done (.ok ()) }
    let f := Floor.take (Floor.add { registry := ⟨0, rule, {}⟩ } job) ⟨0, 0, 1⟩ 0
    ((Registry.operateAll ⟨0, rule, {}⟩ ops).host "a").pool = ⟨0, [2], []⟩ ∧
      (Record.of 0 (Registry.opsOn "a" ops)).granted = [0, 2] ∧
      (∀ d ∈ f.deliveries, d.isOver = true) ∧ (f.pool "a").available = 1 := by
  intro rule ops job f
  obtain ⟨operations, deliveries⟩ := slots_conserved 0 rule
  obtain ⟨pool, -, -, granted, -⟩ := operations ops "a" (by decide)
  have done : ∀ d ∈ f.deliveries, d.isOver = true := by decide
  have reached : Reached 0 rule [] f := .take _ _ (.add job (.start .byArrival 0))
  obtain ⟨-, -, all⟩ := deliveries [] f reached
  have idle : (Record.of 0 (Registry.opsOn "a" ops)).pool = ⟨0, [2], []⟩ := by decide
  rw [idle, List.append_nil] at granted
  exact ⟨pool.trans idle, granted.trans (by decide), done,
    (all "a").2 (fun d mem _ => done d mem) (by simp)⟩

end Floor

end Herald
