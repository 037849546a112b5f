import Herald.Registry
import Mathlib.Data.List.Induction
import Mathlib.Data.List.Nodup

/-! The slots of the hosts after any requests, releases and withdrawals on any hosts in any order. What
became of the requests is kept beside the pool; one operation keeps the account of a pool, and the pool of
a host is that of the operations on this host alone. -/
namespace Herald

namespace SlotPool

inductive Op
  | request (ticket : Nat)
  | release (ticket : Nat)
  | abandon (ticket : Nat)
  deriving DecidableEq, Repr

def Op.ticket : Op → Nat
  | .request ticket => ticket
  | .release ticket => ticket
  | .abandon ticket => ticket

def Op.asks : Op → List Nat
  | .request ticket => [ticket]
  | .release _ => []
  | .abandon _ => []

def apply (p : SlotPool) : Op → SlotPool
  | .request ticket => p.request ticket
  | .release ticket => p.release ticket
  | .abandon ticket => p.abandon ticket

def applyAll (p : SlotPool) (ops : List Op) : SlotPool := ops.foldl apply p

@[simp] theorem applyAll_nil (p : SlotPool) : p.applyAll [] = p := rfl

@[simp] theorem applyAll_cons (p : SlotPool) (op : Op) (ops : List Op) :
    p.applyAll (op :: ops) = (p.apply op).applyAll ops := rfl

theorem applyAll_append (p : SlotPool) (a b : List Op) :
    p.applyAll (a ++ b) = (p.applyAll a).applyAll b := by
  rw [applyAll, applyAll, applyAll, List.foldl_append]

def Has (p : SlotPool) (ticket : Nat) : Prop := ticket ∈ p.held ∨ ticket ∈ p.waiting

section

variable {p : SlotPool} {ticket other : Nat}

theorem has_request : (p.request ticket).Has other ↔ p.Has other ∨ other = ticket := by
  unfold Has request
  split
  · simp only [List.mem_append, List.mem_singleton]
    tauto
  · simp only [List.mem_append, List.mem_singleton]
    tauto

theorem request_of_held (unheld : ticket ∉ p.held) (held : ticket ∈ (p.request ticket).held) :
    p.request ticket = ⟨p.available - 1, p.held ++ [ticket], p.waiting⟩ := by
  by_cases free : 0 < p.available
  · rw [request, if_pos free]
  · rw [request, if_neg free] at held
    exact absurd held unheld

theorem has_release_of_ne (ne : other ≠ ticket) : (p.release ticket).Has other ↔ p.Has other := by
  unfold Has release
  split
  · split
    · next none => simp [none, List.mem_erase_of_ne ne]
    · next first rest queue =>
      simp only [queue, List.mem_append, List.mem_cons, List.mem_erase_of_ne ne]
      tauto
  · rfl

theorem has_abandon_of_ne (ne : other ≠ ticket) : (p.abandon ticket).Has other ↔ p.Has other := by
  simp [Has, abandon, List.mem_erase_of_ne ne]

theorem has_apply_of_ne {op : Op} (ne : other ≠ op.ticket) :
    (p.apply op).Has other ↔ p.Has other := by
  cases op with
  | request => exact has_request.trans (or_iff_left ne)
  | release => exact has_release_of_ne ne
  | abandon => exact has_abandon_of_ne ne

theorem mem_held_apply {op : Op} (ne : other ≠ op.ticket) (mem : other ∈ p.held) :
    other ∈ (p.apply op).held := by
  cases op with
  | request ticket =>
    simp only [apply, request]
    split
    · exact List.mem_append_left _ mem
    · exact mem
  | release ticket =>
    have kept : other ∈ p.held.erase ticket := (List.mem_erase_of_ne ne).2 mem
    simp only [apply, release]
    split
    · split
      · exact kept
      · exact List.mem_append_left _ kept
    · exact mem
  | abandon => exact mem

theorem has_applyAll_of_ne {ops : List Op} (only : ∀ op ∈ ops, op.ticket = ticket)
    (ne : other ≠ ticket) : (p.applyAll ops).Has other ↔ p.Has other := by
  induction ops generalizing p with
  | nil => rfl
  | cons op ops ih =>
    have own : op.ticket = ticket := only op List.mem_cons_self
    rw [applyAll_cons, ih fun op mem => only op (List.mem_cons_of_mem _ mem)]
    exact has_apply_of_ne (own ▸ ne)

theorem mem_held_applyAll {ops : List Op} (only : ∀ op ∈ ops, op.ticket = ticket)
    (ne : other ≠ ticket) (mem : other ∈ p.held) : other ∈ (p.applyAll ops).held := by
  induction ops generalizing p with
  | nil => exact mem
  | cons op ops ih =>
    have own : op.ticket = ticket := only op List.mem_cons_self
    exact ih (fun op mem => only op (List.mem_cons_of_mem _ mem)) (mem_held_apply (own ▸ ne) mem)

theorem not_has_release (once : p.held.Nodup) (apart : ticket ∉ p.waiting) :
    ¬ (p.release ticket).Has ticket := by
  unfold release
  split
  · have gone : ticket ∉ p.held.erase ticket := once.not_mem_erase
    cases queue : p.waiting with
    | nil => simp [Has, gone]
    | cons first rest =>
      rw [queue, List.mem_cons, not_or] at apart
      simp [Has, gone, apart]
  · next unheld => simp [Has, unheld, apart]

theorem not_has_abandon (once : p.waiting.Nodup) (apart : ticket ∉ p.held) :
    ¬ (p.abandon ticket).Has ticket := by
  simp [Has, abandon, apart, once.not_mem_erase]

end

def newly (before now : List Nat) : List Nat := now.filter (· ∉ before)

@[simp] theorem newly_self (held : List Nat) : newly held held = [] := by
  simp [newly]

@[simp] theorem newly_erase (held : List Nat) (ticket : Nat) :
    newly held (held.erase ticket) = [] := by
  refine List.filter_eq_nil_iff.2 fun other mem => ?_
  simpa using List.mem_of_mem_erase mem

theorem newly_append {held now : List Nat} {ticket : Nat} (fresh : ticket ∉ held) :
    newly held (now ++ [ticket]) = newly held now ++ [ticket] := by
  simp [newly, fresh]

/-- A pool and what became of the requests for its slots, each list in its order. A slot is granted when
its ticket comes to hold one. -/
structure Record where
  pool : SlotPool
  asked : List Nat := []
  granted : List Nat := []
  abandoned : List Nat := []

namespace Record

def withdrawn (p : SlotPool) : Op → List Nat
  | .abandon ticket => if ticket ∈ p.waiting then [ticket] else []
  | .request _ => []
  | .release _ => []

def next (r : Record) (op : Op) : Record where
  pool := r.pool.apply op
  asked := r.asked ++ op.asks
  granted := r.granted ++ newly r.pool.held (r.pool.apply op).held
  abandoned := r.abandoned ++ withdrawn r.pool op

def of (slots : Nat) (ops : List Op) : Record := ops.foldl next { pool := .ofSize slots }

@[simp] theorem of_nil (slots : Nat) : of slots [] = { pool := .ofSize slots } := rfl

@[simp] theorem of_append (slots : Nat) (ops : List Op) (op : Op) :
    of slots (ops ++ [op]) = (of slots ops).next op := by
  simp [of]

theorem pool_of (slots : Nat) (ops : List Op) :
    (of slots ops).pool = (ofSize slots).applyAll ops := by
  induction ops using List.reverseRecOn with
  | nil => rfl
  | append_singleton ops op ih =>
    rw [of_append, applyAll_append, ← ih]
    rfl

theorem asked_of (slots : Nat) (ops : List Op) : (of slots ops).asked = ops.flatMap Op.asks := by
  induction ops using List.reverseRecOn with
  | nil => rfl
  | append_singleton ops op ih => simp [next, ih]

/-- No slot is lost or idle while someone waits, and slots go to those who asked in their order. -/
structure Sound (slots : Nat) (r : Record) : Prop where
  conserved : r.pool.held.length + r.pool.available = max 1 slots
  busy : 0 < r.pool.available → r.pool.waiting = []
  ordered : r.granted ++ r.pool.waiting = r.asked.filter (· ∉ r.abandoned)
  once : r.pool.held.Nodup
  known : ∀ ticket ∈ r.pool.held, ticket ∈ r.granted
  left : ∀ ticket ∈ r.abandoned, ticket ∈ r.asked

variable {slots : Nat} {r : Record}

theorem Sound.nodup (sound : r.Sound slots) (distinct : r.asked.Nodup) :
    (r.granted ++ r.pool.waiting).Nodup := by
  rw [sound.ordered]
  exact distinct.filter _

theorem Sound.not_waiting (sound : r.Sound slots) (distinct : r.asked.Nodup) {ticket : Nat}
    (mem : ticket ∈ r.pool.held) : ticket ∉ r.pool.waiting := fun waits =>
  (List.disjoint_of_nodup_append (sound.nodup distinct)) (sound.known ticket mem) waits

theorem Sound.asked_of_has (sound : r.Sound slots) {ticket : Nat} (has : r.pool.Has ticket) :
    ticket ∈ r.asked := by
  have mem : ticket ∈ r.granted ++ r.pool.waiting :=
    List.mem_append.2 (has.imp_left (sound.known ticket))
  rw [sound.ordered] at mem
  exact (List.mem_filter.1 mem).1

theorem sound_nil (slots : Nat) : Sound slots (of slots []) :=
  ⟨by simp [ofSize], fun _ => rfl, rfl, List.nodup_nil, by simp [ofSize], by simp⟩

theorem Sound.request (sound : r.Sound slots) {ticket : Nat} (fresh : ticket ∉ r.asked) :
    (r.next (.request ticket)).Sound slots := by
  have unheld : ticket ∉ r.pool.held := fun mem => fresh (sound.asked_of_has (.inl mem))
  have stays : ticket ∉ r.abandoned := fun mem => fresh (sound.left ticket mem)
  have asked : (r.asked ++ [ticket]).filter (· ∉ r.abandoned) =
      r.granted ++ r.pool.waiting ++ [ticket] := by
    rw [List.filter_append, ← sound.ordered]
    simp [stays]
  by_cases free : 0 < r.pool.available
  · have made : r.next (.request ticket) =
        ⟨⟨r.pool.available - 1, r.pool.held ++ [ticket], r.pool.waiting⟩, r.asked ++ [ticket],
          r.granted ++ [ticket], r.abandoned⟩ := by
      simp [next, apply, SlotPool.request, free, newly_append unheld, Op.asks, withdrawn]
    rw [made]
    have idle := sound.busy free
    refine ⟨?_, fun _ => idle, ?_, ?_, ?_, ?_⟩
    · have := sound.conserved
      simp only [List.length_append, List.length_singleton]
      omega
    · rw [asked, idle, List.append_nil, List.append_nil]
    · exact List.nodup_append_comm.1 (List.nodup_cons.2 ⟨unheld, sound.once⟩)
    · intro other mem
      exact (List.mem_append.1 mem).elim
        (fun mem => List.mem_append_left _ (sound.known other mem)) (List.mem_append_right _)
    · exact fun other mem => List.mem_append_left _ (sound.left other mem)
  · have made : r.next (.request ticket) =
        ⟨⟨r.pool.available, r.pool.held, r.pool.waiting ++ [ticket]⟩, r.asked ++ [ticket],
          r.granted, r.abandoned⟩ := by
      simp [next, apply, SlotPool.request, free, Op.asks, withdrawn]
    rw [made]
    refine ⟨sound.conserved, fun pos => absurd pos free, ?_, sound.once, sound.known, ?_⟩
    · rw [asked, List.append_assoc]
    · exact fun other mem => List.mem_append_left _ (sound.left other mem)

theorem Sound.release (sound : r.Sound slots) (distinct : r.asked.Nodup) (ticket : Nat) :
    (r.next (.release ticket)).Sound slots := by
  by_cases held : ticket ∈ r.pool.held
  · have erased := List.length_erase_of_mem held
    have some_ := List.length_pos_of_mem held
    cases queue : r.pool.waiting with
    | nil =>
      have made : r.next (.release ticket) =
          ⟨⟨r.pool.available + 1, r.pool.held.erase ticket, []⟩, r.asked, r.granted,
            r.abandoned⟩ := by
        simp [next, apply, SlotPool.release, held, queue, Op.asks, withdrawn]
      rw [made]
      refine ⟨?_, fun _ => rfl, ?_, sound.once.erase _, ?_, sound.left⟩
      · have := sound.conserved
        simp only
        omega
      · rw [← sound.ordered, queue]
      · exact fun other mem => sound.known other (List.mem_of_mem_erase mem)
    | cons first rest =>
      have waits : first ∈ r.pool.waiting := queue ▸ List.mem_cons_self
      have unheld : first ∉ r.pool.held := fun mem => sound.not_waiting distinct mem waits
      have made : r.next (.release ticket) =
          ⟨⟨r.pool.available, r.pool.held.erase ticket ++ [first], rest⟩, r.asked,
            r.granted ++ [first], r.abandoned⟩ := by
        simp [next, apply, SlotPool.release, held, queue, newly_append unheld, Op.asks, withdrawn]
      rw [made]
      refine ⟨?_, ?_, ?_, ?_, ?_, sound.left⟩
      · have := sound.conserved
        simp only [List.length_append, List.length_singleton]
        omega
      · intro free
        rw [sound.busy free] at queue
        cases queue
      · rw [← sound.ordered, queue, List.append_assoc, List.singleton_append]
      · refine List.nodup_append_comm.1 (List.nodup_cons.2 ⟨?_, sound.once.erase _⟩)
        exact fun mem => unheld (List.mem_of_mem_erase mem)
      · intro other mem
        exact (List.mem_append.1 mem).elim
          (fun mem => List.mem_append_left _ (sound.known other (List.mem_of_mem_erase mem)))
          (List.mem_append_right _)
  · have made : r.next (.release ticket) = r := by
      simp [next, apply, SlotPool.release, held, Op.asks, withdrawn]
    rw [made]
    exact sound

theorem Sound.abandon (sound : r.Sound slots) (distinct : r.asked.Nodup) (ticket : Nat) :
    (r.next (.abandon ticket)).Sound slots := by
  by_cases waits : ticket ∈ r.pool.waiting
  · have made : r.next (.abandon ticket) =
        ⟨⟨r.pool.available, r.pool.held, r.pool.waiting.erase ticket⟩, r.asked, r.granted,
          r.abandoned ++ [ticket]⟩ := by
      simp [next, apply, SlotPool.abandon, waits, Op.asks, withdrawn]
    rw [made]
    have nodup := sound.nodup distinct
    have ungranted : ticket ∉ r.granted := fun mem =>
      (List.disjoint_of_nodup_append nodup) mem waits
    refine ⟨sound.conserved, ?_, ?_, sound.once, sound.known, ?_⟩
    · intro free
      rw [sound.busy free] at waits
      cases waits
    · calc r.granted ++ r.pool.waiting.erase ticket
          = (r.granted ++ r.pool.waiting).erase ticket :=
            (List.erase_append_right _ ungranted).symm
        _ = (r.granted ++ r.pool.waiting).filter (· ≠ ticket) := by
            rw [nodup.erase_eq_filter]
            exact List.filter_congr fun other _ => by simp [bne, beq_eq_decide]
        _ = r.asked.filter (· ∉ r.abandoned ++ [ticket]) := by
            rw [sound.ordered, List.filter_filter]
            exact List.filter_congr fun other _ => by simp [Bool.and_comm]
    · intro other mem
      rcases List.mem_append.1 mem with mem | mem
      · exact sound.left other mem
      · rw [List.mem_singleton.1 mem]
        exact sound.asked_of_has (.inr waits)
  · have made : r.next (.abandon ticket) = r := by
      simp [next, apply, SlotPool.abandon, waits, Op.asks, withdrawn, List.erase_of_not_mem waits]
    rw [made]
    exact sound

/-- Any operations keep the account, as long as no ticket is used for two requests. -/
theorem sound_of (slots : Nat) (ops : List Op) (distinct : (ops.flatMap Op.asks).Nodup) :
    (of slots ops).Sound slots := by
  induction ops using List.reverseRecOn with
  | nil => exact sound_nil slots
  | append_singleton ops op ih =>
    rw [List.flatMap_append] at distinct
    have before : (of slots ops).asked.Nodup := by
      rw [asked_of]
      exact (List.nodup_append.1 distinct).1
    have sound := ih (asked_of slots ops ▸ before)
    rw [of_append]
    cases op with
    | request ticket =>
      refine sound.request fun mem => ?_
      rw [asked_of] at mem
      exact List.disjoint_of_nodup_append distinct mem (by simp [Op.asks])
    | release ticket => exact sound.release before ticket
    | abandon ticket => exact sound.abandon before ticket

end Record

end SlotPool

namespace Registry

open SlotPool

def operate (r : Registry) (key : String) (op : Op) : Registry :=
  r.setHost key { r.host key with pool := (r.host key).pool.apply op }

def operateAll (r : Registry) (ops : List (String × Op)) : Registry :=
  ops.foldl (fun r o => r.operate o.1 o.2) r

def opsOn (key : String) (ops : List (String × Op)) : List Op :=
  (ops.filter (·.1 == key)).map Prod.snd

theorem opsOn_append_self (key : String) (ops : List (String × Op)) (more : List Op) :
    opsOn key (ops ++ more.map (Prod.mk key)) = opsOn key ops ++ more := by
  simp [opsOn, List.filter_map, Function.comp_def]

theorem opsOn_append_other {key other : String} (ne : other ≠ key) (ops : List (String × Op))
    (more : List Op) : opsOn key (ops ++ more.map (Prod.mk other)) = opsOn key ops := by
  simp [opsOn, List.filter_map, Function.comp_def, ne]

theorem host_operate_other (r : Registry) {key other : String} (ne : other ≠ key) (op : Op) :
    (r.operate other op).host key = r.host key :=
  host_setHost_other r ne.symm _

theorem pool_operate_self (r : Registry) (key : String) (op : Op) :
    ((r.operate key op).host key).pool = (r.host key).pool.apply op := by
  rw [operate, host_setHost_self]

theorem pool_operateAll (slots : Nat) (rule : Breaker.Rule) (ops : List (String × Op))
    (key : String) :
    ((operateAll ⟨slots, rule, {}⟩ ops).host key).pool = (Record.of slots (opsOn key ops)).pool := by
  induction ops using List.reverseRecOn with
  | nil => rfl
  | append_singleton ops o ih =>
    obtain ⟨other, op⟩ := o
    have last (r : Registry) : operateAll r (ops ++ [(other, op)]) =
        (operateAll r ops).operate other op := by
      simp [operateAll]
    rw [last]
    by_cases same : other = key
    · subst same
      have own := opsOn_append_self other ops [op]
      rw [List.map_singleton] at own
      rw [pool_operate_self, own, Record.of_append, ih]
      rfl
    · have foreign := opsOn_append_other same ops [op]
      rw [List.map_singleton] at foreign
      rw [host_operate_other _ same, foreign, ih]

def asked (ops : List (String × Op)) : List Nat := ops.flatMap fun o => o.2.asks

theorem asked_append (ops : List (String × Op)) (key : String) (more : List Op) :
    asked (ops ++ more.map (Prod.mk key)) = asked ops ++ more.flatMap Op.asks := by
  rw [asked, List.flatMap_append, List.flatMap_map]
  rfl

theorem asks_opsOn_sublist (key : String) (ops : List (String × Op)) :
    ((opsOn key ops).flatMap Op.asks).Sublist (asked ops) := by
  unfold asked
  induction ops with
  | nil => exact List.Sublist.slnil
  | cons o ops ih =>
    by_cases same : o.1 = key
    · have kept : opsOn key (o :: ops) = o.2 :: opsOn key ops := by simp [opsOn, same]
      rw [kept, List.flatMap_cons, List.flatMap_cons]
      exact (List.Sublist.refl _).append ih
    · have dropped : opsOn key (o :: ops) = opsOn key ops := by simp [opsOn, same]
      rw [dropped, List.flatMap_cons]
      exact ih.trans (List.sublist_append_right _ _)

end Registry

end Herald
