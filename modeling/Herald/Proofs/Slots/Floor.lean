import Herald.Delivery.Floor
import Herald.Proofs.Slots.Delivery
import Mathlib.Data.List.Perm.Subperm

/-! The pools of all hosts while deliveries take their turns. Every step on a floor is operations with one
ticket on one host, so the account of the operations goes on, and with it the bound on how many deliveries
have a slot at once. -/
namespace Herald

open SlotPool

namespace Floor

def pool (f : Floor) (key : String) : SlotPool := (f.registry.host key).pool

def names (f : Floor) : List (String × Nat) := f.deliveries.map fun d => (d.job.host, d.ticket)

structure Accounted (slots : Nat) (ops : List (String × Op)) (f : Floor) : Prop where
  pools : ∀ key, f.pool key = (Record.of slots (Registry.opsOn key ops)).pool
  distinct : (Registry.asked ops).Nodup
  numbered : ∀ ticket ∈ Registry.asked ops, ticket < f.tickets

structure Changed (key : String) (ticket : Nat) (more : List Op) (f later : Floor) : Prop where
  pool : later.pool key = (f.pool key).applyAll more
  others : ∀ other ≠ key, later.pool other = f.pool other
  own : ∀ op ∈ more, op.ticket = ticket

variable {slots : Nat} {ops : List (String × Op)} {more : List Op} {f later : Floor} {key : String}
  {ticket : Nat}

theorem Accounted.sound (accounted : Accounted slots ops f) (key : String) :
    (Record.of slots (Registry.opsOn key ops)).Sound slots ∧
      (Record.of slots (Registry.opsOn key ops)).asked.Nodup := by
  have distinct := accounted.distinct.sublist (Registry.asks_opsOn_sublist key ops)
  exact ⟨Record.sound_of slots _ distinct, Record.asked_of slots _ ▸ distinct⟩

theorem Accounted.once (accounted : Accounted slots ops f) (key : String) :
    (f.pool key).held.Nodup := by
  rw [accounted.pools]
  exact (accounted.sound key).1.once

theorem Accounted.apart (accounted : Accounted slots ops f) (key : String) :
    ∀ t ∈ (f.pool key).held, t ∉ (f.pool key).waiting := by
  rw [accounted.pools]
  obtain ⟨sound, distinct⟩ := accounted.sound key
  exact fun t mem => sound.not_waiting distinct mem

theorem Accounted.append (accounted : Accounted slots ops f)
    (changed : Changed key ticket more f later) (le : f.tickets ≤ later.tickets)
    (asks : more.flatMap Op.asks = [] ∨ more.flatMap Op.asks = [ticket] ∧
      ticket ∉ Registry.asked ops ∧ ticket < later.tickets) :
    Accounted slots (ops ++ more.map (Prod.mk key)) later := by
  refine ⟨fun other => ?_, ?_, ?_⟩
  · by_cases same : other = key
    · subst same
      rw [Registry.opsOn_append_self, Record.pool_of, applyAll_append, ← Record.pool_of,
        ← accounted.pools, changed.pool]
    · rw [Registry.opsOn_append_other (Ne.symm same), ← accounted.pools, changed.others _ same]
  · rw [Registry.asked_append]
    rcases asks with none | ⟨one, fresh, -⟩
    · rw [none, List.append_nil]
      exact accounted.distinct
    · rw [one]
      exact List.nodup_append_comm.1 (List.nodup_cons.2 ⟨fresh, accounted.distinct⟩)
  · rw [Registry.asked_append]
    intro t mem
    rcases List.mem_append.1 mem with mem | mem
    · exact Nat.lt_of_lt_of_le (accounted.numbered t mem) le
    · rcases asks with none | ⟨one, -, below⟩
      · rw [none] at mem
        cases mem
      · rw [one, List.mem_singleton] at mem
        exact mem ▸ below

theorem Changed.fits (changed : Changed key ticket more f later) {d : Delivery}
    (ne : d.ticket ≠ ticket) (fits : d.Fits (f.pool d.job.host)) :
    d.Fits (later.pool d.job.host) := by
  by_cases same : d.job.host = key
  · rw [same] at fits ⊢
    rw [changed.pool]
    exact ⟨(has_applyAll_of_ne changed.own ne).trans fits.has,
      fun needs running => mem_held_applyAll changed.own ne (fits.holds needs running)⟩
  · rw [changed.others _ same]
    exact fits

theorem Changed.has (changed : Changed key ticket more f later) {other : String} {t : Nat}
    (ne : other ≠ key ∨ t ≠ ticket) : (later.pool other).Has t ↔ (f.pool other).Has t := by
  by_cases same : other = key
  · subst same
    rw [changed.pool]
    exact has_applyAll_of_ne changed.own (ne.resolve_left (not_not.2 rfl))
  · rw [changed.others _ same]

/-- What holds of a floor whenever a turn is over: every ticket in a pool is that of a delivery to this host
or of a guest, and every delivery is in order with the pool of its host. -/
structure Kept (slots : Nat) (guests : List (String × Nat)) (f : Floor) : Prop where
  account : ∃ ops, Accounted slots ops f ∧
    ∀ d ∈ f.deliveries, d.stage = .arriving → d.ticket ∉ Registry.asked ops
  named : (f.names.map Prod.snd).Nodup
  below : ∀ n ∈ f.names ++ guests, n.2 < f.tickets
  strangers : ∀ n ∈ f.names, ∀ g ∈ guests, n.2 ≠ g.2
  owned : ∀ key ticket, (f.pool key).Has ticket → (key, ticket) ∈ f.names ++ guests
  fits : ∀ d ∈ f.deliveries, d.Fits (f.pool d.job.host)

variable {guests : List (String × Nat)}

theorem mem_names {d : Delivery} (mem : d ∈ f.deliveries) : (d.job.host, d.ticket) ∈ f.names :=
  List.mem_map.2 ⟨d, mem, rfl⟩

theorem kept_start (slots : Nat) (rule : Breaker.Rule) (fairness : Fairness) (now : Nat) :
    Kept slots [] { registry := ⟨slots, rule, {}⟩, fairness := fairness, now := now } where
  account := ⟨[], ⟨fun _ => rfl, List.nodup_nil, by simp [Registry.asked]⟩, by simp⟩
  named := List.nodup_nil
  below := by simp [names]
  strangers := by simp [names]
  owned := fun _ _ has => by
    rcases has with mem | mem <;> cases mem
  fits := by simp

theorem Kept.congr (kept : Kept slots guests f) (pools : ∀ key, later.pool key = f.pool key)
    (deliveries : later.deliveries = f.deliveries) (tickets : later.tickets = f.tickets) :
    Kept slots guests later := by
  obtain ⟨⟨ops, ⟨same, distinct, numbered⟩, unasked⟩, named, below, strangers, owned, fits⟩ := kept
  have names : later.names = f.names := by rw [names, names, deliveries]
  refine ⟨⟨ops, ⟨fun key => (pools key).trans (same key), distinct, tickets ▸ numbered⟩,
    deliveries ▸ unasked⟩, names ▸ named, ?_, names ▸ strangers, ?_, ?_⟩
  · rw [names, tickets]
    exact below
  · intro key ticket has
    rw [pools] at has
    rw [names]
    exact owned key ticket has
  · intro d mem
    rw [pools]
    exact fits d (deliveries ▸ mem)

theorem Kept.add (kept : Kept slots guests f) (job : Job) : Kept slots guests (f.add job) := by
  obtain ⟨⟨ops, ⟨pools, distinct, numbered⟩, unasked⟩, named, below, strangers, owned, fits⟩ := kept
  have names : (f.add job).names = f.names ++ [(job.host, f.tickets)] := by
    simp [Floor.names, Floor.add, schedule]
  have deliveries : (f.add job).deliveries = f.deliveries ++ [{ job := job, ticket := f.tickets }] :=
    rfl
  have tickets : (f.add job).tickets = f.tickets + 1 := rfl
  have same (key : String) : (f.add job).pool key = f.pool key := rfl
  have fresh : ∀ n ∈ f.names ++ guests, n.2 ≠ f.tickets := fun n mem => Nat.ne_of_lt (below n mem)
  refine ⟨⟨ops, ⟨pools, distinct, fun t mem => ?_⟩, ?_⟩, ?_, ?_, ?_, ?_, ?_⟩
  · have := numbered t mem
    rw [tickets]
    omega
  · intro d mem arriving asked
    rw [deliveries, List.mem_append, List.mem_singleton] at mem
    rcases mem with mem | rfl
    · exact unasked d mem arriving asked
    · exact absurd (numbered _ asked) (Nat.lt_irrefl _)
  · rw [names, List.map_append]
    refine List.nodup_append_comm.1 (List.nodup_cons.2 ⟨?_, named⟩)
    intro mem
    obtain ⟨n, mem, is⟩ := List.mem_map.1 mem
    exact fresh n (List.mem_append_left _ mem) is
  · intro n mem
    rw [names, List.append_assoc, List.mem_append, List.mem_append, List.mem_singleton] at mem
    rw [tickets]
    rcases mem with mem | rfl | mem
    · have := below n (List.mem_append_left _ mem)
      omega
    · exact Nat.lt_succ_self _
    · have := below n (List.mem_append_right _ mem)
      omega
  · intro n mem g guest
    rw [names, List.mem_append, List.mem_singleton] at mem
    rcases mem with mem | rfl
    · exact strangers n mem g guest
    · exact (fresh g (List.mem_append_right _ guest)).symm
  · intro key ticket has
    have := owned key ticket has
    rw [names, List.append_assoc]
    exact (List.mem_append.1 this).elim (List.mem_append_left _)
      fun mem => List.mem_append_right _ (List.mem_append_right _ mem)
  · intro d mem
    rw [same]
    rw [deliveries, List.mem_append, List.mem_singleton] at mem
    rcases mem with mem | rfl
    · exact fits d mem
    · refine ⟨⟨fun has => ?_, ?_⟩, ?_⟩
      · exact absurd rfl (fresh _ (owned _ _ has))
      · rintro ⟨-, underway⟩
        cases underway
      · intro _ running
        cases running

@[simp] theorem registry_wake (f : Floor) (key : String) : (f.wake key).registry = f.registry := by
  unfold wake
  split <;> rfl

@[simp] theorem deliveries_wake (f : Floor) (key : String) :
    (f.wake key).deliveries = f.deliveries := by
  unfold wake
  split <;> rfl

@[simp] theorem tickets_wake (f : Floor) (key : String) : (f.wake key).tickets = f.tickets := by
  unfold wake
  split <;> rfl

theorem take_eq (turn : Turn) {place : Nat} {d : Delivery} (at_ : f.deliveries[place]? = some d) :
    ∃ now, let p := d.turn f.registry.rule f.registry.hasPools now (f.registry.host d.job.host)
      (f.take turn place).registry = f.registry.setHost d.job.host p.host ∧
      (f.take turn place).deliveries = f.deliveries.set place p.delivery ∧
      (f.take turn place).tickets = f.tickets := by
  refine ⟨max f.now turn.due, ?_⟩
  simp only [take, at_, registry_wake, deliveries_wake, tickets_wake]
  split <;> exact ⟨rfl, rfl, rfl⟩

theorem pool_setHost {host : HostState} (made : later.registry = f.registry.setHost key host) :
    later.pool key = host.pool ∧ ∀ other ≠ key, later.pool other = f.pool other := by
  refine ⟨?_, fun other ne => ?_⟩
  · rw [pool, made, Registry.host_setHost_self]
  · rw [pool, made, Registry.host_setHost_other _ ne, pool]

theorem mem_set_cases {l : List Delivery} (nodup : (l.map Delivery.ticket).Nodup) {place : Nat}
    {d next other : Delivery} (at_ : l[place]? = some d) (mem : other ∈ l.set place next) :
    other = next ∨ (other ∈ l ∧ other.ticket ≠ d.ticket) := by
  obtain ⟨i, is⟩ := List.mem_iff_getElem?.1 mem
  by_cases same : place = i
  · subst same
    rw [List.getElem?_set_self' , at_] at is
    exact .inl (by simpa using is.symm)
  · rw [List.getElem?_set_ne same] at is
    refine .inr ⟨List.mem_iff_getElem?.2 ⟨i, is⟩, fun ticket => same ?_⟩
    have inside : place < (l.map Delivery.ticket).length := by
      rw [List.length_map]
      exact (List.getElem?_eq_some_iff.1 at_).1
    refine (List.getElem?_inj inside nodup).1 ?_
    rw [List.getElem?_map, List.getElem?_map, at_, is]
    simp [ticket]

theorem Kept.sound (kept : Kept slots guests f) (key : String) :
    (f.pool key).held.Nodup ∧ ∀ t ∈ (f.pool key).held, t ∉ (f.pool key).waiting := by
  obtain ⟨ops, accounted, -⟩ := kept.account
  exact ⟨accounted.once key, accounted.apart key⟩

/-- What a delivery does at its host keeps everything, as long as its ticket is the only one it uses. -/
theorem Kept.of_turned (kept : Kept slots guests f) {place : Nat} {d : Delivery}
    {p : Delivery.Progress} (at_ : f.deliveries[place]? = some d)
    (turned : d.Turned (f.pool d.job.host) p)
    (registry : later.registry = f.registry.setHost d.job.host p.host)
    (deliveries : later.deliveries = f.deliveries.set place p.delivery)
    (tickets : later.tickets = f.tickets) : Kept slots guests later := by
  obtain ⟨⟨ops, accounted, unasked⟩, named, below, strangers, owned, fits⟩ := kept
  have mem : d ∈ f.deliveries := List.mem_of_getElem? at_
  obtain ⟨ticket, job, begun, fitsNext, more, pool, own, asks⟩ := turned
  obtain ⟨here, others⟩ := pool_setHost registry
  have changed : Changed d.job.host d.ticket more f later := ⟨here.trans pool, others, own⟩
  have names : later.names = f.names := by
    have named : f.names[place]? = some (d.job.host, d.ticket) := by
      rw [Floor.names, List.getElem?_map, at_]
      rfl
    obtain ⟨inside, is⟩ := List.getElem?_eq_some_iff.1 named
    rw [Floor.names, deliveries, List.map_set, ticket, job, ← is]
    exact List.set_getElem_self inside
  have tickets_nodup : (f.deliveries.map Delivery.ticket).Nodup := by
    simpa [Floor.names, Function.comp_def] using named
  have own_below : d.ticket < f.tickets := below _ (List.mem_append_left _ (mem_names mem))
  refine ⟨⟨_, accounted.append changed (Nat.le_of_eq tickets.symm) ?_, ?_⟩, names ▸ named, ?_,
    names ▸ strangers, ?_, ?_⟩
  · refine asks.imp_right fun one => ⟨one.1, unasked d mem one.2, ?_⟩
    rw [tickets]
    exact own_below
  · intro other still arriving
    rw [deliveries] at still
    rcases mem_set_cases tickets_nodup at_ still with rfl | ⟨old, ne⟩
    · exact absurd arriving begun
    · rw [Registry.asked_append, List.mem_append, not_or]
      refine ⟨unasked other old arriving, fun asked => ?_⟩
      rcases asks with none | ⟨one, -⟩
      · rw [none] at asked
        cases asked
      · rw [one, List.mem_singleton] at asked
        exact ne asked
  · rw [names, tickets]
    exact below
  · intro key t has
    rw [names]
    by_cases ours : key = d.job.host ∧ t = d.ticket
    · rw [ours.1, ours.2]
      exact List.mem_append_left _ (mem_names mem)
    · exact owned key t ((changed.has (not_and_or.1 ours)).1 has)
  · intro other still
    rw [deliveries] at still
    rcases mem_set_cases tickets_nodup at_ still with rfl | ⟨old, ne⟩
    · rw [job, here]
      exact fitsNext
    · exact changed.fits ne (fits other old)

theorem Kept.take (kept : Kept slots guests f) (turn : Turn) (place : Nat) :
    Kept slots guests (f.take turn place) := by
  cases at_ : f.deliveries[place]? with
  | none =>
    have same : (f.take turn place).registry = f.registry ∧
        (f.take turn place).deliveries = f.deliveries ∧
        (f.take turn place).tickets = f.tickets := by
      simp [Floor.take, at_]
    exact kept.congr (fun key => by rw [pool, same.1, pool]) same.2.1 same.2.2
  | some d =>
    obtain ⟨now, registry, deliveries, tickets⟩ := take_eq turn at_
    obtain ⟨once, apart⟩ := kept.sound d.job.host
    have turned := Delivery.turned_turn f.registry.rule f.registry.hasPools now once apart
      (kept.fits d (List.mem_of_getElem? at_))
    exact kept.of_turned at_ turned registry deliveries tickets

theorem Kept.ask (kept : Kept slots guests f) (key : String) :
    Kept slots ((key, f.tickets) :: guests) (f.ask key).1 := by
  obtain ⟨⟨ops, accounted, unasked⟩, named, below, strangers, owned, fits⟩ := kept
  have made : (f.ask key).1.registry = f.registry.setHost key
      { f.registry.host key with pool := (f.pool key).request f.tickets } := rfl
  obtain ⟨here, others⟩ := pool_setHost made
  have changed : Changed key f.tickets [.request f.tickets] f (f.ask key).1 :=
    ⟨here, others, by simp [Op.ticket]⟩
  have tickets : (f.ask key).1.tickets = f.tickets + 1 := rfl
  have names : (f.ask key).1.names = f.names := rfl
  have fresh : ∀ n ∈ f.names, n.2 ≠ f.tickets := fun n mem =>
    Nat.ne_of_lt (below n (List.mem_append_left _ mem))
  have unused : f.tickets ∉ Registry.asked ops := fun mem =>
    Nat.lt_irrefl _ (accounted.numbered _ mem)
  refine ⟨⟨_, accounted.append changed (Nat.le_succ _) (.inr ⟨rfl, unused, Nat.lt_succ_self _⟩),
    ?_⟩, named, ?_, ?_, ?_, ?_⟩
  · intro d mem arriving
    rw [Registry.asked_append, List.mem_append, not_or]
    exact ⟨unasked d mem arriving, by simpa [Op.asks] using fresh _ (mem_names mem)⟩
  · intro n mem
    rw [names, List.mem_append, List.mem_cons] at mem
    rw [tickets]
    rcases mem with mem | rfl | mem
    · have := below n (List.mem_append_left _ mem)
      omega
    · exact Nat.lt_succ_self _
    · have := below n (List.mem_append_right _ mem)
      omega
  · intro n mem g guest
    rcases List.mem_cons.1 guest with rfl | guest
    · exact fresh n mem
    · exact strangers n mem g guest
  · intro other t has
    by_cases new : other = key ∧ t = f.tickets
    · rw [new.1, new.2]
      exact List.mem_append_right _ List.mem_cons_self
    · refine (List.mem_append.1 (owned other t ((changed.has (not_and_or.1 new)).1 has))).elim
        (List.mem_append_left _) fun mem => ?_
      exact List.mem_append_right _ (List.mem_cons_of_mem _ mem)
  · exact fun d mem => changed.fits (fresh _ (mem_names mem)) (fits d mem)

theorem Accounted.giveUp (accounted : Accounted slots ops f) (key : String) (ticket : Nat) :
    ∃ op : Op, (f.giveUp key ticket).registry =
        f.registry.setHost key { f.registry.host key with pool := (f.pool key).apply op } ∧
      op.ticket = ticket ∧ op.asks = [] ∧ ¬ ((f.pool key).apply op).Has ticket := by
  have made : (f.giveUp key ticket).registry = f.registry.setHost key
      { f.registry.host key with pool := if (f.pool key).isHeld ticket
          then (f.pool key).release ticket else (f.pool key).abandon ticket } :=
    registry_wake _ _
  by_cases held : (f.pool key).isHeld ticket = true
  · have mem : ticket ∈ (f.pool key).held := by simpa [isHeld] using held
    rw [if_pos held] at made
    exact ⟨.release ticket, made, rfl, rfl,
      not_has_release (accounted.once key) (accounted.apart key ticket mem)⟩
  · have unheld : ticket ∉ (f.pool key).held := by simpa [isHeld] using held
    rw [if_neg held] at made
    refine ⟨.abandon ticket, made, rfl, rfl, not_has_abandon ?_ unheld⟩
    obtain ⟨sound, distinct⟩ := accounted.sound key
    rw [accounted.pools]
    exact (sound.nodup distinct).of_append_right

theorem Kept.giveUp (kept : Kept slots guests f) {key : String} {ticket : Nat}
    (guest : (key, ticket) ∈ guests) :
    Kept slots (guests.erase (key, ticket)) (f.giveUp key ticket) := by
  obtain ⟨⟨ops, accounted, unasked⟩, named, below, strangers, owned, fits⟩ := kept
  obtain ⟨op, made, own, asks, gone⟩ := accounted.giveUp key ticket
  have deliveries : (f.giveUp key ticket).deliveries = f.deliveries := deliveries_wake _ _
  have tickets : (f.giveUp key ticket).tickets = f.tickets := tickets_wake _ _
  have names : (f.giveUp key ticket).names = f.names := by rw [Floor.names, deliveries, Floor.names]
  obtain ⟨here, others⟩ := pool_setHost made
  have changed : Changed key ticket [op] f (f.giveUp key ticket) :=
    ⟨here, others, by simp [own]⟩
  have quiet : [op].flatMap Op.asks = [] := by simp [asks]
  refine ⟨⟨_, accounted.append changed (Nat.le_of_eq tickets.symm) (.inl quiet), ?_⟩,
    names ▸ named, ?_, ?_, ?_, ?_⟩
  · rw [deliveries, Registry.asked_append, quiet, List.append_nil]
    exact unasked
  · intro n mem
    rw [names] at mem
    rw [tickets]
    exact below n ((List.mem_append.1 mem).elim (List.mem_append_left _)
      fun mem => List.mem_append_right _ (List.mem_of_mem_erase mem))
  · intro n mem g still
    rw [names] at mem
    exact strangers n mem g (List.mem_of_mem_erase still)
  · intro other t has
    have ne : ¬ (other = key ∧ t = ticket) := by
      rintro ⟨rfl, rfl⟩
      rw [here] at has
      exact gone has
    rw [names]
    refine (List.mem_append.1 (owned other t ((changed.has (not_and_or.1 ne)).1 has))).elim
      (List.mem_append_left _) fun mem => List.mem_append_right _ ?_
    exact (List.mem_erase_of_ne fun same => ne (Prod.mk.inj same)).2 mem
  · intro d mem
    rw [deliveries] at mem
    exact changed.fits (strangers _ (mem_names mem) _ guest) (fits d mem)

theorem Kept.countP_occupies_le (kept : Kept slots guests f) (key : String) :
    (f.deliveries.countP fun d => d.job.host == key && d.occupies (f.pool key)) ≤ max 1 slots := by
  obtain ⟨⟨ops, accounted, -⟩, named, -, -, -, fits⟩ := kept
  have conserved := (accounted.sound key).1.conserved
  rw [← accounted.pools] at conserved
  rw [List.countP_eq_length_filter, ← List.length_map (f := Delivery.ticket)]
  refine Nat.le_trans (List.Subperm.length_le (List.subperm_of_subset ?_ ?_))
    (Nat.le.intro conserved)
  · refine List.Nodup.sublist (List.filter_sublist.map _) ?_
    simpa [names, Function.comp_def] using named
  · intro ticket mem
    obtain ⟨d, chosen, rfl⟩ := List.mem_map.1 mem
    obtain ⟨there, occupies⟩ := List.mem_filter.1 chosen
    obtain ⟨host, occupies⟩ := Bool.and_eq_true_iff.1 occupies
    have host : d.job.host = key := by simpa using host
    exact (host ▸ fits d there).held occupies

theorem Kept.available_of_idle (kept : Kept slots guests f) {key : String}
    (idle : ∀ d ∈ f.deliveries, d.job.host = key → d.stage.isUnderway = false)
    (alone : ∀ ticket, (key, ticket) ∉ guests) : (f.pool key).available = max 1 slots := by
  obtain ⟨⟨ops, accounted, -⟩, -, -, -, owned, fits⟩ := kept
  have conserved := (accounted.sound key).1.conserved
  rw [← accounted.pools] at conserved
  have none_held : (f.pool key).held = [] := by
    refine List.eq_nil_iff_forall_not_mem.2 fun ticket mem => ?_
    rcases List.mem_append.1 (owned key ticket (.inl mem)) with owner | guest
    · obtain ⟨d, there, is⟩ := List.mem_map.1 owner
      obtain ⟨rfl, rfl⟩ := Prod.mk.inj is
      have underway := ((fits d there).has.1 (.inl mem)).2
      rw [idle d there rfl] at underway
      cases underway
    · exact alone ticket guest
  rw [none_held] at conserved
  simpa using conserved

theorem Kept.available_of_over (kept : Kept slots guests f) {key : String}
    (done : ∀ d ∈ f.deliveries, d.job.host = key → d.isOver = true)
    (alone : ∀ ticket, (key, ticket) ∉ guests) : (f.pool key).available = max 1 slots := by
  refine kept.available_of_idle (fun d mem host => ?_) alone
  have ended := done d mem host
  unfold Delivery.isOver Delivery.ending? at ended
  cases stage : d.stage <;> simp [stage, Stage.isUnderway] at ended ⊢

end Floor

end Herald
