import Herald.Proofs.Isolation.Relabel
import Herald.Proofs.Isolation.Selection

/-! The deliveries to one host among others and the same deliveries alone. Both floors agree on all that has
to do with the host, but for the names of places, rounds and tickets. A turn of a delivery to the host is
taken on both floors; a turn of any other goes unseen. -/
namespace Herald

namespace Selection

noncomputable def planned (s : Selection) (rounds : Nat → Nat) (e : Turn × Nat) : Turn × Nat :=
  (s.turn rounds e.1, s.place e.2)

noncomputable def told (s : Selection) (e : Entry) : Entry := { e with place := s.place e.place }

def Lists (s : Selection) (f : Floor) : Prop := f.jobs <+: s.jobs

theorem Lists.owns {s : Selection} {f : Floor} {place : Nat} {d : Delivery} (lists : s.Lists f)
    (there : f.deliveries[place]? = some d) : s.owns place = (d.job.host == s.key) := by
  have job : f.jobs[place]? = some d.job := by rw [Floor.jobs, List.getElem?_map, there]; rfl
  obtain ⟨inside, is⟩ := List.getElem?_eq_some_iff.1 job
  simp [Selection.owns, List.prefix_iff_getElem?.1 lists place inside, is]

end Selection

namespace Floor

/-- The turns to come for the deliveries to the host are the same and come in the same order. Rounds are the
same if turns are taken by place, and otherwise count the turns of other hosts as well. -/
structure Aligned (s : Selection) (rounds : Nat → Nat) (f g : Floor) : Prop where
  agenda : f.agenda.filter (s.owns ·.2) = g.agenda.map (s.planned rounds)
  mono : StrictMono rounds
  byPlace : g.fairness = .byPlace → rounds = id
  byArrival : g.fairness = .byArrival →
    (∀ c < g.count, rounds c < f.count) ∧ ∀ e ∈ g.agenda, e.1.round < g.count

/-- The first floor has the deliveries to the host among others, and the second has them alone. -/
structure Mirrors (s : Selection) (f g : Floor) : Prop where
  fairness : f.fairness = g.fairness
  rule : f.registry.rule = g.registry.rule
  slots : f.registry.slots = g.registry.slots
  host : f.registry.host s.key = (g.registry.host s.key).relabel s.ticket
  here : ∀ i, f.deliveries[s.place i]? = (g.deliveries[i]?).map (Delivery.relabel s.ticket)
  log : f.log.filter (s.owns ·.place) = g.log.map s.told
  agenda : ∃ rounds, Aligned s rounds f g

structure InStep (s : Selection) (f g : Floor) : Prop where
  now : f.now = g.now
  current : g.fairness = .byPlace → f.current = s.turn id g.current

structure Unseen (s : Selection) (f later : Floor) : Prop where
  fairness : later.fairness = f.fairness
  rule : later.registry.rule = f.registry.rule
  slots : later.registry.slots = f.registry.slots
  host : later.registry.host s.key = f.registry.host s.key
  here : ∀ place, s.owns place = true → later.deliveries[place]? = f.deliveries[place]?
  agenda : later.agenda.filter (s.owns ·.2) = f.agenda.filter (s.owns ·.2)
  log : later.log.filter (s.owns ·.place) = f.log.filter (s.owns ·.place)
  count : f.count ≤ later.count

variable {s : Selection} {f g later : Floor} {rounds : Nat → Nat} {turn : Turn} {place i due : Nat}
  {d : Delivery} {key : String} {p : Delivery.Progress}

section Unseen

theorem Unseen.trans {last : Floor} (unseen : Unseen s f later) (more : Unseen s later last) :
    Unseen s f last where
  fairness := more.fairness.trans unseen.fairness
  rule := more.rule.trans unseen.rule
  slots := more.slots.trans unseen.slots
  host := more.host.trans unseen.host
  here place own := (more.here place own).trans (unseen.here place own)
  agenda := more.agenda.trans unseen.agenda
  log := more.log.trans unseen.log
  count := Nat.le_trans unseen.count more.count

theorem unseen_schedule (f : Floor) (due : Nat) (foreign : s.owns place = false) :
    Unseen s f (f.schedule place due) where
  fairness := rfl
  rule := rfl
  slots := rfl
  host := rfl
  here _ _ := rfl
  agenda := List.filter_cons_of_neg (by simp [foreign])
  log := rfl
  count := Nat.le_succ _

theorem unseen_give (f : Floor) (turn : Turn) (foreign : s.owns place = false) :
    Unseen s f (f.give turn place) where
  fairness := rfl
  rule := rfl
  slots := rfl
  host := rfl
  here _ _ := rfl
  agenda := by
    rw [Floor.give, List.filter_filter]
    refine List.filter_congr fun e _ => ?_
    by_cases same : e.2 = place
    · simp [same, foreign]
    · simp [same]
  log := rfl
  count := Nat.le_refl _

theorem unseen_settle (f : Floor) (p : Delivery.Progress) (foreign : s.owns place = false)
    (apart : key ≠ s.key) : Unseen s f (f.settle place key p) where
  fairness := rfl
  rule := rfl
  slots := rfl
  host := Registry.host_setHost_other _ (Ne.symm apart) _
  here other own := List.getElem?_set_ne fun same => by simp [← same, foreign] at own
  agenda := rfl
  log := by
    have none_ : ((p.seen.map (Entry.mk f.now place)).reverse).filter (s.owns ·.place) = [] := by
      simp [List.filter_reverse, List.filter_map, Function.comp_def, foreign]
    rw [Floor.settle, List.filter_append, none_, List.nil_append]
  count := Nat.le_refl _

theorem unseen_refl (s : Selection) (f : Floor) : Unseen s f f :=
  ⟨rfl, rfl, rfl, rfl, fun _ _ => rfl, rfl, rfl, Nat.le_refl _⟩

theorem unseen_resume (f : Floor) (stage : Stage) (foreign : s.owns place = false) :
    Unseen s f (f.resume place stage) := by
  unfold Floor.resume
  split
  · exact unseen_schedule f _ foreign
  · exact unseen_refl s f

theorem unseen_wake (lists : s.Lists f) (apart : key ≠ s.key) : Unseen s f (f.wake key) := by
  unfold Floor.wake
  split
  · next place granted =>
    obtain ⟨d, there, own⟩ := (Option.any_eq_true _ _).1 (granted?_eq_some.1 granted).1
    simp only [Bool.and_eq_true, beq_iff_eq] at own
    refine unseen_schedule f _ ?_
    rw [lists.owns there, own.1.1]
    simpa using apart
  · exact unseen_refl s f

theorem unseen_take (lists : s.Lists f) (turn : Turn) (there : f.deliveries[place]? = some d)
    (foreign : s.owns place = false) : Unseen s f (f.take turn place) := by
  have apart : d.job.host ≠ s.key := by
    rw [lists.owns there] at foreign
    simpa using foreign
  have jobs := jobs_settle (f := f.give turn place) (p := f.progress turn d) there
    (Delivery.turn_keeps ..).1 d.job.host
  have still : s.Lists (((f.give turn place).settle place d.job.host (f.progress turn d)).resume
      place (f.progress turn d).delivery.stage) := by
    rw [Selection.Lists, jobs_resume, jobs]
    exact lists
  rw [take_eq_steps there]
  exact (unseen_give f turn foreign).trans <| (unseen_settle _ _ foreign apart).trans <|
    (unseen_resume _ _ foreign).trans <| unseen_wake still apart

end Unseen

section Mirrors

theorem Aligned.unseen (aligned : Aligned s rounds f g) (unseen : Unseen s f later) :
    Aligned s rounds later g where
  agenda := unseen.agenda.trans aligned.agenda
  mono := aligned.mono
  byPlace := aligned.byPlace
  byArrival arrival :=
    have ⟨less, old⟩ := aligned.byArrival arrival
    ⟨fun c before => Nat.lt_of_lt_of_le (less c before) unseen.count, old⟩

theorem Mirrors.unseen (mirrors : Mirrors s f g) (unseen : Unseen s f later) :
    Mirrors s later g where
  fairness := unseen.fairness.trans mirrors.fairness
  rule := unseen.rule.trans mirrors.rule
  slots := unseen.slots.trans mirrors.slots
  host := unseen.host.trans mirrors.host
  here i := (unseen.here _ (s.owns_place i)).trans (mirrors.here i)
  log := unseen.log.trans mirrors.log
  agenda :=
    have ⟨rounds, aligned⟩ := mirrors.agenda
    ⟨rounds, aligned.unseen unseen⟩

theorem Mirrors.first? (mirrors : Mirrors s f g)
    (first : Floor.first? f.agenda = some (turn, place)) (own : s.owns place = true) :
    ∃ t i, s.place i = place ∧ t.due = turn.due ∧ (g.fairness = .byPlace → turn = s.turn id t) ∧
      Floor.first? g.agenda = some (t, i) := by
  obtain ⟨rounds, aligned⟩ := mirrors.agenda
  have among : Floor.first? (f.agenda.filter (s.owns ·.2)) = some (turn, place) :=
    first?_filter first own
  rw [aligned.agenda, first?_map (fun a b => s.precedes_turn aligned.mono a.1 b.1)] at among
  obtain ⟨⟨t, i⟩, alone, is⟩ := Option.map_eq_some_iff.1 among
  obtain ⟨rfl, rfl⟩ := Prod.mk.inj is
  exact ⟨t, i, rfl, rfl, fun places => by rw [aligned.byPlace places], alone⟩

theorem Aligned.any (aligned : Aligned s rounds f g) (i : Nat) :
    f.agenda.any (·.2 == s.place i) = g.agenda.any (·.2 == i) := by
  have own : f.agenda.any (·.2 == s.place i) =
      (f.agenda.filter (s.owns ·.2)).any (·.2 == s.place i) := by
    rw [Bool.eq_iff_iff]
    simp only [List.any_eq_true, List.mem_filter, beq_iff_eq]
    constructor
    · rintro ⟨e, mem, is⟩
      exact ⟨e, ⟨mem, by rw [is, s.owns_place]⟩, is⟩
    · rintro ⟨e, ⟨mem, -⟩, is⟩
      exact ⟨e, mem, is⟩
  rw [own, aligned.agenda, List.any_map]
  refine congrArg (g.agenda.any ·) (funext fun e => ?_)
  rw [Bool.eq_iff_iff]
  simp [Selection.planned]

theorem Aligned.give (aligned : Aligned s rounds f g) (turn t : Turn) (i : Nat) :
    Aligned s rounds (f.give turn (s.place i)) (g.give t i) where
  agenda := by
    have kept : (g.agenda.map (s.planned rounds)).filter (·.2 != s.place i) =
        (g.agenda.filter (·.2 != i)).map (s.planned rounds) := by
      rw [List.filter_map]
      refine congrArg _ (List.filter_congr fun e _ => ?_)
      rw [Bool.eq_iff_iff]
      simp [Selection.planned]
    simp only [Floor.give]
    rw [← kept, ← aligned.agenda, List.filter_filter, List.filter_filter]
    exact List.filter_congr fun e _ => Bool.and_comm _ _
  mono := aligned.mono
  byPlace := aligned.byPlace
  byArrival arrival :=
    have ⟨less, old⟩ := aligned.byArrival arrival
    ⟨less, fun e mem => old e (List.mem_filter.1 mem).1⟩

theorem strictMono_countOn {count from_ : Nat} (mono : StrictMono rounds)
    (less : ∀ c < count, rounds c < from_) :
    StrictMono fun c => if c < count then rounds c else from_ + (c - count) := by
  refine strictMono_nat_of_lt_succ fun c => ?_
  have step := mono (Nat.lt_succ_self c)
  have bound := less c
  by_cases old : c < count
  · have := bound old
    simp only [old, if_true]
    split <;> omega
  · simp only [old, if_false]
    split <;> omega

theorem Aligned.schedule (aligned : Aligned s rounds f g) (fairness : f.fairness = g.fairness)
    (current : g.fairness = .byPlace → f.current = s.turn id g.current) (i due : Nat) :
    ∃ rounds, Aligned s rounds (f.schedule (s.place i) due) (g.schedule i due) := by
  cases order : g.fairness with
  | byPlace =>
    obtain rfl := aligned.byPlace order
    refine ⟨id, ?_, aligned.mono, fun _ => rfl, fun arrival => ?_⟩
    · have turn := s.turn_byPlace g.current f.count g.count i due
      simp only [Floor.schedule, fairness, order, current order, turn]
      rw [List.filter_cons_of_pos (by exact s.owns_place i), aligned.agenda]
      rfl
    · simp [Floor.schedule, order] at arrival
  | byArrival =>
    obtain ⟨less, old⟩ := aligned.byArrival order
    let later (c : Nat) : Nat := if c < g.count then rounds c else f.count + (c - g.count)
    have before {c : Nat} (lt : c < g.count) : later c = rounds c := if_pos lt
    have here : later g.count = f.count := by simp [later]
    have mono : StrictMono later := strictMono_countOn aligned.mono less
    refine ⟨later, ?_, mono, fun places => ?_, fun _ => ⟨fun c lt => ?_, fun e mem => ?_⟩⟩
    · have same : g.agenda.map (s.planned later) = g.agenda.map (s.planned rounds) :=
        List.map_congr_left fun e mem => by
          simp only [Selection.planned, Selection.turn, before (old e mem)]
      simp only [Floor.schedule, fairness, order, Fairness.turn]
      rw [List.filter_cons_of_pos (by exact s.owns_place i), aligned.agenda, List.map_cons, same]
      simp [Selection.planned, Selection.turn, Selection.number, here]
    · simp [Floor.schedule, order] at places
    · have bound := less c
      simp only [Floor.schedule, later] at lt ⊢
      split <;> omega
    · rcases List.mem_cons.1 mem with rfl | mem
      · simp only [Floor.schedule, order, Fairness.turn]
        exact Nat.lt_succ_self _
      · exact Nat.lt_succ_of_lt (old e mem)

theorem Mirrors.schedule (mirrors : Mirrors s f g) (inStep : InStep s f g) (i due : Nat) :
    Mirrors s (f.schedule (s.place i) due) (g.schedule i due) where
  fairness := mirrors.fairness
  rule := mirrors.rule
  slots := mirrors.slots
  host := mirrors.host
  here := mirrors.here
  log := mirrors.log
  agenda :=
    have ⟨_, aligned⟩ := mirrors.agenda
    aligned.schedule mirrors.fairness inStep.current i due

theorem InStep.schedule (inStep : InStep s f g) (place i due : Nat) :
    InStep s (f.schedule place due) (g.schedule i due) :=
  ⟨inStep.now, inStep.current⟩

theorem Mirrors.give (mirrors : Mirrors s f g) (turn t : Turn) (i : Nat) :
    Mirrors s (f.give turn (s.place i)) (g.give t i) where
  fairness := mirrors.fairness
  rule := mirrors.rule
  slots := mirrors.slots
  host := mirrors.host
  here := mirrors.here
  log := mirrors.log
  agenda :=
    have ⟨rounds, aligned⟩ := mirrors.agenda
    ⟨rounds, aligned.give turn t i⟩

theorem Mirrors.settle (mirrors : Mirrors s f g) (now : f.now = g.now) (i : Nat)
    (p : Delivery.Progress) :
    Mirrors s (f.settle (s.place i) s.key (p.relabel s.ticket)) (g.settle i s.key p) where
  fairness := mirrors.fairness
  rule := mirrors.rule
  slots := mirrors.slots
  host := by
    simp only [Floor.settle, Registry.host_setHost_self]
    rfl
  here j := by
    simp only [Floor.settle]
    by_cases same : i = j
    · subst same
      rw [List.getElem?_set_self', List.getElem?_set_self', mirrors.here i]
      cases g.deliveries[i]? <;> rfl
    · rw [List.getElem?_set_ne (by simpa using same), List.getElem?_set_ne same, mirrors.here j]
  log := by
    have own : ((p.seen.map (Entry.mk f.now (s.place i))).reverse).filter (s.owns ·.place) =
        ((p.seen.map (Entry.mk g.now i)).reverse).map s.told := by
      rw [List.filter_eq_self.2 (by simp), List.map_reverse, List.map_map, now]
      rfl
    simp only [Floor.settle, List.filter_append, List.map_append, ← mirrors.log]
    rw [← own]
    rfl
  agenda :=
    have ⟨rounds, aligned⟩ := mirrors.agenda
    ⟨rounds, ⟨aligned.agenda, aligned.mono, aligned.byPlace, aligned.byArrival⟩⟩

theorem Mirrors.resume (mirrors : Mirrors s f g) (inStep : InStep s f g) (i : Nat) (stage : Stage) :
    Mirrors s (f.resume (s.place i) stage) (g.resume i stage) ∧
      InStep s (f.resume (s.place i) stage) (g.resume i stage) := by
  unfold Floor.resume
  split
  · exact ⟨mirrors.schedule inStep i _, inStep.schedule _ i _⟩
  · exact ⟨mirrors, inStep⟩

theorem Mirrors.isGrantable (mirrors : Mirrors s f g) (i : Nat) :
    f.isGrantable s.key (s.place i) = g.isGrantable s.key i := by
  obtain ⟨rounds, aligned⟩ := mirrors.agenda
  have pool : f.pool s.key = (g.pool s.key).relabel s.ticket := by
    rw [Floor.pool, mirrors.host]
    rfl
  simp only [Floor.isGrantable, mirrors.here i, aligned.any i, pool]
  cases g.deliveries[i]? with
  | none => rfl
  | some d =>
    have granted := d.isGranted_relabel s.ticket_injective (g.pool s.key)
    simp only [Option.map_some, Option.any_some, granted]
    rfl

theorem Mirrors.granted? (mirrors : Mirrors s f g) (lists : s.Lists f) :
    f.granted? s.key = (g.granted? s.key).map s.place := by
  have own {place : Nat} (grantable : f.isGrantable s.key place = true) : ∃ i, s.place i = place := by
    obtain ⟨d, there, conditions⟩ := (Option.any_eq_true _ _).1 grantable
    simp only [Bool.and_eq_true] at conditions
    exact s.exists_place ((lists.owns there).trans conditions.1.1)
  cases alone : g.granted? s.key with
  | some i =>
    obtain ⟨grantable, before⟩ := granted?_eq_some.1 alone
    refine granted?_eq_some.2 ⟨(mirrors.isGrantable i).trans grantable, fun other less => ?_⟩
    refine Bool.eq_false_iff.2 fun also => ?_
    obtain ⟨j, rfl⟩ := own also
    rw [mirrors.isGrantable, before j (s.place_strictMono.lt_iff_lt.1 less)] at also
    cases also
  | none =>
    cases among : f.granted? s.key with
    | none => rfl
    | some place =>
      obtain ⟨grantable, before⟩ := granted?_eq_some.1 among
      obtain ⟨i, rfl⟩ := own grantable
      have also : g.granted? s.key = some i := by
        refine granted?_eq_some.2 ⟨(mirrors.isGrantable i).symm.trans grantable, fun j less => ?_⟩
        exact (mirrors.isGrantable j).symm.trans (before _ (s.place_strictMono less))
      simp [alone] at also

theorem Mirrors.wake (mirrors : Mirrors s f g) (inStep : InStep s f g) (lists : s.Lists f) :
    Mirrors s (f.wake s.key) (g.wake s.key) := by
  simp only [Floor.wake, mirrors.granted? lists]
  cases g.granted? s.key with
  | none => exact mirrors
  | some i =>
    simp only [Option.map_some, inStep.now]
    exact mirrors.schedule inStep i _

/-- A delivery to the host takes the same turn on both floors. -/
theorem Mirrors.take (mirrors : Mirrors s f g) (lists : s.Lists f) {t : Turn}
    (now : max f.now turn.due = max g.now t.due)
    (order : g.fairness = .byPlace → turn = s.turn id t) (there : g.deliveries[i]? = some d) :
    Mirrors s (f.take turn (s.place i)) (g.take t i) := by
  have among : f.deliveries[s.place i]? = some (d.relabel s.ticket) := by
    rw [mirrors.here i, there, Option.map_some]
  have host : d.job.host = s.key := by
    have own := lists.owns among
    rw [s.owns_place] at own
    exact beq_iff_eq.1 own.symm
  have pools : f.registry.hasPools = g.registry.hasPools := by
    rw [Registry.hasPools, Registry.hasPools, mirrors.slots]
  have does : f.progress turn (d.relabel s.ticket) = (g.progress t d).relabel s.ticket := by
    have same := d.turn_relabel s.ticket_injective g.registry.rule g.registry.hasPools
      (max g.now t.due) (g.registry.host s.key)
    rw [← mirrors.host] at same
    simp only [Floor.progress, Delivery.relabel, host, mirrors.rule, pools, now] at same ⊢
    exact same
  have given : Mirrors s (f.give turn (s.place i)) (g.give t i) := mirrors.give turn t i
  have together : InStep s (f.give turn (s.place i)) (g.give t i) := by
    refine ⟨now, fun places => ?_⟩
    obtain rfl := order places
    simp only [Floor.give, now]
    rfl
  have settled := given.settle together.now i (g.progress t d)
  have steps : InStep s
      ((f.give turn (s.place i)).settle (s.place i) s.key ((g.progress t d).relabel s.ticket))
      ((g.give t i).settle i s.key (g.progress t d)) := ⟨together.now, together.current⟩
  have jobs := jobs_settle (f := f.give turn (s.place i)) (p := (g.progress t d).relabel s.ticket)
    among (Delivery.turn_keeps ..).1 s.key
  obtain ⟨resumed, still⟩ := settled.resume steps i (g.progress t d).delivery.stage
  have woken := resumed.wake still (by rw [Selection.Lists, jobs_resume, jobs]; exact lists)
  rw [take_eq_steps among, take_eq_steps there, does]
  rw [← host] at woken
  exact woken

/-- Both floors are played to floors that agree on the host. -/
theorem Mirrors.plays {last : Floor} (plays : Plays f last) (planned : Planned s.guests f)
    (alone : Planned s.guests g) (lists : s.Lists f) (mirrors : Mirrors s f g) :
    ∃ ends, Plays g ends ∧ Mirrors s last ends ∧ s.Lists last := by
  induction plays generalizing g with
  | @ends f none_ =>
    obtain ⟨rounds, aligned⟩ := mirrors.agenda
    have empty := aligned.agenda
    rw [none_, List.filter_nil] at empty
    exact ⟨g, .ends (List.map_eq_nil_iff.1 empty.symm), mirrors, lists⟩
  | @goes f last turn place first _ ih =>
    obtain ⟨d, there, -⟩ := planned.ready _ (mem_of_first? first)
    have later : s.Lists (f.take turn place) := by
      rw [Selection.Lists, jobs_take turn there]
      exact lists
    cases own : s.owns place with
    | false =>
      exact ih (planned.take first) alone later (mirrors.unseen (unseen_take lists turn there own))
    | true =>
      obtain ⟨t, i, rfl, due, order, also⟩ := mirrors.first? first own
      obtain ⟨o, at_, -⟩ := alone.ready _ (mem_of_first? also)
      -- No turn lies in the past of either floor, so it is taken when it is due.
      have now : max f.now turn.due = max g.now t.due := by
        have ahead := planned.ahead _ (mem_of_first? first)
        have ahead' := alone.ahead _ (mem_of_first? also)
        dsimp only at ahead ahead'
        omega
      obtain ⟨ends, rest, same⟩ := ih (planned.take first) (alone.take also) later
        (mirrors.take lists now order at_)
      exact ⟨ends, .goes also rest, same⟩

end Mirrors

end Floor

end Herald
