import Herald.Proofs.Completion.Regular
import Herald.Proofs.Schedule.Turn

/-! Floors on time. While the first turn always comes first, a run has each of its turns when it is due, so
its deeds are at the times that its plan gives them, whatever is done at the same time elsewhere. -/
namespace Herald.Floor

variable {f later : Floor} {turn : Turn} {place : Nat} {d : Delivery} {p : Delivery.Progress}
  {guests : Nat}

theorem due_turn {fairness : Fairness} {current : Turn} {due : Nat} (le : current.due ≤ due)
    (count place : Nat) : (fairness.turn current count place due).due = due := by
  unfold Fairness.turn
  cases fairness with
  | byArrival => rfl
  | byPlace =>
    simp only
    split
    · rfl
    · next late =>
      have same : current.due = due := Nat.le_antisymm le (Nat.le_of_not_lt late)
      split <;> exact same

/-- All that taking a turn when it is due does to a floor. A turn that is new is that of the delivery when
its run goes on, or that of someone who was given a slot. -/
structure Took (f : Floor) (turn : Turn) (place : Nat) (d : Delivery) (p : Delivery.Progress)
    (later : Floor) : Prop where
  there : f.deliveries[place]? = some d
  acted : d.Acted f.registry.rule f.registry.hasPools turn.due (f.registry.host d.job.host) p
  job : p.delivery.job = d.job
  registry : later.registry = f.registry.setHost d.job.host p.host
  deliveries : later.deliveries = f.deliveries.set place p.delivery
  log : later.log = (p.seen.map (Entry.mk turn.due place)).reverse ++ f.log
  now : later.now = turn.due
  current : later.current.due = turn.due
  agenda : ∀ e ∈ later.agenda, (e ∈ f.agenda ∧ e.2 ≠ place) ∨
    (e.2 = place ∧ ∃ steps, p.delivery.stage = .running e.1.due steps) ∨
    ∃ o, later.deliveries[e.2]? = some o ∧ o.stage = .queued

theorem resume_cases (f : Floor) (place : Nat) (stage : Stage) : f.resume place stage = f ∨
    ∃ due steps, stage = .running due steps ∧ f.resume place stage = f.schedule place due := by
  cases stage with
  | running due steps => exact .inr ⟨due, steps, rfl, rfl⟩
  | _ => exact .inl rfl

theorem wake_cases (f : Floor) (key : String) : f.wake key = f ∨
    ∃ place, f.granted? key = some place ∧ f.wake key = f.schedule place f.now := by
  unfold wake
  split
  · next place granted => exact .inr ⟨place, granted, rfl⟩
  · exact .inl rfl

theorem queued_of_granted? {key : String} (granted : f.granted? key = some place) :
    ∃ d, f.deliveries[place]? = some d ∧ d.stage = .queued := by
  obtain ⟨⟨d, there, -, waits⟩, -⟩ := isGrantable_iff.1 (granted?_eq_some.1 granted).1
  exact ⟨d, there, (Delivery.isGranted_iff.1 waits).1⟩

theorem took_work (now : max f.now turn.due = turn.due) (there : f.deliveries[place]? = some d) :
    Took f turn place d (f.progress turn d) (f.work turn place d) := by
  have acted := d.acted_turn f.registry.rule f.registry.hasPools (max f.now turn.due)
    (f.registry.host d.job.host)
  have later {due : Nat} {steps : List Step}
      (running : (f.progress turn d).delivery.stage = .running due steps) : turn.due ≤ due :=
    Nat.le_trans (Nat.le_max_right _ _) ((d.accesses_turn _).le_due running)
  have job : (f.progress turn d).delivery.job = d.job := (d.turn_keeps ..).1
  rcases resume_cases ((f.give turn place).settle place d.job.host (f.progress turn d)) place
    (f.progress turn d).delivery.stage with idle | ⟨due, steps, running, goes⟩
  · rw [work, idle]
    refine ⟨there, now ▸ acted, job, rfl, rfl, ?_, now, now, fun e mem => .inl ?_⟩
    · rw [← now]
      rfl
    · simpa using List.mem_filter.1 mem
  · rw [work, goes]
    refine ⟨there, now ▸ acted, job, rfl, rfl, ?_, now, now, fun e mem => ?_⟩
    · rw [← now]
      rfl
    · rcases List.mem_cons.1 mem with rfl | mem
      · refine .inr (.inl ⟨rfl, steps, ?_⟩)
        have current : ((f.give turn place).settle place d.job.host (f.progress turn d)).current.due ≤
            due := Nat.le_trans (Nat.le_of_eq now) (later running)
        rw [running, due_turn current]
      · exact .inl (by simpa using List.mem_filter.1 mem)

theorem took_take (planned : Planned guests f) (first : first? f.agenda = some (turn, place)) :
    ∃ d p, Took f turn place d p (f.take turn place) := by
  obtain ⟨d, there, -⟩ := planned.ready _ (mem_of_first? first)
  have now : max f.now turn.due = turn.due := Nat.max_eq_right (planned.ahead _ (mem_of_first? first))
  have works := took_work now there
  refine ⟨d, f.progress turn d, ?_⟩
  have made : f.take turn place = (f.work turn place d).wake d.job.host := take_eq_steps there
  rcases wake_cases (f.work turn place d) d.job.host with none_ | ⟨heir, granted, wakes⟩
  · rw [made, none_]
    exact works
  · rw [made, wakes]
    refine ⟨there, works.acted, works.job, works.registry, works.deliveries, works.log, works.now,
      works.current, fun e mem => ?_⟩
    rcases List.mem_cons.1 mem with rfl | mem
    · obtain ⟨o, at_, queued⟩ := queued_of_granted? granted
      exact .inr (.inr ⟨o, at_, queued⟩)
    · exact works.agenda e mem

section

variable (took : Took f turn place d p later)
include took

theorem Took.here : later.deliveries[place]? = some p.delivery := by
  have inside := (List.getElem?_eq_some_iff.1 took.there).1
  rw [took.deliveries, List.getElem?_set_self inside]

theorem Took.elsewhere {other : Nat} (ne : place ≠ other) :
    later.deliveries[other]? = f.deliveries[other]? := by
  rw [took.deliveries, List.getElem?_set_ne ne]

theorem Took.trace : later.trace place = f.trace place ++ p.timed turn.due := trace_self took.log

theorem Took.hasPools : later.registry.hasPools = f.registry.hasPools := by
  rw [took.registry]
  rfl

end

structure OnTime (f : Floor) : Prop where
  current : f.current.due ≤ f.now
  due : ∀ e ∈ f.agenda, ∀ {d : Delivery} {due : Nat} {steps : List Step},
    f.deliveries[e.2]? = some d → d.stage = .running due steps → e.1.due = due
  scheduled : ∀ {place : Nat} {d : Delivery}, f.deliveries[place]? = some d →
    d.Scheduled f.registry.hasPools (f.trace place)
  past : ∀ e ∈ f.log, e.time ≤ f.now

theorem onTime_start (r : Registry) (fairness : Fairness) (now : Nat) :
    OnTime { registry := r, fairness := fairness, now := now } :=
  ⟨Nat.zero_le _, by simp, by simp, by simp⟩

theorem OnTime.add (onTime : f.OnTime) (sound : Sound f) (job : Job) : (f.add job).OnTime := by
  refine ⟨onTime.current, fun e mem d due steps there running => ?_, fun {place d} there => ?_, onTime.past⟩
  · rw [getElem?_add] at there
    rcases List.mem_cons.1 mem with rfl | mem
    · rw [if_pos rfl] at there
      obtain rfl := Option.some.inj there
      cases running
    · obtain ⟨o, at_, -⟩ := sound.planned.ready e mem
      rw [if_neg (Nat.ne_of_lt (List.getElem?_eq_some_iff.1 at_).1)] at there
      exact onTime.due e mem there running
  · rw [getElem?_add] at there
    split at there
    · next last =>
      obtain rfl := Option.some.inj there
      have nothing : (f.add job).trace place = [] :=
        sound.traced.nowhere (List.getElem?_eq_none (Nat.le_of_eq last.symm))
      rw [nothing]
      exact .waits (.inl rfl)
    · exact onTime.scheduled there

theorem OnTime.take (onTime : f.OnTime) (planned : Planned guests f)
    (first : first? f.agenda = some (turn, place)) (took : Took f turn place d p later) :
    later.OnTime := by
  have latest : f.now ≤ turn.due := planned.ahead _ (mem_of_first? first)
  refine ⟨Nat.le_of_eq (took.current.trans took.now.symm), fun e mem o due steps there running => ?_,
    fun {other o} there => ?_, fun e mem => ?_⟩
  · rcases took.agenda e mem with ⟨before, ne⟩ | ⟨own, steps, goes⟩ | ⟨o, waits, queued⟩
    · rw [took.elsewhere (Ne.symm ne)] at there
      exact onTime.due e before there running
    · rw [own, took.here] at there
      obtain rfl := Option.some.inj there
      exact (Stage.running.inj (goes.symm.trans running)).1
    · rw [waits] at there
      obtain rfl := Option.some.inj there
      cases queued.symm.trans running
  · rw [took.hasPools]
    by_cases same : place = other
    · subst same
      rw [took.here] at there
      obtain rfl := Option.some.inj there
      rw [took.trace]
      refine (onTime.scheduled took.there).turn (fun running => ?_) took.acted
      exact onTime.due _ (mem_of_first? first) took.there running
    · rw [took.elsewhere same] at there
      rw [trace_other same took.log]
      exact onTime.scheduled there
  · rw [took.now]
    rw [took.log] at mem
    rcases List.mem_append.1 mem with new | old
    · obtain ⟨what, -, rfl⟩ := List.mem_map.1 (List.mem_reverse.1 new)
      exact Nat.le_refl _
    · exact Nat.le_trans (onTime.past e old) latest

theorem Regular.onTime (regular : Regular f) : f.OnTime := by
  induction regular with
  | start _ fairness now => exact onTime_start _ fairness now
  | add job regular ih => exact ih.add regular.sound job
  | take first regular ih =>
    obtain ⟨d, p, took⟩ := took_take regular.sound.planned first
    exact ih.take regular.sound.planned first took
  | @pass f time _ _ ih =>
    have later : f.now ≤ max f.now time := Nat.le_max_left _ _
    exact ⟨Nat.le_trans ih.current later, ih.due, ih.scheduled,
      fun e mem => Nat.le_trans (ih.past e mem) later⟩
  | tell key breaker _ ih => exact ⟨ih.current, ih.due, ih.scheduled, ih.past⟩

theorem OnTime.le_now (onTime : f.OnTime) {e : Nat × Deed} (mem : e ∈ f.trace place) : e.1 ≤ f.now := by
  obtain ⟨entry, inside, told⟩ := List.mem_filterMap.1 mem
  obtain ⟨deed, -, rfl⟩ := Option.map_eq_some_iff.1 told
  exact onTime.past entry (List.mem_reverse.1 (List.mem_filter.1 inside).1)

theorem Regular.due_of_running (regular : Regular f) (there : f.deliveries[place]? = some d)
    {due : Nat} {steps : List Step} (running : d.stage = .running due steps) :
    ∃ e ∈ f.agenda, e.2 = place ∧ e.1.due = due ∧ f.now ≤ due := by
  have ready : d.Ready (f.pool d.job.host) := .inr (.inr (by rw [running]; rfl))
  obtain ⟨e, mem, own⟩ := regular.sound.attended.exists_turn there ready
  have at_ := regular.onTime.due e mem (own ▸ there) running
  exact ⟨e, mem, own, at_, at_ ▸ regular.sound.planned.ahead e mem⟩

end Herald.Floor
