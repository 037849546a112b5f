import Herald.Proofs.Interleaving.Access
import Herald.Proofs.Slots.Floor

/-! The agenda of a floor. Whoever has a turn to come can use it, no turn lies in the past, and each turn
leaves less to do; so taking the first turn over and over ends with an empty agenda. -/
namespace Herald

open SlotPool

namespace Turn

theorem precedes_iff {a b : Turn} : a.precedes b = true ↔ a.due < b.due ∨ a.due = b.due ∧
    (a.round < b.round ∨ a.round = b.round ∧ a.number < b.number) := by
  simp [precedes]

theorem not_precedes_trans {a b c : Turn} (first : ¬ a.precedes b = true)
    (second : ¬ b.precedes c = true) : ¬ a.precedes c = true := by
  rw [precedes_iff] at *
  omega

end Turn

namespace Floor

theorem first?_eq_none {l : List (Turn × Nat)} : first? l = none ↔ l = [] := by
  cases l with
  | nil => simp [first?]
  | cons e l =>
    simp only [first?, reduceCtorEq, iff_false]
    split
    · simp
    · split <;> simp

theorem first?_cons {e : Turn × Nat} {l : List (Turn × Nat)} :
    first? (e :: l) = some (match first? l with
      | none => e
      | some other => if other.1.precedes e.1 then other else e) := by
  simp only [first?]
  cases first? l with
  | none => rfl
  | some other => by_cases earlier : other.1.precedes e.1 = true <;> simp [earlier]

theorem mem_of_first? {l : List (Turn × Nat)} {e : Turn × Nat} (first : first? l = some e) :
    e ∈ l := by
  induction l generalizing e with
  | nil => cases first
  | cons x l ih =>
    rw [first?_cons] at first
    obtain rfl := Option.some.inj first
    cases rest : first? l with
    | none => exact List.mem_cons_self
    | some other =>
      simp only
      split
      · exact List.mem_cons_of_mem _ (ih rest)
      · exact List.mem_cons_self

theorem not_precedes_of_first? {l : List (Turn × Nat)} {e : Turn × Nat} (first : first? l = some e) :
    ∀ o ∈ l, ¬ o.1.precedes e.1 = true := by
  induction l generalizing e with
  | nil => cases first
  | cons x l ih =>
    rw [first?_cons] at first
    obtain rfl := Option.some.inj first
    have own : ¬ x.1.precedes x.1 = true := by
      rw [Turn.precedes_iff]
      omega
    intro o mem
    cases rest : first? l with
    | none =>
      obtain rfl := first?_eq_none.1 rest
      obtain rfl := List.mem_singleton.1 mem
      exact own
    | some other =>
      have others := ih rest
      simp only
      split
      · next earlier =>
        rcases List.mem_cons.1 mem with rfl | mem
        · intro back
          rw [Turn.precedes_iff] at earlier back
          omega
        · exact others o mem
      · next later =>
        rcases List.mem_cons.1 mem with rfl | mem
        · exact own
        · exact Turn.not_precedes_trans (others o mem) later

theorem first?_filter {l : List (Turn × Nat)} {e : Turn × Nat} {chosen : Turn × Nat → Bool}
    (first : first? l = some e) (own : chosen e = true) : first? (l.filter chosen) = some e := by
  induction l generalizing e with
  | nil => cases first
  | cons x l ih =>
    rw [first?_cons] at first
    obtain is := Option.some.inj first
    cases rest : first? l with
    | none =>
      obtain rfl := first?_eq_none.1 rest
      rw [rest] at is
      obtain rfl : x = e := is
      rw [List.filter_cons_of_pos own]
      rfl
    | some other =>
      rw [rest] at is
      simp only at is
      split at is
      · next earlier =>
        subst is
        by_cases also : chosen x = true
        · rw [List.filter_cons_of_pos also, first?_cons, ih rest own]
          simp [earlier]
        · rw [List.filter_cons_of_neg also, ih rest own]
      · next later =>
        subst is
        rw [List.filter_cons_of_pos own, first?_cons]
        cases among : first? (l.filter chosen) with
        | none => rfl
        | some o =>
          have mem := (List.mem_filter.1 (mem_of_first? among)).1
          have last := Turn.not_precedes_trans (not_precedes_of_first? rest o mem) later
          simp [last]

theorem first?_map {l : List (Turn × Nat)} {moved : Turn × Nat → Turn × Nat}
    (same : ∀ a b, (moved a).1.precedes (moved b).1 = a.1.precedes b.1) :
    first? (l.map moved) = (first? l).map moved := by
  induction l with
  | nil => rfl
  | cons x l ih =>
    rw [List.map_cons, first?_cons, first?_cons, ih]
    cases first? l with
    | none => rfl
    | some other =>
      simp only [Option.map_some, same]
      split <;> rfl

end Floor

namespace Delivery

def Ready (d : Delivery) (pool : SlotPool) : Prop :=
  d.stage = .arriving ∨ d.isGranted pool = true ∨ d.stage.isRunning = true

variable {rule : Breaker.Rule} {hasPools : Bool} {now : Nat} {host : HostState} {d : Delivery}
  {p : Progress}

theorem pool_of_accessed (accessed : d.Accessed rule hasPools now host p) :
    ∃ ops, p.host.pool = host.pool.applyAll ops ∧ ∀ op ∈ ops, op.ticket = d.ticket := by
  cases accessed with
  | asks => exact ⟨[.request d.ticket], rfl, by simp [Op.ticket]⟩
  | barred => exact ⟨[.release d.ticket], rfl, by simp [Op.ticket]⟩
  | rejected => exact ⟨[.release d.ticket], rfl, by simp [Op.ticket]⟩
  | crashes => exact ⟨[.release d.ticket], rfl, by simp [Op.ticket]⟩
  | ends => exact ⟨[.release d.ticket], rfl, by simp [Op.ticket]⟩
  | _ => exact ⟨[], rfl, by simp⟩

theorem Accesses.keeps (accesses : Accesses rule hasPools now host d p) :
    p.delivery.job = d.job ∧ p.delivery.ticket = d.ticket ∧
      ∃ ops, p.host.pool = host.pool.applyAll ops ∧ ∀ op ∈ ops, op.ticket = d.ticket := by
  induction accesses with
  | @once host d =>
    have accessed := d.accessed rule hasPools now host
    exact ⟨accessed.job, accessed.ticket, pool_of_accessed accessed⟩
  | @more host d p _ ih =>
    have accessed := d.accessed rule hasPools now host
    obtain ⟨ops, pool, own⟩ := pool_of_accessed accessed
    obtain ⟨job, ticket, more, then_, others⟩ := ih
    refine ⟨job.trans accessed.job, ticket.trans accessed.ticket, ops ++ more, ?_, ?_⟩
    · rw [applyAll_append, ← pool]
      exact then_
    · intro op mem
      rcases List.mem_append.1 mem with mem | mem
      · exact own op mem
      · exact (others op mem).trans accessed.ticket

theorem turn_keeps (d : Delivery) (rule : Breaker.Rule) (hasPools : Bool) (now : Nat)
    (host : HostState) :
    let p := d.turn rule hasPools now host
    p.delivery.job = d.job ∧ p.delivery.ticket = d.ticket ∧
      ∃ ops, p.host.pool = host.pool.applyAll ops ∧ ∀ op ∈ ops, op.ticket = d.ticket :=
  (d.accesses_turn host).keeps

theorem effort_goOn_le (d : Delivery) (rule : Breaker.Rule) (now : Nat) (host : HostState)
    (steps : List Step) : (d.goOn rule now host steps).delivery.effort ≤ Step.waits steps := by
  rcases d.goOn_cases rule now host steps with ⟨ms, rest, waits, becomes, -⟩ |
    ⟨ending, breaker, -, becomes, -⟩
  · rw [becomes, waits]
    exact Nat.le_refl _
  · rw [becomes]
    exact Nat.zero_le _

theorem effort_commence_le (d : Delivery) (rule : Breaker.Rule) (now : Nat) (host : HostState) :
    (d.commence rule now host).delivery.effort ≤ Step.waits d.job.run.steps := by
  simp only [commence]
  split
  · exact Nat.zero_le _
  · split
    · exact Nat.zero_le _
    · split
      · exact Nat.zero_le _
      · exact effort_goOn_le _ rule now host _

theorem effort_turn_lt (ready : d.Ready host.pool) :
    (d.turn rule hasPools now host).delivery.effort < d.effort := by
  cases stage : d.stage with
  | arriving =>
    have before : d.effort = Step.waits d.job.run.steps + 3 := by rw [effort, stage]
    have admitted (host : HostState) := effort_commence_le { d with asked := now } rule now host
    have goes : (d.arrive rule hasPools now host).delivery.effort <
        Step.waits d.job.run.steps + 3 := by
      simp only [arrive]
      split
      · exact Nat.lt_of_le_of_lt (admitted host) (by simp)
      · split
        · exact Nat.succ_pos _
        · split
          · exact Nat.lt_of_le_of_lt (admitted _) (by simp)
          · exact Nat.lt_succ_self _
    rw [turn, stage, before]
    exact goes
  | queued =>
    have held : host.pool.isHeld d.ticket = true := by
      rcases ready with arriving | granted | running
      · simp [stage] at arriving
      · exact (isGranted_iff.1 granted).2
      · simp [stage, Stage.isRunning] at running
    have before : d.effort = Step.waits d.job.run.steps + 2 := by rw [effort, stage]
    have admitted := effort_commence_le d rule now host
    rw [turn, stage, before]
    simp only [held, if_true]
    omega
  | running due steps =>
    have before : d.effort = Step.waits steps + 1 := by rw [effort, stage]
    have goes := effort_goOn_le d rule now host steps
    rw [turn, stage, before]
    exact Nat.lt_succ_of_le goes
  | _ => simp [Ready, stage, isGranted, Stage.isRunning] at ready

theorem le_due_of_accessed {due : Nat} {steps : List Step}
    (accessed : d.Accessed rule hasPools now host p)
    (running : p.delivery.stage = .running due steps) : now ≤ due := by
  cases accessed with
  | idles stage =>
    rcases stage with queued | ⟨ending, finished⟩
    · simp [queued] at running
    · simp [finished] at running
  | admitted => exact Nat.le_of_eq (Stage.running.inj running).1
  | rests => exact (Stage.running.inj running).1 ▸ Nat.le_add_right _ _
  | acts => exact Nat.le_of_eq (Stage.running.inj running).1
  | _ => cases running

theorem Accesses.le_due {due : Nat} {steps : List Step}
    (accesses : Accesses rule hasPools now host d p)
    (running : p.delivery.stage = .running due steps) : now ≤ due := by
  induction accesses with
  | once => exact le_due_of_accessed (accessed ..) running
  | more _ ih => exact ih running

end Delivery

namespace Floor

def give (f : Floor) (turn : Turn) (place : Nat) : Floor :=
  { f with
    now := max f.now turn.due
    current := { turn with due := max f.now turn.due }
    agenda := f.agenda.filter (·.2 != place) }

def join (f : Floor) (job : Job) : Floor :=
  { f with
    deliveries := f.deliveries ++ [{ job := job, ticket := f.tickets }]
    tickets := f.tickets + 1 }

def settle (f : Floor) (place : Nat) (key : String) (p : Delivery.Progress) : Floor :=
  { f with
    registry := f.registry.setHost key p.host
    deliveries := f.deliveries.set place p.delivery
    log := (p.seen.map (Entry.mk f.now place)).reverse ++ f.log }

def resume (f : Floor) (place : Nat) (stage : Stage) : Floor :=
  match stage with
  | .running due _ => f.schedule place due
  | _ => f

def progress (f : Floor) (turn : Turn) (d : Delivery) : Delivery.Progress :=
  d.turn f.registry.rule f.registry.hasPools (max f.now turn.due) (f.registry.host d.job.host)

variable {f : Floor} {turn : Turn} {place : Nat} {d : Delivery} {key : String}

theorem add_eq_join (f : Floor) (job : Job) :
    f.add job = (f.join job).schedule f.deliveries.length f.now := rfl

theorem take_eq_steps (there : f.deliveries[place]? = some d) :
    f.take turn place =
      (((f.give turn place).settle place d.job.host (f.progress turn d)).resume place
        (f.progress turn d).delivery.stage).wake d.job.host := by
  simp only [take, there]
  rfl

def isGrantable (f : Floor) (key : String) (place : Nat) : Bool :=
  (f.deliveries[place]?).any fun d =>
    d.job.host == key && d.isGranted (f.pool key) && !f.agenda.any (·.2 == place)

theorem findSome?_zipIdx {α : Type} (chosen : α → Nat → Bool) (l : List α) (start place : Nat) :
    (l.zipIdx start).findSome? (fun e => if chosen e.1 e.2 then some e.2 else none) = some place ↔
      ∃ i, place = start + i ∧ (l[i]?).any (chosen · (start + i)) = true ∧
        ∀ j < i, (l[j]?).any (chosen · (start + j)) = false := by
  induction l generalizing start with
  | nil => simp
  | cons a l ih =>
    have next (j : Nat) : start + 1 + j = start + (j + 1) := by omega
    rw [List.zipIdx_cons, List.findSome?_cons]
    by_cases here : chosen a start = true
    · simp only [here, if_true, Option.some.injEq]
      constructor
      · rintro rfl
        exact ⟨0, rfl, by simpa using here, by simp⟩
      · rintro ⟨i, rfl, -, before⟩
        cases i with
        | zero => rfl
        | succ i => simpa [here] using before 0 (Nat.succ_pos i)
    · simp only [here, if_false, Bool.false_eq_true, ih]
      constructor
      · rintro ⟨i, rfl, own, before⟩
        refine ⟨i + 1, next i, by simpa [next] using own, fun j less => ?_⟩
        cases j with
        | zero => simpa using here
        | succ j => simpa [next] using before j (by omega)
      · rintro ⟨i, rfl, own, before⟩
        cases i with
        | zero => simp [here] at own
        | succ i =>
          exact ⟨i, (next i).symm, by simpa [next] using own,
            fun j less => by simpa [next] using before (j + 1) (by omega)⟩

theorem granted?_eq_some : f.granted? key = some place ↔
    f.isGrantable key place = true ∧ ∀ other < place, f.isGrantable key other = false := by
  have found := findSome?_zipIdx (fun d place => d.job.host == key && d.isGranted (f.pool key) &&
    !f.agenda.any (·.2 == place)) f.deliveries 0 place
  simp only [Nat.zero_add] at found
  refine found.trans ⟨?_, fun own => ⟨place, rfl, own⟩⟩
  rintro ⟨_, rfl, own⟩
  exact own

/-- Turns are to come only for those who can use them, and none was due before now. The tickets of the
deliveries are those after the guests', in the order of the deliveries. -/
structure Planned (guests : Nat) (f : Floor) : Prop where
  ahead : ∀ e ∈ f.agenda, f.now ≤ e.1.due
  ready : ∀ e ∈ f.agenda, ∃ d, f.deliveries[e.2]? = some d ∧ d.Ready (f.pool d.job.host)
  numbered : ∀ place d, f.deliveries[place]? = some d → d.ticket = guests + place
  tickets : f.tickets = guests + f.deliveries.length

theorem le_due_turn (fairness : Fairness) (current : Turn) (count place due : Nat) :
    due ≤ (fairness.turn current count place due).due := by
  unfold Fairness.turn
  cases fairness with
  | byArrival => exact Nat.le_refl _
  | byPlace =>
    simp only
    split
    · exact Nat.le_refl _
    · split <;> simp only <;> omega

variable {guests : Nat}

theorem Planned.schedule (planned : Planned guests f) {due : Nat} (later : f.now ≤ due)
    (there : f.deliveries[place]? = some d) (ready : d.Ready (f.pool d.job.host)) :
    Planned guests (f.schedule place due) := by
  refine ⟨fun e mem => ?_, fun e mem => ?_, planned.numbered, planned.tickets⟩
  · rcases List.mem_cons.1 mem with rfl | mem
    · exact Nat.le_trans later (le_due_turn _ _ _ _ _)
    · exact planned.ahead e mem
  · rcases List.mem_cons.1 mem with rfl | mem
    · exact ⟨d, there, ready⟩
    · exact planned.ready e mem

theorem planned_start (r : Registry) (fairness : Fairness) (now guests : Nat) :
    Planned guests { registry := r, fairness := fairness, now := now, tickets := guests } :=
  ⟨by simp, by simp, by simp, rfl⟩

theorem getElem?_join (f : Floor) (job : Job) (place : Nat) :
    (f.join job).deliveries[place]? = if place = f.deliveries.length
      then some { job := job, ticket := f.tickets } else f.deliveries[place]? := by
  rw [join]
  by_cases last : place = f.deliveries.length
  · rw [if_pos last, last, List.getElem?_concat_length]
  · rw [if_neg last]
    rcases Nat.lt_or_gt_of_ne last with inside | beyond
    · exact List.getElem?_append_left inside
    · rw [List.getElem?_eq_none (by simp; omega), List.getElem?_eq_none (by omega)]

theorem getElem?_add (f : Floor) (job : Job) (place : Nat) :
    (f.add job).deliveries[place]? = if place = f.deliveries.length
      then some { job := job, ticket := f.tickets } else f.deliveries[place]? := getElem?_join f job place

theorem Planned.add (planned : Planned guests f) (job : Job) : Planned guests (f.add job) := by
  have joined : Planned guests (f.join job) := by
    refine ⟨planned.ahead, fun e mem => ?_, fun place d there => ?_, ?_⟩
    · obtain ⟨d, there, ready⟩ := planned.ready e mem
      have inside := (List.getElem?_eq_some_iff.1 there).1
      exact ⟨d, by rw [getElem?_join, if_neg (Nat.ne_of_lt inside), there], ready⟩
    · rw [getElem?_join] at there
      split at there
      · next last =>
        obtain rfl := Option.some.inj there
        rw [last]
        exact planned.tickets
      · exact planned.numbered place d there
    · have before := planned.tickets
      simp only [join, List.length_append, List.length_singleton]
      omega
  have there : (f.join job).deliveries[f.deliveries.length]? =
      some { job := job, ticket := f.tickets } := by
    rw [getElem?_join, if_pos rfl]
  exact joined.schedule (Nat.le_refl _) there (.inl rfl)

theorem Planned.addAll (planned : Planned guests f) (jobs : List Job) :
    Planned guests (f.addAll jobs) :=
  List.foldlRecOn jobs Floor.add (motive := Planned guests) planned fun _ before job _ => before.add job

theorem due_le_of_first? (first : first? f.agenda = some (turn, place)) :
    ∀ e ∈ f.agenda, turn.due ≤ e.1.due := by
  intro e mem
  have last := not_precedes_of_first? first e mem
  rw [Turn.precedes_iff] at last
  dsimp only at last
  omega

theorem Planned.give (planned : Planned guests f) (first : first? f.agenda = some (turn, place)) :
    Planned guests (f.give turn place) := by
  refine ⟨fun e mem => ?_, fun e mem => planned.ready e (List.mem_filter.1 mem).1, planned.numbered,
    planned.tickets⟩
  have still := (List.mem_filter.1 mem).1
  exact Nat.max_le.2 ⟨planned.ahead e still, due_le_of_first? first e still⟩

theorem Planned.settle (planned : Planned guests f) (there : f.deliveries[place]? = some d)
    (free : ∀ e ∈ f.agenda, e.2 ≠ place) {p : Delivery.Progress} {ops : List Op}
    (ticket : p.delivery.ticket = d.ticket)
    (pool : p.host.pool = (f.pool d.job.host).applyAll ops) (own : ∀ op ∈ ops, op.ticket = d.ticket) :
    Planned guests (f.settle place d.job.host p) := by
  have inside := (List.getElem?_eq_some_iff.1 there).1
  have made : (f.settle place d.job.host p).registry = f.registry.setHost d.job.host p.host := rfl
  obtain ⟨here, others⟩ := pool_setHost made
  refine ⟨planned.ahead, fun e mem => ?_, fun other o at_ => ?_, ?_⟩
  · obtain ⟨o, at_, ready⟩ := planned.ready e mem
    have apart := free e mem
    refine ⟨o, (List.getElem?_set_ne (Ne.symm apart)).trans at_, ready.imp_right (.imp_left ?_)⟩
    intro granted
    by_cases same : o.job.host = d.job.host
    · have ne : o.ticket ≠ d.ticket := by
        rw [planned.numbered _ _ at_, planned.numbered _ _ there]
        omega
      obtain ⟨queued, held⟩ := Delivery.isGranted_iff.1 granted
      rw [same] at held ⊢
      refine Delivery.isGranted_iff.2 ⟨queued, ?_⟩
      rw [here, pool]
      simpa [isHeld] using mem_held_applyAll own ne (by simpa [isHeld] using held)
    · rw [others _ same]
      exact granted
  · by_cases same : place = other
    · subst same
      rw [Floor.settle, List.getElem?_set_self inside] at at_
      obtain rfl := Option.some.inj at_
      exact ticket.trans (planned.numbered place d there)
    · exact planned.numbered other o ((List.getElem?_set_ne same).symm.trans at_)
  · exact planned.tickets.trans (by rw [Floor.settle, List.length_set])

theorem Planned.resume (planned : Planned guests f) (there : f.deliveries[place]? = some d)
    (later : ∀ due steps, d.stage = .running due steps → f.now ≤ due) :
    Planned guests (f.resume place d.stage) := by
  unfold Floor.resume
  split
  · next due steps running =>
    exact planned.schedule (later due steps running) there (.inr (.inr (by rw [running]; rfl)))
  · exact planned

theorem Planned.wake (planned : Planned guests f) (key : String) : Planned guests (f.wake key) := by
  unfold Floor.wake
  split
  · next place granted =>
    obtain ⟨d, there, own⟩ := (Option.any_eq_true _ _).1 (granted?_eq_some.1 granted).1
    simp only [Bool.and_eq_true, beq_iff_eq] at own
    refine planned.schedule (Nat.le_refl _) there (.inr (.inl ?_))
    rw [own.1.1]
    exact own.1.2
  · exact planned

/-- A floor stays planned while the first turn is taken. -/
theorem Planned.take (planned : Planned guests f) (first : first? f.agenda = some (turn, place)) :
    Planned guests (f.take turn place) := by
  obtain ⟨d, there, -⟩ := planned.ready _ (mem_of_first? first)
  have inside := (List.getElem?_eq_some_iff.1 there).1
  obtain ⟨-, ticket, ops, pool, own⟩ := d.turn_keeps f.registry.rule f.registry.hasPools
    (max f.now turn.due) (f.registry.host d.job.host)
  have settled : Planned guests
      ((f.give turn place).settle place d.job.host (f.progress turn d)) :=
    (planned.give first).settle there (fun e mem => by simpa using (List.mem_filter.1 mem).2)
      ticket pool own
  rw [take_eq_steps there]
  refine (settled.resume ?_ fun due steps running => ?_).wake _
  · exact List.getElem?_set_self inside
  · exact (d.accesses_turn _).le_due running

@[simp] theorem deliveries_resume (f : Floor) (place : Nat) (stage : Stage) :
    (f.resume place stage).deliveries = f.deliveries := by
  unfold resume
  split <;> rfl

theorem deliveries_take (turn : Turn) (there : f.deliveries[place]? = some d) :
    (f.take turn place).deliveries = f.deliveries.set place (f.progress turn d).delivery := by
  rw [take_eq_steps there, deliveries_wake, deliveries_resume]
  rfl

def jobs (f : Floor) : List Job := f.deliveries.map (·.job)

theorem jobs_settle {p : Delivery.Progress} (there : f.deliveries[place]? = some d)
    (job : p.delivery.job = d.job) (key : String) : (f.settle place key p).jobs = f.jobs := by
  obtain ⟨inside, is⟩ := List.getElem?_eq_some_iff.1 there
  have same : f.deliveries[place].job = p.delivery.job := by rw [is, job]
  rw [jobs, settle, List.map_set, ← same, ← List.map_set, List.set_getElem_self]
  rfl

@[simp] theorem jobs_resume (f : Floor) (place : Nat) (stage : Stage) :
    (f.resume place stage).jobs = f.jobs := by
  rw [jobs, deliveries_resume]
  rfl

theorem jobs_take (turn : Turn) (there : f.deliveries[place]? = some d) :
    (f.take turn place).jobs = f.jobs := by
  have job := (d.turn_keeps f.registry.rule f.registry.hasPools (max f.now turn.due)
    (f.registry.host d.job.host)).1
  rw [take_eq_steps there, jobs, deliveries_wake]
  exact (jobs_resume _ _ _).trans (jobs_settle (f := f.give turn place) there job _)

theorem jobs_addAll (f : Floor) (jobs : List Job) : (f.addAll jobs).jobs = f.jobs ++ jobs := by
  induction jobs generalizing f with
  | nil => exact (List.append_nil _).symm
  | cons job jobs ih =>
    have first : (f.add job).jobs = f.jobs ++ [job] := by simp [Floor.jobs, add, schedule]
    rw [show f.addAll (job :: jobs) = (f.add job).addAll jobs from rfl, ih, first,
      List.append_assoc, List.singleton_append]

theorem effort_take_lt (planned : Planned guests f)
    (first : first? f.agenda = some (turn, place)) : (f.take turn place).effort < f.effort := by
  obtain ⟨d, there, ready⟩ := planned.ready _ (mem_of_first? first)
  have less : (f.progress turn d).delivery.effort < d.effort := Delivery.effort_turn_lt ready
  have sums : (f.take turn place).effort + d.effort =
      f.effort + (f.progress turn d).delivery.effort := by
    rw [effort, deliveries_take turn there]
    exact Delivery.total_set there _
  omega

/-- Taking the first turn over and over leads to a floor with nothing to come. -/
inductive Plays : Floor → Floor → Prop
  | ends {f : Floor} : f.agenda = [] → Plays f f
  | goes {f last : Floor} {turn : Turn} {place : Nat} : first? f.agenda = some (turn, place) →
    Plays (f.take turn place) last → Plays f last

theorem Plays.agenda {last : Floor} (plays : Plays f last) : last.agenda = [] := by
  induction plays with
  | ends none_ => exact none_
  | goes _ _ ih => exact ih

theorem Plays.unique {last other : Floor} (plays : Plays f last) (also : Plays f other) :
    last = other := by
  induction plays with
  | ends none_ =>
    cases also with
    | ends => rfl
    | goes first => simp [none_, first?] at first
  | goes first _ ih =>
    cases also with
    | ends none_ => simp [none_, first?] at first
    | goes same rest =>
      rw [first] at same
      obtain ⟨rfl, rfl⟩ := Prod.mk.inj (Option.some.inj same)
      exact ih rest

theorem Plays.jobs {last : Floor} (plays : Plays f last) (planned : Planned guests f) :
    last.jobs = f.jobs := by
  induction plays with
  | ends => rfl
  | goes first _ ih =>
    obtain ⟨d, there, -⟩ := planned.ready _ (mem_of_first? first)
    exact (ih (planned.take first)).trans (jobs_take _ there)

theorem plays_playFor (planned : Planned guests f) {turns : Nat} (enough : f.effort ≤ turns) :
    Plays f (playFor (fun _ _ => true) turns f) := by
  induction turns generalizing f with
  | zero =>
    refine .ends (first?_eq_none.1 ?_)
    cases first : first? f.agenda with
    | none => rfl
    | some e =>
      have less := effort_take_lt planned first
      omega
  | succ turns ih =>
    unfold playFor
    cases first : first? f.agenda with
    | none => exact .ends (first?_eq_none.1 first)
    | some e =>
      have less := effort_take_lt planned first
      exact .goes first (ih (planned.take first) (by omega))

theorem plays_playWhile (planned : Planned guests f) :
    Plays f (f.playWhile fun _ _ => true) :=
  plays_playFor planned (Nat.le_refl _)

end Floor

end Herald
