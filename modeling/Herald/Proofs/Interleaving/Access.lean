import Herald.Delivery.Floor

/-! Deliveries side by side, one access to a host at a time. In a single access a delivery asks for its slot,
looks at the breaker, does one step of its run or gives its slot back, and between any two accesses others
may come first. A turn is some accesses of one delivery in a row. -/
namespace Herald

def Breaker.notice (rule : Rule) (now : Nat) (b : Breaker) : Deed → Breaker × Option Recorded
  | .ended _ result => b.hear rule now result
  | _ => (b, none)

def Deed.seen (deed : Deed) : Option Breaker.Recorded → List Happening
  | some .opened => [.opened, .deed deed]
  | _ => [.deed deed]

theorem Step.perform_act_of_overflowed {rule : Breaker.Rule} {now : Nat} {b later : Breaker}
    {deed : Deed} (noticed : b.notice rule now deed = (later, some .overflowed)) (rest : List Step) :
    perform rule now b (.act deed :: rest) = ⟨later, [], none, some .time⟩ := by
  cases deed with
  | ended attempt result =>
    simp only [Breaker.notice] at noticed
    simp only [perform, noticed]
  | _ => simp [Breaker.notice] at noticed

theorem Step.perform_act {rule : Breaker.Rule} {now : Nat} {b later : Breaker} {deed : Deed}
    {recorded : Option Breaker.Recorded} (noticed : b.notice rule now deed = (later, recorded))
    (recordable : recorded ≠ some .overflowed) (rest : List Step) :
    perform rule now b (.act deed :: rest) =
      (perform rule now later rest).after (deed.seen recorded) := by
  cases deed with
  | ended attempt result =>
    simp only [Breaker.notice] at noticed
    rcases recorded with _ | _ | _ | _
    · simp only [perform, noticed, Deed.seen]
    · simp only [perform, noticed, Deed.seen]
    · simp only [perform, noticed, Deed.seen]
    · exact absurd rfl recordable
  | _ =>
    obtain ⟨rfl, rfl⟩ := Prod.mk.inj noticed
    simp only [perform, Deed.seen]

namespace Delivery

def enter (d : Delivery) (now : Nat) (host : HostState) : Progress :=
  let d := { d with begun := now }
  if Breaker.endOfTime ≤ now + d.job.timeout then d.finish now host (.crashed .time)
  else match d.job.refusal with
    | some failure => d.finish now host (.refused failure)
    | none =>
      if host.breaker.isOpen now then d.finish now host (.reported (.rejected d.job.host))
      else ⟨host, { d with stage := .running now d.job.run.steps }, []⟩

def proceed (d : Delivery) (rule : Breaker.Rule) (now : Nat) (host : HostState) (steps : List Step) :
    Progress :=
  match steps with
  | .act deed :: rest => d.goOn rule now host (.act deed :: .wait 0 :: rest)
  | _ => d.goOn rule now host steps

def access (d : Delivery) (rule : Breaker.Rule) (hasPools : Bool) (now : Nat) (host : HostState) :
    Progress :=
  match d.stage with
  | .arriving =>
    let d := { d with asked := now }
    if !d.job.needsSlot then d.enter now host
    else if !hasPools then d.finish now host (.crashed .slots)
    else ⟨{ host with pool := host.pool.request d.ticket }, { d with stage := .queued }, []⟩
  | .queued => if host.pool.isHeld d.ticket then d.enter now host else ⟨host, d, []⟩
  | .running _ steps => d.proceed rule now host steps
  | .over _ => ⟨host, d, []⟩

theorem isGranted_iff {d : Delivery} {pool : SlotPool} :
    d.isGranted pool = true ↔ d.stage = .queued ∧ pool.isHeld d.ticket = true := by
  cases stage : d.stage <;> simp [isGranted, stage]

inductive Barred (d : Delivery) (hasPools : Bool) : Ending → Prop
  | noSlots : hasPools = false → Barred d hasPools (.crashed .slots)
  | late : Breaker.endOfTime ≤ d.begun + d.job.timeout → Barred d hasPools (.crashed .time)
  | refused {failure : Failure} : d.job.refusal = some failure → Barred d hasPools (.refused failure)

def Enters (d : Delivery) (pool : SlotPool) : Prop :=
  (d.stage = .arriving ∧ d.job.needsSlot = false) ∨ d.isGranted pool = true

/-- All that a single access can do. -/
inductive Accessed (d : Delivery) (rule : Breaker.Rule) (hasPools : Bool) (now : Nat)
    (host : HostState) : Progress → Prop
  | idles : d.stage = .queued ∨ (∃ ending, d.stage = .over ending) →
    Accessed d rule hasPools now host ⟨host, d, []⟩
  | asks : d.stage = .arriving → d.job.needsSlot = true →
    Accessed d rule hasPools now host ⟨{ host with pool := host.pool.request d.ticket },
      { d with stage := .queued, asked := now }, []⟩
  | barred {asked begun : Nat} {ending : Ending} :
    d.stage = .arriving ∨ d.isGranted host.pool = true →
    Barred { d with begun := begun } hasPools ending →
    Accessed d rule hasPools now host
      ({ d with asked := asked, begun := begun }.finish now host ending)
  | rejected {asked : Nat} : d.Enters host.pool → host.breaker.isOpen now = true →
    Accessed d rule hasPools now host ({ d with asked := asked, begun := now }.finish now host
      (.reported (.rejected d.job.host)))
  | admitted {asked : Nat} : d.Enters host.pool → host.breaker.isOpen now = false →
    Accessed d rule hasPools now host ⟨host, { d with
      stage := .running now d.job.run.steps, asked := asked, begun := now }, []⟩
  | rests {due ms : Nat} {rest : List Step} : d.stage = .running due (.wait ms :: rest) →
    Accessed d rule hasPools now host ⟨host, { d with stage := .running (now + ms) rest }, []⟩
  | acts {due : Nat} {deed : Deed} {rest : List Step} {later : Breaker}
      {recorded : Option Breaker.Recorded} : d.stage = .running due (.act deed :: rest) →
    host.breaker.notice rule now deed = (later, recorded) → recorded ≠ some .overflowed →
    Accessed d rule hasPools now host ⟨{ host with breaker := later },
      { d with stage := .running now rest }, deed.seen recorded⟩
  | crashes {due : Nat} {deed : Deed} {rest : List Step} {later : Breaker} :
    d.stage = .running due (.act deed :: rest) →
    host.breaker.notice rule now deed = (later, some .overflowed) →
    Accessed d rule hasPools now host (d.finish now { host with breaker := later } (.crashed .time))
  | ends {due : Nat} : d.stage = .running due [] →
    Accessed d rule hasPools now host (d.finish now host d.job.ending)

section

variable {rule : Breaker.Rule} {hasPools : Bool} {now : Nat} {host : HostState}

theorem goOn_act_of_overflowed {d : Delivery} {deed : Deed} {later : Breaker}
    (noticed : host.breaker.notice rule now deed = (later, some .overflowed)) (rest : List Step) :
    d.goOn rule now host (.act deed :: rest) =
      d.finish now { host with breaker := later } (.crashed .time) := by
  simp [goOn, Step.perform_act_of_overflowed noticed]

theorem goOn_act {d : Delivery} {deed : Deed} {later : Breaker}
    {recorded : Option Breaker.Recorded}
    (noticed : host.breaker.notice rule now deed = (later, recorded))
    (recordable : recorded ≠ some .overflowed) (rest : List Step) :
    d.goOn rule now host (.act deed :: rest) =
      { d.goOn rule now { host with breaker := later } rest with
        seen := deed.seen recorded ++ (d.goOn rule now { host with breaker := later } rest).seen } := by
  simp only [goOn, Step.perform_act noticed recordable, Performance.after]
  split <;> simp

theorem accessed_proceed (d : Delivery) {due : Nat} {steps : List Step}
    (running : d.stage = .running due steps) :
    d.Accessed rule hasPools now host (d.proceed rule now host steps) := by
  cases steps with
  | nil => exact .ends running
  | cons step rest =>
    cases step with
    | wait ms => exact .rests running
    | act deed =>
      rcases noticed : host.breaker.notice rule now deed with ⟨later, recorded⟩
      by_cases overflows : recorded = some .overflowed
      · subst overflows
        rw [proceed, goOn_act_of_overflowed noticed]
        exact .crashes running noticed
      · have stops : d.proceed rule now host (.act deed :: rest) =
            ⟨{ host with breaker := later }, { d with stage := .running now rest },
              deed.seen recorded⟩ := by
          rw [proceed, goOn_act noticed overflows]
          simp [goOn, Step.perform]
        rw [stops]
        exact .acts running noticed overflows

theorem accessed_enter (d : Delivery) (asked : Nat) (enters : d.Enters host.pool) :
    d.Accessed rule hasPools now host ({ d with asked := asked }.enter now host) := by
  have before : d.stage = .arriving ∨ d.isGranted host.pool = true := enters.imp_left And.left
  simp only [enter]
  split
  · next late => exact .barred before (.late late)
  · split
    · next failure refused => exact .barred before (.refused refused)
    · split
      · next isOpen => exact .rejected enters isOpen
      · next closed => exact .admitted enters (by simpa using closed)

theorem accessed (d : Delivery) (rule : Breaker.Rule) (hasPools : Bool) (now : Nat)
    (host : HostState) : d.Accessed rule hasPools now host (d.access rule hasPools now host) := by
  cases stage : d.stage with
  | arriving =>
    simp only [access, stage]
    split
    · next free => exact accessed_enter d now (.inl ⟨stage, by simpa using free⟩)
    · next needs =>
      split
      · next none_ => exact .barred (.inl stage) (.noSlots (by simpa using none_))
      · exact .asks stage (by simpa using needs)
  | queued =>
    simp only [access, stage]
    split
    · next held => exact accessed_enter d d.asked (.inr (isGranted_iff.2 ⟨stage, held⟩))
    · exact .idles (.inl stage)
  | running due steps =>
    simp only [access, stage]
    exact accessed_proceed d stage
  | _ =>
    -- nothing is left to do for a delivery that is over
    simp only [access, stage]
    exact .idles (.inr ⟨_, stage⟩)

end

inductive Accesses (rule : Breaker.Rule) (hasPools : Bool) (now : Nat) :
    HostState → Delivery → Progress → Prop
  | once {host : HostState} {d : Delivery} :
    Accesses rule hasPools now host d (d.access rule hasPools now host)
  | more {host : HostState} {d : Delivery} {p : Progress} :
    Accesses rule hasPools now (d.access rule hasPools now host).host
      (d.access rule hasPools now host).delivery p →
    Accesses rule hasPools now host d
      { p with seen := (d.access rule hasPools now host).seen ++ p.seen }

variable {rule : Breaker.Rule} {hasPools : Bool} {now : Nat}

theorem Accesses.of_eq {d : Delivery} {host : HostState} {p : Progress}
    (only : d.access rule hasPools now host = p) : Accesses rule hasPools now host d p := by
  rw [← only]
  exact .once

theorem Accesses.after {d between : Delivery} {host later : HostState} {seen : List Happening}
    {p : Progress} (first : d.access rule hasPools now host = ⟨later, between, seen⟩)
    (others : Accesses rule hasPools now later between p) :
    Accesses rule hasPools now host d { p with seen := seen ++ p.seen } := by
  have onward : Accesses rule hasPools now (d.access rule hasPools now host).host
      (d.access rule hasPools now host).delivery p := by
    rw [first]
    exact others
  have whole := Accesses.more onward
  rw [first] at whole
  exact whole

theorem accesses_goOn (d : Delivery) (due : Nat) (host : HostState) (steps : List Step) :
    Accesses rule hasPools now host { d with stage := .running due steps }
      (d.goOn rule now host steps) := by
  induction steps generalizing host due with
  | nil => exact .once
  | cons step rest ih =>
    cases step with
    | wait ms => exact .once
    | act deed =>
      have first : { d with stage := .running due (.act deed :: rest) }.access rule hasPools now host
          = d.goOn rule now host (.act deed :: .wait 0 :: rest) := rfl
      rcases noticed : host.breaker.notice rule now deed with ⟨later, recorded⟩
      by_cases overflows : recorded = some .overflowed
      · subst overflows
        refine .of_eq (first.trans ?_)
        rw [goOn_act_of_overflowed noticed, goOn_act_of_overflowed noticed]
      · rw [goOn_act noticed overflows] at first ⊢
        refine .after (first.trans ?_) (ih now { host with breaker := later })
        simp [goOn, Step.perform]

theorem accesses_of_enter {d entering : Delivery} {host entered : HostState}
    (enters : d.access rule hasPools now host = entering.enter now entered) :
    Accesses rule hasPools now host d (entering.commence rule now entered) := by
  by_cases late : Breaker.endOfTime ≤ now + entering.job.timeout
  · exact .of_eq (by rw [enters]; simp [commence, enter, late])
  · cases refusal : entering.job.refusal with
    | some failure => exact .of_eq (by rw [enters]; simp [commence, enter, late, refusal])
    | none =>
      by_cases isOpen : entered.breaker.isOpen now = true
      · exact .of_eq (by rw [enters]; simp [commence, enter, late, refusal, isOpen])
      · have goes : entering.commence rule now entered =
            { entering with begun := now }.goOn rule now entered entering.job.run.steps := by
          simp [commence, late, refusal, isOpen]
        have begins : d.access rule hasPools now host = ⟨entered, { entering with
            stage := .running now entering.job.run.steps, begun := now }, []⟩ := by
          simp [enters, enter, late, refusal, isOpen]
        rw [goes]
        exact .after begins (accesses_goOn { entering with begun := now } now entered _)

/-- A turn is some accesses in a row. -/
theorem accesses_turn (d : Delivery) (host : HostState) :
    Accesses rule hasPools now host d (d.turn rule hasPools now host) := by
  cases stage : d.stage with
  | arriving =>
    simp only [turn, stage, arrive]
    split
    · next free =>
      have lets : d.access rule hasPools now host = { d with asked := now }.enter now host := by
        simp only [access, stage, free, if_true]
      exact accesses_of_enter lets
    · next needs =>
      split
      · next none_ => exact .of_eq (by simp only [access, stage, needs, none_, if_true]; rfl)
      · next pools =>
        have asks : d.access rule hasPools now host =
            ⟨{ host with pool := host.pool.request d.ticket },
              { d with stage := .queued, asked := now }, []⟩ := by
          simp [access, stage, needs, pools]
        split
        · next held =>
          -- the slot was free, so the next access looks at the breaker
          have lets : { d with stage := .queued, asked := now }.access rule hasPools now
              { host with pool := host.pool.request d.ticket } =
              { d with stage := .queued, asked := now }.enter now
                { host with pool := host.pool.request d.ticket } := by
            simp only [access]
            rw [if_pos held]
          exact .after asks (accesses_of_enter lets)
        · exact .of_eq asks
  | queued =>
    simp only [turn, stage]
    split
    · next held => exact accesses_of_enter (by simp only [access, stage, held, if_true])
    · next waits => exact .of_eq (by simp only [access, stage, waits]; rfl)
  | running due steps =>
    have goes : Accesses rule hasPools now host { d with stage := .running due steps }
        (d.goOn rule now host steps) := accesses_goOn d due host steps
    rw [← stage] at goes
    simp only [turn, stage]
    exact goes
  | _ => exact .of_eq (by simp only [access, turn, stage])

theorem Accessed.job {d : Delivery} {host : HostState} {p : Progress}
    (accessed : d.Accessed rule hasPools now host p) : p.delivery.job = d.job := by
  cases accessed <;> rfl

theorem Accessed.ticket {d : Delivery} {host : HostState} {p : Progress}
    (accessed : d.Accessed rule hasPools now host p) : p.delivery.ticket = d.ticket := by
  cases accessed <;> rfl

end Delivery

namespace Floor

def touch (f : Floor) (time place : Nat) : Floor :=
  let f := { f with now := max f.now time }
  match f.deliveries[place]? with
  | none => f
  | some d =>
    let p := d.access f.registry.rule f.registry.hasPools f.now (f.registry.host d.job.host)
    { f with
      registry := f.registry.setHost d.job.host p.host
      deliveries := f.deliveries.set place p.delivery
      log := (p.seen.map (Entry.mk f.now place)).reverse ++ f.log }

/-- What may come next while deliveries are interleaved in any order. -/
inductive Move
  | add (job : Job)
  | pass (time : Nat)
  | touch (time place : Nat)

def move (f : Floor) : Move → Floor
  | .add job => f.add job
  | .pass time => { f with now := max f.now time }
  | .touch time place => f.touch time place

def moves (f : Floor) (ms : List Move) : Floor := ms.foldl move f

structure Matches (f g : Floor) : Prop where
  registry : f.registry = g.registry
  deliveries : f.deliveries = g.deliveries
  log : f.log = g.log
  now : f.now = g.now
  tickets : f.tickets = g.tickets

theorem Matches.trans {f g h : Floor} (first : f.Matches g) (second : g.Matches h) : f.Matches h :=
  ⟨first.registry.trans second.registry, first.deliveries.trans second.deliveries,
    first.log.trans second.log, first.now.trans second.now, first.tickets.trans second.tickets⟩

theorem matches_wake (f : Floor) (key : String) : (f.wake key).Matches f := by
  unfold wake
  split <;> exact ⟨rfl, rfl, rfl, rfl, rfl⟩

theorem touch_eq {f : Floor} (time : Nat) {place : Nat} {d : Delivery}
    (there : f.deliveries[place]? = some d) :
    let now := max f.now time
    let p := d.access f.registry.rule f.registry.hasPools now (f.registry.host d.job.host)
    f.touch time place = { f with
      now := now, registry := f.registry.setHost d.job.host p.host
      deliveries := f.deliveries.set place p.delivery
      log := (p.seen.map (Entry.mk now place)).reverse ++ f.log } := by
  simp only [touch, there]

theorem touch_of_none {f : Floor} {time place : Nat} (absent : f.deliveries[place]? = none) :
    f.touch time place = { f with now := max f.now time } := by
  simp only [touch, absent]

structure Touched (f : Floor) (time place : Nat) (d : Delivery) (p : Delivery.Progress)
    (later : Floor) : Prop where
  there : f.deliveries[place]? = some d
  accessed : d.Accessed f.registry.rule f.registry.hasPools (max f.now time)
    (f.registry.host d.job.host) p
  registry : later.registry = f.registry.setHost d.job.host p.host
  deliveries : later.deliveries = f.deliveries.set place p.delivery
  log : later.log = (p.seen.map (Entry.mk (max f.now time) place)).reverse ++ f.log
  now : later.now = max f.now time
  tickets : later.tickets = f.tickets

theorem touched {f : Floor} (time : Nat) {place : Nat} {d : Delivery}
    (there : f.deliveries[place]? = some d) : ∃ p, Touched f time place d p (f.touch time place) := by
  rw [touch_eq time there]
  exact ⟨_, there, d.accessed _ _ _ _, rfl, rfl, rfl, rfl, rfl⟩

theorem Touched.here {f later : Floor} {time place : Nat} {d : Delivery} {p : Delivery.Progress}
    (touched : Touched f time place d p later) : later.deliveries[place]? = some p.delivery := by
  have inside := (List.getElem?_eq_some_iff.1 touched.there).1
  simp [touched.deliveries, inside]

theorem Touched.elsewhere {f later : Floor} {time place other : Nat} {d : Delivery}
    {p : Delivery.Progress} (touched : Touched f time place d p later) (ne : place ≠ other) :
    later.deliveries[other]? = f.deliveries[other]? := by
  rw [touched.deliveries, List.getElem?_set_ne ne]

theorem touches_of_accesses {f : Floor} {time place : Nat} {d : Delivery} {p : Delivery.Progress}
    (there : f.deliveries[place]? = some d)
    (accesses : Delivery.Accesses f.registry.rule f.registry.hasPools (max f.now time)
      (f.registry.host d.job.host) d p) :
    ∃ n, f.moves (List.replicate (n + 1) (.touch time place)) = { f with
      now := max f.now time, registry := f.registry.setHost d.job.host p.host
      deliveries := f.deliveries.set place p.delivery
      log := (p.seen.map (Entry.mk (max f.now time) place)).reverse ++ f.log } := by
  generalize rules : f.registry.rule = rule at accesses
  generalize pools : f.registry.hasPools = hasPools at accesses
  generalize at_ : max f.now time = now at accesses
  generalize state : f.registry.host d.job.host = host at accesses
  induction accesses generalizing f with
  | once =>
    refine ⟨0, ?_⟩
    have first := touch_eq time there
    rw [rules, pools, at_, state] at first
    exact first
  | @more host d p _ ih =>
    have first := touch_eq time there
    rw [rules, pools, at_, state] at first
    have own : (d.access rule hasPools now host).delivery.job = d.job :=
      (d.accessed rule hasPools now host).job
    have inside := (List.getElem?_eq_some_iff.1 there).1
    have latest : max (max f.now time) time = max f.now time := by omega
    obtain ⟨n, rest⟩ := ih (f := f.touch time place) (by rw [first]; simp [inside])
      (by rw [first]; exact rules) (by rw [first]; exact pools)
      (by rw [first, ← at_]; exact latest) (by rw [first]; simp [own])
    refine ⟨n + 1, ?_⟩
    have unfolds : f.moves (List.replicate (n + 1 + 1) (.touch time place)) =
        (f.touch time place).moves (List.replicate (n + 1) (.touch time place)) := rfl
    rw [unfolds, rest, first]
    simp [own]

/-- A turn of a delivery is touches of it in a row. -/
theorem matches_take (f : Floor) (turn : Turn) (place : Nat) :
    ∃ n, (f.take turn place).Matches (f.moves (List.replicate (n + 1) (.touch turn.due place))) := by
  cases there : f.deliveries[place]? with
  | none =>
    have touched : f.moves (List.replicate (0 + 1) (.touch turn.due place)) =
        f.touch turn.due place := rfl
    refine ⟨0, ?_⟩
    rw [touched, touch_of_none there]
    simp only [take, there]
    exact ⟨rfl, rfl, rfl, rfl, rfl⟩
  | some d =>
    obtain ⟨n, touched⟩ := touches_of_accesses there (Delivery.accesses_turn d _)
    refine ⟨n, ?_⟩
    rw [touched]
    simp only [take, there]
    refine (matches_wake _ _).trans ?_
    split <;> exact ⟨rfl, rfl, rfl, rfl, rfl⟩

end Floor

end Herald
