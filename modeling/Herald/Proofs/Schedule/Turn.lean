import Herald.Proofs.Delivery.Clock
import Herald.Proofs.Interleaving.Trace

/-! All that a turn can do, with the time of each deed. What a turn does of a run and what it leaves to later
turns are the deeds of the run at their times; and the breaker is told of just these deeds. -/
namespace Herald

def Breaker.heard (rule : Rule) : Breaker → List (Nat × Deed) → Option Breaker
  | b, [] => some b
  | b, (time, deed) :: rest =>
    match b.notice rule time deed with
    | (_, some .overflowed) => none
    | (later, _) => heard rule later rest

namespace Breaker

variable {rule : Rule} {b later : Breaker} {time : Nat} {deed : Deed}

theorem heard_cons_of_overflowed (noticed : b.notice rule time deed = (later, some .overflowed))
    (rest : List (Nat × Deed)) : b.heard rule ((time, deed) :: rest) = none := by
  simp only [heard, noticed]

theorem heard_cons {recorded : Option Recorded} (noticed : b.notice rule time deed = (later, recorded))
    (recordable : recorded ≠ some .overflowed) (rest : List (Nat × Deed)) :
    b.heard rule ((time, deed) :: rest) = later.heard rule rest := by
  rcases recorded with _ | _ | _ | _
  · simp only [heard, noticed]
  · simp only [heard, noticed]
  · simp only [heard, noticed]
  · exact absurd rfl recordable

theorem heard_append (b : Breaker) (first second : List (Nat × Deed)) :
    b.heard rule (first ++ second) = (b.heard rule first).bind fun mid => mid.heard rule second := by
  induction first generalizing b with
  | nil => rfl
  | cons e first ih =>
    obtain ⟨time, deed⟩ := e
    rcases noticed : b.notice rule time deed with ⟨later, recorded⟩
    by_cases overflows : recorded = some .overflowed
    · subst overflows
      rw [List.cons_append, heard_cons_of_overflowed noticed, heard_cons_of_overflowed noticed]
      rfl
    · rw [List.cons_append, heard_cons noticed overflows, heard_cons noticed overflows, ih]

end Breaker

theorem Job.total_run (j : Job) : Step.total j.run.steps = j.run.time := by
  have passes := (clocked_attemptsFrom j.limits j.operation j.delays 1 0).passes
  rwa [Nat.zero_add] at passes

namespace Delivery

def Progress.timed (p : Progress) (now : Nat) : List (Nat × Deed) := p.deeds.map (Prod.mk now)

/-- All that a turn can do with the steps of a run that are left: it comes to a wait, to the end of the
run, or to a failure that the breaker cannot record. -/
inductive Went (d : Delivery) (rule : Breaker.Rule) (now : Nat) (host : HostState)
    (steps : List Step) (p : Progress) : Prop
  | rests {ms : Nat} {rest : List Step} : p.delivery = { d with stage := .running (now + ms) rest } →
    p.timed now ++ Step.timed (now + ms) rest = Step.timed now steps →
    Step.total steps = ms + Step.total rest →
    host.breaker.heard rule (p.timed now) = some p.host.breaker → Went d rule now host steps p
  | ends : p.delivery =
      { d with stage := .over d.job.ending, ended := now, breaker := p.host.breaker } →
    p.timed now = Step.timed now steps → Step.total steps = 0 →
    host.breaker.heard rule (p.timed now) = some p.host.breaker → Went d rule now host steps p
  | crashes : p.delivery =
      { d with stage := .over (.crashed .time), ended := now, breaker := p.host.breaker } →
    p.timed now <+: Step.timed now steps → host.breaker.heard rule (Step.timed now steps) = none →
    Went d rule now host steps p

inductive Commenced (d : Delivery) (rule : Breaker.Rule) (now : Nat) (host : HostState) :
    Progress → Prop
  | late : Breaker.endOfTime ≤ now + d.job.timeout →
    Commenced d rule now host ({ d with begun := now }.finish now host (.crashed .time))
  | refused {failure : Failure} : d.job.refusal = some failure →
    Commenced d rule now host ({ d with begun := now }.finish now host (.refused failure))
  | rejected : host.breaker.isOpen now = true →
    Commenced d rule now host
      ({ d with begun := now }.finish now host (.reported (.rejected d.job.host)))
  | begins {p : Progress} : host.breaker.isOpen now = false →
    Went { d with begun := now } rule now host d.job.run.steps p → Commenced d rule now host p

inductive Acted (d : Delivery) (rule : Breaker.Rule) (hasPools : Bool) (now : Nat)
    (host : HostState) : Progress → Prop
  | idles : (∃ ending, d.stage = .over ending) ∨
      (d.stage = .queued ∧ host.pool.isHeld d.ticket = false) →
    Acted d rule hasPools now host ⟨host, d, []⟩
  | asks : d.stage = .arriving → (host.pool.request d.ticket).isHeld d.ticket = false →
    Acted d rule hasPools now host ⟨{ host with pool := host.pool.request d.ticket },
      { d with stage := .queued, asked := now }, []⟩
  | noSlots : d.stage = .arriving → d.job.needsSlot = true → hasPools = false →
    Acted d rule hasPools now host ({ d with asked := now }.finish now host (.crashed .slots))
  | enters {asked : Nat} {pool : SlotPool} {p : Progress} : d.stage = .arriving ∨ d.stage = .queued →
    Commenced { d with asked := asked } rule now { host with pool := pool } p →
    Acted d rule hasPools now host p
  | goesOn {due : Nat} {steps : List Step} {p : Progress} : d.stage = .running due steps →
    Went d rule now host steps p → Acted d rule hasPools now host p

variable {d : Delivery} {rule : Breaker.Rule} {hasPools : Bool} {now : Nat} {host : HostState}
  {steps : List Step} {p : Progress}

theorem Went.act {deed : Deed} {later : Breaker} {recorded : Option Breaker.Recorded}
    (noticed : host.breaker.notice rule now deed = (later, recorded))
    (recordable : recorded ≠ some .overflowed)
    (went : Went d rule now { host with breaker := later } steps p) :
    Went d rule now host (.act deed :: steps) { p with seen := deed.seen recorded ++ p.seen } := by
  have timed : Progress.timed { p with seen := deed.seen recorded ++ p.seen } now =
      (now, deed) :: p.timed now := by
    simp [Progress.timed, Progress.deeds, Deed.deeds_seen]
  have heard (deeds : List (Nat × Deed)) :
      host.breaker.heard rule ((now, deed) :: deeds) = later.heard rule deeds :=
    Breaker.heard_cons noticed recordable deeds
  cases went with
  | rests becomes parts total told =>
    refine .rests becomes ?_ total ?_
    · rw [timed, List.cons_append, parts, Step.timed_act]
    · rw [timed, heard]
      exact told
  | ends becomes whole total told =>
    refine .ends becomes ?_ total ?_
    · rw [timed, whole, Step.timed_act]
    · rw [timed, heard]
      exact told
  | crashes becomes part told =>
    refine .crashes becomes ?_ ?_
    · rw [timed, Step.timed_act]
      exact (List.prefix_cons_inj _).2 part
    · rw [Step.timed_act, heard]
      exact told

theorem went_goOn (d : Delivery) (rule : Breaker.Rule) (now : Nat) (host : HostState)
    (steps : List Step) : Went d rule now host steps (d.goOn rule now host steps) := by
  induction steps generalizing host with
  | nil => exact .ends rfl rfl rfl rfl
  | cons step steps ih =>
    cases step with
    | wait ms => exact .rests rfl rfl rfl rfl
    | act deed =>
      rcases noticed : host.breaker.notice rule now deed with ⟨later, recorded⟩
      by_cases overflows : recorded = some .overflowed
      · subst overflows
        rw [goOn_act_of_overflowed noticed]
        exact .crashes rfl (List.nil_prefix) (Breaker.heard_cons_of_overflowed noticed _)
      · rw [goOn_act noticed overflows]
        exact (ih { host with breaker := later }).act noticed overflows

theorem commenced_commence (d : Delivery) (rule : Breaker.Rule) (now : Nat) (host : HostState) :
    Commenced d rule now host (d.commence rule now host) := by
  simp only [commence]
  split
  · next late => exact .late late
  · split
    · next failure refused => exact .refused refused
    · split
      · next isOpen => exact .rejected isOpen
      · next closed => exact .begins (by simpa using closed) (went_goOn ..)

theorem acted_turn (d : Delivery) (rule : Breaker.Rule) (hasPools : Bool) (now : Nat)
    (host : HostState) : Acted d rule hasPools now host (d.turn rule hasPools now host) := by
  cases stage : d.stage with
  | arriving =>
    simp only [turn, stage, arrive]
    split
    · exact .enters (.inl stage) (commenced_commence ..)
    · next needs =>
      split
      · next none_ => exact .noSlots stage (by simpa using needs) (by simpa using none_)
      · split
        · exact .enters (.inl stage) (commenced_commence ..)
        · next unheld => exact .asks stage (by simpa using unheld)
  | queued =>
    simp only [turn, stage]
    split
    · exact .enters (.inr stage) (commenced_commence d ..)
    · next unheld => exact .idles (.inr ⟨stage, by simpa using unheld⟩)
  | running due steps =>
    simp only [turn, stage]
    exact .goesOn stage (went_goOn ..)
  | _ =>
    simp only [turn, stage]
    exact .idles (.inl ⟨_, stage⟩)

/-- The deeds of a delivery up to now are those of its run at their times, and the rest of the run is due.
The run is as long as it would be on its own. -/
inductive Scheduled (d : Delivery) (hasPools : Bool) : List (Nat × Deed) → Prop
  | waits : d.stage = .arriving ∨ d.stage = .queued → Scheduled d hasPools []
  | barred {ending : Ending} : d.stage = .over ending → d.Barred hasPools ending →
    Scheduled d hasPools []
  | rejected : d.stage = .over (.reported (.rejected d.job.host)) → d.ended = d.begun →
    Scheduled d hasPools []
  | runs {due : Nat} {steps : List Step} {trace : List (Nat × Deed)} : d.stage = .running due steps →
    trace ++ Step.timed due steps = Step.timed d.begun d.job.run.steps →
    due + Step.total steps = d.begun + Step.total d.job.run.steps → Scheduled d hasPools trace
  | ended {trace : List (Nat × Deed)} : d.stage = .over d.job.ending →
    trace = Step.timed d.begun d.job.run.steps →
    d.ended = d.begun + Step.total d.job.run.steps → Scheduled d hasPools trace
  | crashed {trace : List (Nat × Deed)} : d.stage = .over (.crashed .time) →
    trace <+: Step.timed d.begun d.job.run.steps →
    d.ended ≤ d.begun + Step.total d.job.run.steps → Scheduled d hasPools trace

variable {trace : List (Nat × Deed)}

theorem Scheduled.eq_nil (scheduled : d.Scheduled hasPools trace)
    (early : d.stage = .arriving ∨ d.stage = .queued) : trace = [] := by
  cases scheduled with
  | waits => rfl
  | barred finished => simp [finished] at early
  | rejected finished => simp [finished] at early
  | runs running => simp [running] at early
  | ended finished => simp [finished] at early
  | crashed finished => simp [finished] at early

theorem Scheduled.split (scheduled : d.Scheduled hasPools trace) {due : Nat} {steps : List Step}
    (running : d.stage = .running due steps) :
    trace ++ Step.timed due steps = Step.timed d.begun d.job.run.steps ∧
      due + Step.total steps = d.begun + Step.total d.job.run.steps := by
  cases scheduled with
  | waits early => simp [running] at early
  | barred finished => simp [running] at finished
  | rejected finished => simp [running] at finished
  | runs same parts ends =>
    obtain ⟨rfl, rfl⟩ : _ = due ∧ _ = steps := by simpa [running] using same.symm
    exact ⟨parts, ends⟩
  | ended finished => simp [running] at finished
  | crashed finished => simp [running] at finished

theorem scheduled_of_went
    (parts : trace ++ Step.timed now steps = Step.timed d.begun d.job.run.steps)
    (ends : now + Step.total steps = d.begun + Step.total d.job.run.steps)
    (went : Went d rule now host steps p) : p.delivery.Scheduled hasPools (trace ++ p.timed now) := by
  cases went with
  | rests becomes own total =>
    rw [becomes]
    refine .runs rfl ?_ ?_
    · rw [List.append_assoc, own]
      exact parts
    · simp only
      omega
  | ends becomes own total =>
    rw [becomes]
    refine .ended rfl ?_ ?_
    · rw [own]
      exact parts
    · simp only
      omega
  | crashes becomes own =>
    rw [becomes]
    refine .crashed rfl ?_ ?_
    · rw [← parts]
      exact (List.prefix_append_right_inj _).2 own
    · simp only
      omega

theorem scheduled_of_commenced (commenced : Commenced d rule now host p) :
    p.delivery.Scheduled hasPools (p.timed now) := by
  cases commenced with
  | late late => exact .barred rfl (.late late)
  | refused refused => exact .barred rfl (.refused refused)
  | rejected => exact .rejected rfl rfl
  | begins _ went => exact scheduled_of_went (List.nil_append _) rfl went

/-- Every turn keeps the schedule, if a run that goes on has its turn when it is due. -/
theorem Scheduled.turn (scheduled : d.Scheduled hasPools trace)
    (onTime : ∀ {due steps}, d.stage = .running due steps → now = due)
    (acted : Acted d rule hasPools now host p) :
    p.delivery.Scheduled hasPools (trace ++ p.timed now) := by
  cases acted with
  | idles => simpa [Progress.timed, Progress.deeds] using scheduled
  | asks arriving =>
    rw [scheduled.eq_nil (.inl arriving)]
    exact .waits (.inr rfl)
  | noSlots arriving _ none_ =>
    rw [scheduled.eq_nil (.inl arriving)]
    exact .barred rfl (.noSlots none_)
  | enters early commenced =>
    rw [scheduled.eq_nil early]
    exact scheduled_of_commenced commenced
  | goesOn running went =>
    obtain ⟨parts, ends⟩ := scheduled.split running
    obtain rfl := onTime running
    exact scheduled_of_went parts ends went

theorem Scheduled.isPrefix (scheduled : d.Scheduled hasPools trace) :
    trace <+: Step.timed d.begun d.job.run.steps := by
  cases scheduled with
  | waits => exact List.nil_prefix
  | barred => exact List.nil_prefix
  | rejected => exact List.nil_prefix
  | runs _ parts => exact ⟨_, parts⟩
  | ended _ whole => exact whole ▸ List.prefix_rfl
  | crashed _ part => exact part

theorem Scheduled.of_reported (scheduled : d.Scheduled hasPools trace) {report : DeliveryReport}
    (finished : d.stage = .over (.reported report)) :
    (report = .rejected d.job.host ∧ trace = [] ∧ d.ended = d.begun) ∨
      (d.job.ending = .reported report ∧ trace = Step.timed d.begun d.job.run.steps ∧
        d.ended = d.begun + d.job.run.time) := by
  cases scheduled with
  | waits early => simp [finished] at early
  | barred ends barred =>
    rw [finished] at ends
    obtain rfl := Stage.over.inj ends
    cases barred
  | rejected ends at_ =>
    rw [finished] at ends
    exact .inl ⟨by simpa using ends, rfl, at_⟩
  | runs running => simp [finished] at running
  | ended ends whole at_ =>
    rw [finished] at ends
    exact .inr ⟨(Stage.over.inj ends).symm, whole, by rw [at_, Job.total_run]⟩
  | crashed ends => simp [finished] at ends

end Delivery

end Herald
