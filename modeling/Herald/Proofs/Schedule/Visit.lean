import Herald.Proofs.Completion.Settings
import Herald.Proofs.Schedule.Alone

/-! A visit to a host at which nobody is under way. If nothing keeps the delivery from its run, it begins when
it arrives, and at any time the breaker has heard what the run does by then. -/
namespace Herald.Floor

variable {f g : Floor} {job : Job} {d : Delivery} {report : DeliveryReport} {c : Nat}

def plan (f : Floor) (job : Job) : List (Nat × Deed) := Step.timed f.now job.run.steps

def hears (f : Floor) (key : String) (deeds : List (Nat × Deed)) : Option Breaker :=
  (f.breaker key).heard f.registry.rule deeds

/-- Nothing keeps a job from a run that ends with a report, and the breaker of its host can record that. -/
structure Clears (f : Floor) (job : Job) (report : DeliveryReport) : Prop where
  admitted : Delivery.Admitted job f.registry.hasPools (f.breaker job.host) f.now
  recordable : f.hears job.host (f.plan job) ≠ none
  reports : job.ending = .reported report
  ran : report ≠ .rejected job.host

structure Visited (f : Floor) (job : Job) (g : Floor) : Prop where
  regular : Regular g
  alone : Alone f.deliveries.length job (f.breaker job.host) f.now g
  rule : g.registry.rule = f.registry.rule
  hasPools : g.registry.hasPools = f.registry.hasPools

theorem Regular.visited (regular : Regular f)
    (free : ∀ d ∈ f.deliveries, d.job.host = job.host → d.isOver = true)
    (goOn : Floor → Turn → Bool) (turns : Nat) :
    Visited f job (Floor.playFor goOn turns (f.add job)) := by
  obtain ⟨rule, slots⟩ := rule_playFor (f.add job) goOn turns
  refine ⟨(regular.add job).playFor goOn turns, ?_, rule, ?_⟩
  · exact (alone_add regular.sound regular.onTime job free).playFor (regular.add job) goOn turns
  · rw [Registry.hasPools, slots]
    rfl

theorem Visited.clears (visited : Visited f job g)
    (there : g.deliveries[f.deliveries.length]? = some d)
    (finished : d.stage = .over (.reported report)) (ran : report ≠ .rejected job.host) :
    f.Clears job report := by
  obtain ⟨regular, alone, rule, pools⟩ := visited
  obtain ⟨o, at_, rfl, solo⟩ := alone.solo
  obtain rfl := Option.some.inj (at_.symm.trans there)
  have onCourse := regular.sound.onCourse _ (List.mem_of_getElem? there)
  obtain ⟨admitted, begun, told⟩ := solo.of_reported onCourse finished ran
  obtain ⟨reports, trace, -⟩ :=
    ((regular.onTime.scheduled there).of_reported finished).resolve_left fun other => ran other.1
  rw [rule, trace, begun] at told
  refine ⟨pools ▸ admitted, ?_, reports, ran⟩
  simp [hears, plan, told]

section

variable (visited : Visited f job g) (clears : f.Clears job report)
include visited clears

theorem Visited.told : ∃ d, g.deliveries[f.deliveries.length]? = some d ∧ (d.stage = .arriving ∨
    (d.begun = f.now ∧
      f.hears job.host (g.trace f.deliveries.length) = some (g.breaker job.host) ∧
      ((∃ due steps, d.stage = .running due steps ∧
        g.trace f.deliveries.length ++ Step.timed due steps = f.plan job) ∨
      (d.stage = .over (.reported report) ∧ g.trace f.deliveries.length = f.plan job ∧
        d.ended = f.now + job.run.time)))) := by
  obtain ⟨regular, alone, rule, pools⟩ := visited
  obtain ⟨admitted, recordable, reports, ran⟩ := clears
  obtain ⟨d, there, rfl, solo⟩ := alone.solo
  rw [rule, pools] at solo
  have scheduled := regular.onTime.scheduled there
  refine ⟨d, there, (solo.of_admitted admitted recordable).imp_right ?_⟩
  rintro ⟨begun, told, ⟨due, steps, running⟩ | finished⟩
  · have parts := (scheduled.split running).1
    rw [begun] at parts
    exact ⟨begun, told, .inl ⟨due, steps, running, parts⟩⟩
  · rw [reports] at finished
    obtain ⟨-, whole, ended⟩ := (scheduled.of_reported finished).resolve_left fun other => ran other.1
    rw [begun] at whole ended
    exact ⟨begun, told, .inr ⟨finished, whole, ended⟩⟩

theorem Visited.made_run (done : ∀ d ∈ g.deliveries, d.isOver = true) :
    ∃ d, g.deliveries[f.deliveries.length]? = some d ∧ d.stage = .over (.reported report) ∧
      d.begun = f.now ∧ d.ended = f.now + job.run.time ∧
      g.trace f.deliveries.length = f.plan job ∧
      f.hears job.host (f.plan job) = some (g.breaker job.host) := by
  obtain ⟨d, there, arriving | ⟨begun, told, ⟨due, steps, running, -⟩ | ⟨finished, whole, ended⟩⟩⟩ :=
    visited.told clears
  · have over_ := done d (List.mem_of_getElem? there)
    simp [Delivery.isOver, Delivery.ending?, arriving] at over_
  · have over_ := done d (List.mem_of_getElem? there)
    simp [Delivery.isOver, Delivery.ending?, running] at over_
  · exact ⟨d, there, finished, begun, ended, whole, whole ▸ told⟩

/-- When all turns up to a time are taken, the breaker has heard all that the run does by then. -/
theorem Visited.heard_by (early : f.now ≤ c) (now : g.now ≤ c)
    (beyond : ∀ e ∈ g.agenda, c < e.1.due) :
    f.hears job.host ((f.plan job).filter fun e => e.1 ≤ c) = some (g.breaker job.host) := by
  have regular := visited.regular
  have past : (g.trace f.deliveries.length).filter (fun e => e.1 ≤ c) =
      g.trace f.deliveries.length := List.filter_eq_self.2 fun e mem => by
    simpa using Nat.le_trans (regular.onTime.le_now mem) now
  obtain ⟨d, there, arriving | ⟨-, told, ⟨due, steps, running, parts⟩ | ⟨-, whole, -⟩⟩⟩ :=
    visited.told clears
  · obtain ⟨e, mem, own⟩ := regular.sound.attended.exists_turn there (.inl arriving)
    have at_ := visited.alone.arrives d there arriving e mem own
    have later := beyond e mem
    omega
  · obtain ⟨e, mem, -, rfl, -⟩ := regular.due_of_running there running
    have ahead : (Step.timed e.1.due steps).filter (fun e => e.1 ≤ c) = [] := by
      refine List.filter_eq_nil_iff.2 fun other inside => ?_
      have later := (Step.within_of_mem_timed inside).1
      have turn := beyond e mem
      simp only [decide_eq_true_eq]
      omega
    rw [← parts, List.filter_append, ahead, List.append_nil, past, told]
  · rw [← whole, past, told]

end

theorem Regular.heard_until (regular : Regular f)
    (free : ∀ d ∈ f.deliveries, d.job.host = job.host → d.isOver = true) (clears : f.Clears job report)
    (early : f.now ≤ c) : f.hears job.host ((f.plan job).filter fun e => e.1 ≤ c) =
      some (((f.add job).passUntil c).breaker job.host) :=
  (regular.visited free _ _).heard_by clears early (now_playFor_le (regular.add job) early _)
    (beyond_playFor (regular.add job).sound.planned c (Nat.le_refl _))

end Herald.Floor
