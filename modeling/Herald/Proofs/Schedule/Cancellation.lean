import Herald.Proofs.Delivery.Cancellation
import Herald.Proofs.Interleaving.Calls
import Herald.Proofs.Schedule.Visit

/-! Cancellation cuts a run and changes nothing else. A delivery that has its host to itself does the same
with a cancellation as without it until then, and the breaker is the one that it is told of by then. -/
namespace Herald

namespace Deed

variable {begun c first : Nat} {deeds : List (Nat × Deed)}

def since (begun : Nat) (deeds : List (Nat × Deed)) : List (Nat × Deed) :=
  deeds.map fun e => (begun + e.1, e.2)

theorem before_since : before (begun + c) (since begun deeds) = since begun (before c deeds) := by
  simp only [before, since, List.filter_map]
  congr 1
  exact List.filter_congr fun e _ => by simp

theorem completed_since : completed (since begun deeds) = completed deeds := by
  rw [completed, since, List.filterMap_map]
  rfl

theorem underway_since (open_ : Option Nat) :
    underway (open_.map (begun + ·)) (since begun deeds) = (underway open_ deeds).map (begun + ·) := by
  induction deeds generalizing open_ with
  | nil => rfl
  | cons e deeds ih =>
    obtain ⟨time, deed⟩ := e
    cases deed with
    | called => exact ih (some time)
    | ended attempt result => exact ih none
    | _ => exact ih open_

theorem closed_since :
    closed first (begun + c) (since begun deeds) = since begun (closed first c deeds) := by
  have open_ : underway none (since begun deeds) = (underway none deeds).map (begun + ·) :=
    underway_since none
  rw [closed, closed, completed_since, open_]
  cases underway none deeds with
  | none => rfl
  | some t =>
    have elapsed : begun + c - (begun + t) = c - t := Nat.add_sub_add_left _ _ _
    simp only [Option.map_some, elapsed]
    rfl

end Deed

namespace Breaker

variable {rule : Rule}

theorem heard_ends (b : Breaker) (deeds : List (Nat × Deed)) :
    b.heard rule (deeds.filter fun e => e.2.attempt?.isSome) = b.heard rule deeds := by
  induction deeds generalizing b with
  | nil => rfl
  | cons e deeds ih =>
    obtain ⟨time, deed⟩ := e
    cases deed with
    | ended attempt result =>
      rw [List.filter_cons_of_pos rfl]
      rcases noticed : b.notice rule time (.ended attempt result) with ⟨later, recorded⟩
      by_cases overflows : recorded = some .overflowed
      · subst overflows
        rw [heard_cons_of_overflowed noticed, heard_cons_of_overflowed noticed]
      · rw [heard_cons noticed overflows, heard_cons noticed overflows, ih]
    | _ =>
      rw [List.filter_cons_of_neg (by simp [Deed.attempt?])]
      exact ih b

theorem heard_before {c : Nat} {deeds : List (Nat × Deed)}
    (quiet : ∀ attempt result, (c, .ended attempt result) ∉ deeds) (b : Breaker) :
    b.heard rule (Deed.before c deeds) = b.heard rule (deeds.filter fun e => e.1 ≤ c) := by
  rw [← b.heard_ends (Deed.before c deeds), ← b.heard_ends (deeds.filter _), Deed.before,
    List.filter_filter, List.filter_filter]
  congr 1
  refine List.filter_congr fun e mem => ?_
  obtain ⟨time, deed⟩ := e
  cases deed with
  | ended attempt result =>
    have ne : time ≠ c := by
      rintro rfl
      exact quiet attempt result mem
    have same : time < c ↔ time ≤ c := by omega
    simp [same]
  | _ => rfl

theorem heard_closed (b : Breaker) (first c : Nat) (deeds : List (Nat × Deed)) :
    b.heard rule (Deed.closed first c deeds) = some b := by
  unfold Deed.closed
  split <;> rfl

end Breaker

theorem Step.attempts_of_closed {begun stop : Nat} {steps : List Step} {past : List (Nat × Deed)}
    (timed : Step.timed begun steps = past ++ Deed.closed 1 stop past) :
    (Deed.underway none past = none → attempts steps = Deed.completed past) ∧
    ∀ t, Deed.underway none past = some t → attempts steps = Deed.completed past ++
      [⟨(Deed.completed past).length + 1, stop - t, .permanentFailure Failure.cancelled.message⟩] := by
  rw [← completed_timed begun, timed, Deed.completed_append, Deed.closed]
  refine ⟨fun none_ => by rw [none_]; exact List.append_nil _, fun t underway => ?_⟩
  rw [underway, Nat.add_comm 1]
  rfl

namespace Job

def cancelledAt (j : Job) (c : Nat) : Job := { j with cancelAfter := some c }

variable {j : Job} {c : Nat}

theorem cut_run (own : ∀ i, ∀ deed ∈ (j.operation i).deeds, deed.isOwn = true)
    (patient : j.cancelAfter = none) (positive : 0 < c) (begun : Nat) :
    (j.run.time < c → (j.cancelledAt c).run = j.run) ∧
    (c ≤ j.run.time → (j.cancelledAt c).run.time = c ∧
      (j.cancelledAt c).run.result = .ok (.error .cancelled) ∧
      let past := Deed.before (begun + c) (Step.timed begun j.run.steps)
      Step.timed begun (j.cancelledAt c).run.steps = past ++ Deed.closed 1 (begun + c) past) := by
  have limits : j.limits = ⟨j.timeout, none⟩ := by rw [Job.limits, patient]
  have cuts := cut_attemptsFrom own j.timeout j.delays 1 positive
  rw [← limits] at cuts
  refine ⟨cuts.early, fun late => ?_⟩
  obtain ⟨at_, result, timed⟩ := cuts.late late
  have shift (steps : List Step) : Step.timed begun steps = Deed.since begun (Step.timed 0 steps) :=
    Step.timed_add begun 0 steps
  refine ⟨at_, result, ?_⟩
  simp only [shift, Deed.before_since, Deed.closed_since]
  exact (congrArg (Deed.since begun) timed).trans List.map_append

end Job

namespace Floor

variable {f : Floor} {job : Job} {report : DeliveryReport} {c : Nat}

theorem Clears.of_same (clears : f.Clears job report) (same : (job.cancelledAt c).run = job.run) :
    f.Clears (job.cancelledAt c) report := by
  obtain ⟨⟨pools, inTime, unrefused, closed⟩, recordable, reports, ran⟩ := clears
  refine ⟨⟨pools, inTime, unrefused, closed⟩, ?_, ?_, ran⟩
  · rw [plan, ← same] at recordable
    exact recordable
  · rw [← reports, Job.ending, Job.ending, same]
    rfl

theorem Clears.of_cut (clears : f.Clears job report) {past : List (Nat × Deed)} {b : Breaker}
    (result : (job.cancelledAt c).run.result = .ok (.error .cancelled))
    (timed : f.plan (job.cancelledAt c) = past ++ Deed.closed 1 (f.now + c) past)
    (known : f.hears job.host past = some b) :
    f.hears job.host (f.plan (job.cancelledAt c)) = some b ∧ f.Clears (job.cancelledAt c)
      ⟨job.host, Step.attempts (job.cancelledAt c).run.steps, .error .cancelled⟩ := by
  obtain ⟨⟨pools, inTime, unrefused, closed⟩, -, -, -⟩ := clears
  have told : f.hears job.host (f.plan (job.cancelledAt c)) = some b := by
    rw [hears] at known ⊢
    rw [timed, Breaker.heard_append, known, Option.bind_some, Breaker.heard_closed]
  refine ⟨told, ⟨pools, inTime, unrefused, closed⟩, ?_, ?_, by simp [DeliveryReport.rejected]⟩
  · exact fun none_ => Option.some_ne_none b (told.symm.trans none_)
  · rw [Job.ending, result]
    rfl

section

variable (regular : Regular f)
  (free : ∀ d ∈ f.deliveries, d.job.host = job.host → d.isOver = true) (clears : f.Clears job report)
  (own : ∀ i, ∀ deed ∈ (job.operation i).deeds, deed.isOwn = true) (patient : job.cancelAfter = none)
  (positive : 0 < c)
include regular free clears own patient positive

theorem Regular.cut_of_early (early : job.run.time < c) :
    let cut := (f.add (job.cancelledAt c)).playWhile fun _ _ => true
    ∃ e, cut.deliveries[f.deliveries.length]? = some e ∧ e.stage = .over (.reported report) ∧
      e.begun = f.now ∧ e.ended = f.now + job.run.time ∧
      cut.trace f.deliveries.length = f.plan job ∧
      f.hears job.host (f.plan job) = some (cut.breaker job.host) := by
  intro cut
  have same : (job.cancelledAt c).run = job.run := (Job.cut_run own patient positive f.now).1 early
  have alike : ∀ o ∈ f.deliveries, o.job.host = (job.cancelledAt c).host → o.isOver = true := free
  have visited : Visited f (job.cancelledAt c) cut := regular.visited alike _ _
  obtain ⟨e, there, finished, begun, ended, trace, told⟩ :=
    visited.made_run (clears.of_same same) (regular.add _).all_over
  rw [plan, same] at trace told
  rw [same] at ended
  exact ⟨e, there, finished, begun, ended, trace, told⟩

theorem Regular.cut_of_late (late : c ≤ job.run.time) :
    let cut := (f.add (job.cancelledAt c)).playWhile fun _ _ => true
    let past := Deed.before (f.now + c) (f.plan job)
    ∃ e attempts, cut.deliveries[f.deliveries.length]? = some e ∧
      e.stage = .over (.reported ⟨job.host, attempts, .error .cancelled⟩) ∧
      e.begun = f.now ∧ e.ended = f.now + c ∧
      (Deed.underway none past = none → attempts = Deed.completed past) ∧
      (∀ t, Deed.underway none past = some t → attempts = Deed.completed past ++
        [⟨(Deed.completed past).length + 1, f.now + c - t,
          .permanentFailure Failure.cancelled.message⟩]) ∧
      f.hears job.host past = some (cut.breaker job.host) := by
  intro cut past
  obtain ⟨at_, result, timed⟩ := (Job.cut_run own patient positive f.now).2 late
  -- all that is done before the cancellation is done by a time at which it has not come
  have before : past = (f.plan job).filter fun e => e.1 ≤ f.now + c - 1 :=
    List.filter_congr fun e _ => by
      have least : e.1 < f.now + c ↔ e.1 ≤ f.now + c - 1 := by omega
      simp [least]
  have known := regular.heard_until free clears
    (Nat.le_sub_one_of_lt (Nat.lt_add_of_pos_right positive : f.now < f.now + c))
  rw [← before] at known
  obtain ⟨told, cutClears⟩ := clears.of_cut result timed known
  have alike : ∀ o ∈ f.deliveries, o.job.host = (job.cancelledAt c).host → o.isOver = true := free
  have visited : Visited f (job.cancelledAt c) cut := regular.visited alike _ _
  obtain ⟨e, there, finished, begun, ended, -, heard⟩ :=
    visited.made_run cutClears (regular.add _).all_over
  obtain ⟨idle, busy⟩ := Step.attempts_of_closed timed
  rw [at_] at ended
  exact ⟨e, _, there, finished, begun, ended, idle, busy, known.trans (told.symm.trans heard)⟩

end

/-- Cancellation truncates a run and changes nothing else. Take a delivery that has its host to itself and
reports its run, and the same one with a cancellation. If that comes after the end of the run, nothing
changes. If it comes during the run, the run ends with it: its attempts are those that had ended, and the one
that was under way, if there was one. Unless an attempt ends just then, the breaker is as it is at that time
without the cancellation. -/
theorem cancellation_truncates (regular : Regular f)
    (own : ∀ i, ∀ deed ∈ (job.operation i).deeds, deed.isOwn = true) (patient : job.cancelAfter = none)
    (free : ∀ d ∈ f.deliveries, d.job.host = job.host → d.isOver = true) (positive : 0 < c) :
    let place := f.deliveries.length
    let whole := (f.add job).playWhile fun _ _ => true
    let cut := (f.add (job.cancelledAt c)).playWhile fun _ _ => true
    ∀ d report, whole.deliveries[place]? = some d → d.stage = .over (.reported report) →
      report ≠ .rejected job.host →
      let stop := d.begun + c
      let past := Deed.before stop (whole.trace place)
      report.attempts = Deed.completed (whole.trace place) ∧
      ∃ e, cut.deliveries[place]? = some e ∧ e.begun = d.begun ∧
        (d.ended < stop → e.stage = d.stage ∧ e.ended = d.ended ∧
          cut.trace place = whole.trace place ∧ cut.breaker job.host = whole.breaker job.host) ∧
        (stop ≤ d.ended → e.ended = stop ∧
          (∃ attempts, e.stage = .over (.reported ⟨job.host, attempts, .error .cancelled⟩) ∧
            (Deed.underway none past = none → attempts = Deed.completed past) ∧
            ∀ t, Deed.underway none past = some t → attempts = Deed.completed past ++
              [⟨(Deed.completed past).length + 1, stop - t,
                .permanentFailure Failure.cancelled.message⟩]) ∧
          ((∀ attempt result, (stop, .ended attempt result) ∉ whole.trace place) →
            cut.breaker job.host = ((f.add job).passUntil stop).breaker job.host)) := by
  intro place whole cut d report there finished ran stop past
  have visited : Visited f job whole := regular.visited free _ _
  have clears := visited.clears there finished ran
  obtain ⟨o, at_, ending, begun, ended, trace, told⟩ :=
    visited.made_run clears (regular.add job).all_over
  obtain rfl := Option.some.inj (at_.symm.trans there)
  have stops : stop = f.now + c := congrArg (· + c) begun
  have done : past = Deed.before (f.now + c) (f.plan job) := by rw [← stops, ← trace]
  refine ⟨?_, ?_⟩
  · obtain ⟨last, -, rfl⟩ := Job.run_of_reported clears.reports
    rw [trace, plan, Step.completed_timed]
  rcases Nat.lt_or_ge job.run.time c with sooner | late
  · obtain ⟨e, is, same, starts, ends, deeds, heard⟩ :=
      regular.cut_of_early free clears own patient positive sooner
    refine ⟨e, is, starts.trans begun.symm, fun _ => ?_, fun late => by omega⟩
    exact ⟨same.trans ending.symm, ends.trans ended.symm, deeds.trans trace.symm,
      Option.some.inj (heard.symm.trans told)⟩
  · obtain ⟨e, attempts, is, cancelled, starts, ends, idle, busy, heard⟩ :=
      regular.cut_of_late free clears own patient positive late
    refine ⟨e, is, starts.trans begun.symm, fun sooner => by omega, fun _ => ?_⟩
    rw [← done, ← stops] at busy
    rw [← done] at idle heard
    refine ⟨ends.trans stops.symm, ⟨attempts, cancelled, idle, busy⟩, fun quiet => ?_⟩
    have now := regular.heard_until free clears (stops ▸ Nat.le_add_right f.now c)
    rw [← trace, hears, ← Breaker.heard_before quiet] at now
    exact Option.some.inj (heard.symm.trans now)

/-- A cancellation in the middle of a second attempt. -/
theorem cancellation_truncates_of_second_attempt :
    let reset : Failure := .http (.stated "reset")
    let operation : Nat → Course := fun i =>
      .act .answered (.pause 4 (.done (if i = 1 then .error reset else .ok ())))
    let job : Job := { host := "a", timeout := 100, delays := [2], operation := operation }
    let f : Floor := { registry := ⟨1, ⟨3, 60000⟩, {}⟩ }
    let cut := (f.add (job.cancelledAt 8)).playWhile fun _ _ => true
    ∃ e, cut.deliveries[0]? = some e ∧ e.ended = 8 ∧
      e.stage = .over (.reported ⟨"a", [⟨1, 4, .transientFailure reset.message⟩,
        ⟨2, 2, .permanentFailure Failure.cancelled.message⟩], .error .cancelled⟩) ∧
      cut.breaker "a" = ((f.add job).passUntil 8).breaker "a" := by
  intro reset operation job f cut
  let attempt : Attempt := ⟨1, 4, .transientFailure reset.message⟩
  have deeds : Step.timed 0 job.run.steps = [(0, .called), (0, .started), (0, .answered),
      (4, .ended attempt (.error reset)), (6, .called), (6, .started), (6, .answered),
      (10, .ended ⟨2, 4, .success⟩ (.ok ()))] := rfl
  have regular : Regular f := .start (fun _ => rfl) .byArrival 0
  have own (i : Nat) : ∀ deed ∈ (operation i).deeds, deed.isOwn = true := by
    simp [operation, Course.deeds, Deed.isOwn]
  have free : ∀ d ∈ f.deliveries, d.job.host = job.host → d.isOver = true := by simp [f]
  have visited : Visited f job ((f.add job).playWhile fun _ _ => true) := regular.visited free _ _
  have recordable : f.hears "a" (Step.timed 0 job.run.steps) ≠ none := by
    rw [deeds]
    decide
  have ran : DeliveryReport.mk "a" (Step.attempts job.run.steps) (.ok ()) ≠ .rejected "a" := by
    simp [DeliveryReport.rejected]
  have clears : f.Clears job ⟨"a", Step.attempts job.run.steps, .ok ()⟩ :=
    ⟨⟨fun _ => by decide, by decide, rfl, by decide⟩, recordable, rfl, ran⟩
  obtain ⟨d, there, finished, begun, ended, trace, -⟩ :=
    visited.made_run clears (regular.add job).all_over
  obtain ⟨-, e, is, -, -, late⟩ :=
    cancellation_truncates regular own rfl free (c := 8) (by decide) d _ there finished ran
  have trace : ((f.add job).playWhile fun _ _ => true).trace 0 = _ := trace.trans deeds
  have begun : d.begun = 0 := begun
  have ended : d.ended = 10 := ended
  rw [show f.deliveries.length = 0 from rfl, begun, trace] at late
  obtain ⟨ends, ⟨attempts, cancelled, -, busy⟩, same⟩ := late (by omega)
  obtain rfl := busy 6 rfl
  exact ⟨e, is, ends, cancelled, same (by simp)⟩

end Floor

end Herald
