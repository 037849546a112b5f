import Herald.Proofs.Delivery.Uncut
import Herald.Proofs.Interleaving.Calls
import Herald.Proofs.Schedule.Visit

/-! Jitter. It lengthens the rests of a run within a band and changes nothing else: a delivery that has its host to
itself and that no limit cuts makes the same attempts whatever is drawn, and leaves the same count of failures. -/
namespace Herald

open Finset (range)

namespace Policy

variable (p : Policy)

theorem delay_within (retry draw : Nat) : p.step retry ≤ p.delay retry draw ∧
    (2 ≤ p.step retry → p.delay retry draw < p.step retry + p.step retry / 2) ∧
    (p.step retry < 2 → p.delay retry draw = p.step retry) := by
  refine ⟨le_lengthened _ _, fun long => ?_, fun short => ?_⟩
  · have half : 0 < p.step retry / 2 := by omega
    have drawn := Nat.mod_lt draw half
    rw [delay, lengthened, spread, if_neg (Nat.ne_of_gt half)]
    omega
  · have none_ : p.step retry / 2 = 0 := by omega
    rw [delay, lengthened, spread, if_pos none_]

theorem sum_delay_within (draws : Nat → Nat) (retries : Nat) :
    ∑ r ∈ range retries, p.step r ≤ ∑ r ∈ range retries, p.delay r (draws r) ∧
      2 * ∑ r ∈ range retries, p.delay r (draws r) ≤ 3 * ∑ r ∈ range retries, p.step r := by
  induction retries with
  | zero => simp
  | succ retries ih =>
    obtain ⟨least, long, short⟩ := p.delay_within retries (draws retries)
    rw [Finset.sum_range_succ, Finset.sum_range_succ]
    rcases Nat.lt_or_ge (p.step retries) 2 with small | large
    · have same := short small
      omega
    · have most := long large
      omega

theorem getD_plan (draws : Nat → Nat) (retry : Nat) :
    (p.plan draws).getD retry 0 = p.delay retry (draws retry) := by
  rw [plan, delay, step, List.getD_eq_getElem?_getD, List.getD_eq_getElem?_getD, List.getElem?_map,
    List.getElem?_zipIdx]
  cases p.backoffs[retry]? with
  | none => rfl
  | some step => simp

theorem length_plan (draws : Nat → Nat) : (p.plan draws).length = p.backoffs.length := by simp [plan]

end Policy

namespace Breaker

variable {rule : Rule} {b later : Breaker} {deeds : List (Nat × Deed)}

def counted (rule : Rule) (failures : Nat) : Except Failure Unit → Nat
  | .ok () => 0
  | .error failure =>
    if failure.isRetryable || failure == .deadlineExceeded then
      if failures + 1 < rule.limit then failures + 1 else 0
    else failures

theorem failures_of_hear {time : Nat} {result : Except Failure Unit} {recorded : Option Recorded}
    (heard : b.hear rule time result = (later, recorded)) (recordable : recorded ≠ some .overflowed) :
    later.failures = counted rule b.failures result := by
  cases result with
  | ok =>
    obtain ⟨rfl, -⟩ := Prod.mk.inj heard
    rfl
  | error failure =>
    simp only [hear] at heard
    simp only [counted]
    split at heard
    · next counts =>
      rw [if_pos counts]
      unfold recordFailure at heard
      split at heard
      · next room =>
        obtain ⟨rfl, -⟩ := Prod.mk.inj heard
        rw [if_pos room]
      · next full =>
        split at heard
        · obtain ⟨rfl, -⟩ := Prod.mk.inj heard
          rw [if_neg full]
        · obtain ⟨-, rfl⟩ := Prod.mk.inj heard
          exact absurd rfl recordable
    · next other =>
      obtain ⟨rfl, -⟩ := Prod.mk.inj heard
      rw [if_neg other]

theorem failures_of_heard (heard : b.heard rule deeds = some later) :
    later.failures = (Deed.results deeds).foldl (counted rule) b.failures := by
  induction deeds generalizing b with
  | nil =>
    obtain rfl := Option.some.inj heard
    rfl
  | cons e deeds ih =>
    obtain ⟨time, deed⟩ := e
    rcases noticed : b.notice rule time deed with ⟨next, recorded⟩
    by_cases overflows : recorded = some .overflowed
    · subst overflows
      rw [heard_cons_of_overflowed noticed] at heard
      cases heard
    · rw [heard_cons noticed overflows] at heard
      rw [ih heard]
      cases deed with
      | ended attempt result =>
        rw [failures_of_hear noticed overflows]
        rfl
      | _ =>
        obtain ⟨rfl, -⟩ := Prod.mk.inj noticed
        rfl

theorem exists_late_of_heard (lost : b.heard rule deeds = none) :
    ∃ e ∈ deeds, endOfTime ≤ e.1 + rule.cooldown := by
  induction deeds generalizing b with
  | nil => cases lost
  | cons e deeds ih =>
    obtain ⟨time, deed⟩ := e
    rcases noticed : b.notice rule time deed with ⟨next, recorded⟩
    by_cases overflows : recorded = some .overflowed
    · subst overflows
      refine ⟨_, List.mem_cons_self, ?_⟩
      cases deed with
      | ended attempt result =>
        simp only [notice, hear] at noticed
        split at noticed
        · cases noticed
        · split at noticed
          · simp only [recordFailure] at noticed
            split at noticed
            · cases noticed
            · split at noticed
              · cases noticed
              · next late => exact Nat.le_of_not_lt late
          · cases noticed
      | _ => cases noticed
    · rw [heard_cons noticed overflows] at lost
      obtain ⟨e, mem, late⟩ := ih lost
      exact ⟨e, List.mem_cons_of_mem _ mem, late⟩

end Breaker

def Job.drawn (j : Job) (policy : Policy) (draws : Nat → Nat) : Job := { j with delays := policy.plan draws }

theorem Job.exists_report_of_run (j : Job) {results : Nat → Except Failure Unit}
    (scripted : ∀ i, (j.operation i).IsOperation (results i)) :
    ∃ report, j.ending = .reported report ∧ report ≠ .rejected j.host := by
  obtain ⟨report, reports, tells⟩ := j.ending_tells scripted
  refine ⟨report, reports, ?_⟩
  rintro rfl
  exact tells.admitted ⟨1, 0, .circuitRejected⟩ List.mem_cons_self rfl

theorem Job.exists_makes_drawn (j : Job) (policy : Policy) {results : Nat → Except Failure Unit}
    (scripted : ∀ i, (j.operation i).IsOperation (results i)) :
    ∃ retries, ∀ draws, (j.drawn policy draws).IsUncut → (j.drawn policy draws).Makes results retries := by
  obtain ⟨retries, le, again, final⟩ := exists_retries results policy.backoffs.length
  refine ⟨retries, fun draws uncut => ?_⟩
  have planned : (j.drawn policy draws).delays.length = policy.backoffs.length := policy.length_plan draws
  exact makes_of_isUncut scripted uncut (planned ▸ le) again (planned ▸ final)

namespace Floor

variable {f g : Floor} {job : Job}

inductive Settles (f : Floor) (job : Job) (g : Floor) (d : Delivery) : Prop
  | rejected : (f.breaker job.host).isOpen f.now = true → d.stage = .over (.reported (.rejected job.host)) →
    g.trace f.deliveries.length = [] → g.breaker job.host = f.breaker job.host → Settles f job g d
  | ran : (f.breaker job.host).isOpen f.now = false → d.stage = .over job.ending → d.begun = f.now →
    d.ended = f.now + job.run.time → g.trace f.deliveries.length = f.plan job →
    f.hears job.host (f.plan job) = some (g.breaker job.host) → Settles f job g d
  | unrecorded : (f.breaker job.host).isOpen f.now = false → d.stage = .over (.crashed .time) →
    f.hears job.host (f.plan job) = none → Settles f job g d

theorem Visited.of_reported {d : Delivery} {report : DeliveryReport} (visited : Visited f job g)
    (there : g.deliveries[f.deliveries.length]? = some d) (finished : d.stage = .over (.reported report)) :
    (job.needsSlot = true → f.registry.hasPools = true) ∧ f.now + job.timeout < Breaker.endOfTime ∧
      job.refusal = none := by
  obtain ⟨regular, alone, rule, hasPools⟩ := visited
  obtain ⟨o, at_, rfl, solo⟩ := alone.solo
  obtain rfl := Option.some.inj (at_.symm.trans there)
  have onCourse := regular.sound.onCourse _ (List.mem_of_getElem? there)
  obtain ⟨pools, inTime, unrefused⟩ := (onCourse.ended finished).of_reported rfl
  rw [hasPools] at pools
  have begun : o.begun = f.now := by
    cases solo with
    | rejected _ _ begun => exact begun
    | ended _ _ begun => exact begun
    | _ => simp_all
  exact ⟨pools, begun ▸ inTime, unrefused⟩

theorem Visited.settles {report : DeliveryReport} (visited : Visited f job g)
    (done : ∀ d ∈ g.deliveries, d.isOver = true) (pools : job.needsSlot = true → f.registry.hasPools = true)
    (inTime : f.now + job.timeout < Breaker.endOfTime) (unrefused : job.refusal = none)
    (reports : job.ending = .reported report) (ran : report ≠ .rejected job.host) :
    ∃ d, g.deliveries[f.deliveries.length]? = some d ∧ Settles f job g d := by
  obtain ⟨regular, alone, rule, hasPools⟩ := visited
  obtain ⟨d, there, rfl, solo⟩ := alone.solo
  rw [rule, hasPools] at solo
  refine ⟨d, there, ?_⟩
  have finished := done d (List.mem_of_getElem? there)
  have scheduled := regular.onTime.scheduled there
  cases solo with
  | arriving arriving => simp [Delivery.isOver, Delivery.ending?, arriving] at finished
  | noSlots _ needs none_ => exact absurd (pools needs) (by simp [none_])
  | late _ late => omega
  | refused _ refused => simp [unrefused] at refused
  | rejected rejected isOpen begun same =>
    rcases scheduled.of_reported rejected with ⟨-, nothing, -⟩ | ⟨ending, -⟩
    · exact .rejected isOpen rejected nothing same
    · exact absurd (Ending.reported.inj (reports.symm.trans ending)) ran
  | runs running => simp [Delivery.isOver, Delivery.ending?, running] at finished
  | ended ends closed begun told =>
    rcases scheduled.of_reported (ends.trans (congrArg _ reports)) with ⟨rejected, -⟩ | ⟨-, whole, ended⟩
    · exact absurd rejected ran
    · rw [begun] at whole ended
      refine .ran closed ends begun ended whole ?_
      rw [hears, plan, ← whole]
      exact told
  | crashed crashed closed _ lost => exact .unrecorded closed crashed lost

theorem Settles.of_open {d : Delivery} (settles : Settles f job g d)
    (isOpen : (f.breaker job.host).isOpen f.now = true) : d.stage = .over (.reported (.rejected job.host)) ∧
      g.trace f.deliveries.length = [] ∧ g.breaker job.host = f.breaker job.host := by
  cases settles with
  | rejected _ rejected nothing same => exact ⟨rejected, nothing, same⟩
  | ran closed => cases isOpen.symm.trans closed
  | unrecorded closed => cases isOpen.symm.trans closed

theorem Settles.ne_rejected {d : Delivery} {own report : DeliveryReport} (settles : Settles f job g d)
    (closed : (f.breaker job.host).isOpen f.now = false) (reports : job.ending = .reported own)
    (ran : own ≠ .rejected job.host) (finished : d.stage = .over (.reported report)) :
    report ≠ .rejected job.host := by
  cases settles with
  | rejected isOpen => cases isOpen.symm.trans closed
  | ran _ ending =>
    rw [finished, reports] at ending
    rwa [Ending.reported.inj (Stage.over.inj ending)]
  | unrecorded _ crashed =>
    rw [finished] at crashed
    cases crashed

theorem Settles.of_makes {d : Delivery} {results : Nat → Except Failure Unit} {retries : Nat}
    (settles : Settles f job g d) (closed : (f.breaker job.host).isOpen f.now = false)
    (makes : job.Makes results retries) :
    (d.stage = .over job.ending ∧ d.begun = f.now ∧ d.ended = f.now + job.run.time ∧
      Deed.callTimes (g.trace f.deliveries.length) = ((List.range (retries + 1)).map fun k =>
        f.now + ∑ r ∈ range k, ((job.operation (r + 1)).duration + job.delays.getD r 0)) ∧
      (g.breaker job.host).failures = ((List.range (retries + 1)).map fun k => results (k + 1)).foldl
        (Breaker.counted f.registry.rule) (f.breaker job.host).failures) ∨
    (d.stage = .over (.crashed .time) ∧
      Breaker.endOfTime ≤ f.now + job.run.time + f.registry.rule.cooldown) := by
  cases settles with
  | rejected isOpen => cases isOpen.symm.trans closed
  | ran _ ending begun ended trace told =>
    refine .inl ⟨ending, begun, ended, by rw [trace, plan, makes.callTimes], ?_⟩
    rw [Breaker.failures_of_heard told, plan, makes.results]
  | unrecorded _ crashed lost =>
    obtain ⟨e, mem, late⟩ := Breaker.exists_late_of_heard lost
    have within := (Step.within_of_mem_timed mem).2
    rw [Job.total_run] at within
    exact .inr ⟨crashed, by omega⟩

/-- Jitter shifts the times of a run and changes nothing else. Take a delivery that has its host to itself, with the
delays that a policy draws, and comes to a report. If the breaker rejects it, it does so whatever is drawn. Otherwise,
if no limit cuts the run, each attempt begins when the attempts before it and the delays between them have taken their
time. The delays lie within the bands of their steps, and so does their sum. With any other draws under which no limit
cuts the run, the report, the number of calls and the count of failures are the same, unless that run ends so late
that the breaker cannot express the end of its cooldown. -/
theorem jitter_shifts_times (regular : Regular f) (policy : Policy) {results : Nat → Except Failure Unit}
    (scripted : ∀ i, (job.operation i).IsOperation (results i))
    (free : ∀ d ∈ f.deliveries, d.job.host = job.host → d.isOver = true) :
    let place := f.deliveries.length
    let last (draws : Nat → Nat) := (f.add (job.drawn policy draws)).playWhile fun _ _ => true
    ∀ draws d report, (last draws).deliveries[place]? = some d → d.stage = .over (.reported report) →
      (report = .rejected job.host → (last draws).trace place = [] ∧
        ∀ other, ∃ e, (last other).deliveries[place]? = some e ∧ e.stage = d.stage ∧ (last other).trace place = [] ∧
          (last other).breaker job.host = (last draws).breaker job.host) ∧
      (report ≠ .rejected job.host → (job.drawn policy draws).IsUncut →
        ∃ retries, report.attempts = ((List.range (retries + 1)).map fun k =>
            ⟨k + 1, (job.operation (k + 1)).duration, .of (results (k + 1))⟩) ∧
          Deed.callTimes ((last draws).trace place) = ((List.range (retries + 1)).map fun k =>
            d.begun + ∑ r ∈ range k, ((job.operation (r + 1)).duration + policy.delay r (draws r))) ∧
          d.ended = d.begun + (∑ k ∈ range (retries + 1), (job.operation (k + 1)).duration +
            ∑ r ∈ range retries, policy.delay r (draws r)) ∧
          (∀ r, policy.step r ≤ policy.delay r (draws r) ∧
            (2 ≤ policy.step r → policy.delay r (draws r) < policy.step r + policy.step r / 2) ∧
            (policy.step r < 2 → policy.delay r (draws r) = policy.step r)) ∧
          ∑ r ∈ range retries, policy.step r ≤ ∑ r ∈ range retries, policy.delay r (draws r) ∧
          2 * ∑ r ∈ range retries, policy.delay r (draws r) ≤ 3 * ∑ r ∈ range retries, policy.step r ∧
          ∀ other, (job.drawn policy other).IsUncut → ∃ e, (last other).deliveries[place]? = some e ∧
            ((e.stage = d.stage ∧
              (Deed.callTimes ((last other).trace place)).length =
                (Deed.callTimes ((last draws).trace place)).length ∧
              ((last other).breaker job.host).failures = ((last draws).breaker job.host).failures) ∨
            (e.stage = .over (.crashed .time) ∧ Breaker.endOfTime ≤
              f.now + (job.drawn policy other).run.time + f.registry.rule.cooldown))) := by
  intro place last draws d report there finished
  have alike (draws : Nat → Nat) : ∀ d ∈ f.deliveries, d.job.host = (job.drawn policy draws).host →
    d.isOver = true := free
  have visited (draws : Nat → Nat) : Visited f (job.drawn policy draws) (last draws) :=
    regular.visited (alike draws) _ _
  obtain ⟨pools, inTime, unrefused⟩ := (visited draws).of_reported there finished
  have runs (draws : Nat → Nat) := (job.drawn policy draws).exists_report_of_run scripted
  have settled (draws : Nat → Nat) : ∃ e, (last draws).deliveries[place]? = some e ∧
      Settles f (job.drawn policy draws) (last draws) e := by
    obtain ⟨own, reports, ran⟩ := runs draws
    exact (visited draws).settles (regular.add _).all_over pools inTime unrefused reports ran
  obtain ⟨o, at_, settles⟩ := settled draws
  obtain rfl := Option.some.inj (at_.symm.trans there)
  cases barred : (f.breaker job.host).isOpen f.now with
  | true =>
    obtain ⟨rejected, nothing, same⟩ := settles.of_open barred
    obtain rfl : DeliveryReport.rejected job.host = report :=
      Ending.reported.inj (Stage.over.inj (rejected.symm.trans finished))
    refine ⟨fun _ => ⟨nothing, fun other => ?_⟩, fun ran => absurd rfl ran⟩
    obtain ⟨e, is, settles⟩ := settled other
    obtain ⟨alike, none_, unchanged⟩ := settles.of_open barred
    exact ⟨e, is, alike.trans rejected.symm, none_, unchanged.trans same.symm⟩
  | false =>
    obtain ⟨_, reports, ran⟩ := runs draws
    refine ⟨fun rejected => absurd rejected (settles.ne_rejected barred reports ran finished), fun _ uncut => ?_⟩
    obtain ⟨retries, makes⟩ := job.exists_makes_drawn policy scripted
    have rests (draws : Nat → Nat) (r : Nat) : (job.drawn policy draws).delays.getD r 0 = policy.delay r (draws r) :=
      policy.getD_plan draws r
    have own := makes draws uncut
    rcases settles.of_makes barred own with ⟨ending, begun, ended, calls, failures⟩ | ⟨crashed, -⟩
    · have made : report = _ := Ending.reported.inj (Stage.over.inj (finished.symm.trans (ending.trans
        (congrArg _ own.ending))))
      have time := own.time
      obtain ⟨least, most⟩ := policy.sum_delay_within draws retries
      simp only [rests] at calls time
      refine ⟨retries, by rw [made]; rfl, by rw [begun]; exact calls, by rw [ended, begun, time]; rfl,
        fun r => policy.delay_within r (draws r), least, most, fun other uncut => ?_⟩
      obtain ⟨e, is, settles⟩ := settled other
      have others := makes other uncut
      refine ⟨e, is, ?_⟩
      rcases settles.of_makes barred others with ⟨alike, -, -, times, count⟩ | crashed
      · refine .inl ⟨?_, ?_, count.trans failures.symm⟩
        · rw [alike, ending, others.ending, own.ending]
          rfl
        · rw [times, calls, List.length_map, List.length_map]
      · exact .inr crashed
    · rw [finished] at crashed
      cases crashed

/-- Two draws for the rest before a second attempt. -/
theorem jitter_shifts_times_of_two_draws :
    let reset : Failure := .http (.stated "reset")
    let results : Nat → Except Failure Unit := fun i => if i = 1 then .error reset else .ok ()
    let operation : Nat → Course := fun i => .act .answered (.pause 4 (.done (results i)))
    let job : Job := { host := "a", timeout := 1000, delays := [], operation := operation }
    let policy : Policy := ⟨[10, 1]⟩
    let f : Floor := { registry := ⟨1, ⟨3, 60000⟩, {}⟩ }
    let last (draws : Nat → Nat) := (f.add (job.drawn policy draws)).playWhile fun _ _ => true
    ∃ d e, (last fun _ => 3).deliveries[0]? = some d ∧ (last fun _ => 0).deliveries[0]? = some e ∧
      e.stage = d.stage ∧
      ((last fun _ => 0).breaker "a").failures = ((last fun _ => 3).breaker "a").failures := by
  intro reset results operation job policy f last
  have regular : Regular f := .start (fun _ => rfl) .byArrival 0
  have scripted (i : Nat) : (job.operation i).IsOperation (results i) :=
    ⟨by simp [job, operation, Course.deeds, Deed.isOwn], rfl⟩
  have free : ∀ d ∈ f.deliveries, d.job.host = job.host → d.isOver = true := by simp [f]
  have tries : (((last fun _ => 3).deliveries[0]?).bind Delivery.report?).map DeliveryReport.tries = some 2 := by
    decide +kernel
  have uncut : (job.drawn policy fun _ => 3).IsUncut := Job.isUncut_of_spare ⟨by decide, rfl⟩
  have other : (job.drawn policy fun _ => 0).IsUncut := Job.isUncut_of_spare ⟨by decide, rfl⟩
  have early : ¬ Breaker.endOfTime ≤ f.now + (job.drawn policy fun _ => 0).run.time + f.registry.rule.cooldown := by
    decide
  obtain ⟨report, reports, two⟩ := Option.map_eq_some_iff.1 tries
  obtain ⟨d, there, made⟩ := Option.bind_eq_some_iff.1 reports
  have finished := Delivery.stage_of_report? made
  have ran : report ≠ .rejected job.host := by
    rintro rfl
    cases two
  obtain ⟨-, -, -, -, -, -, -, same⟩ :=
    (jitter_shifts_times regular policy scripted free (fun _ => 3) d report there finished).2 ran uncut
  obtain ⟨e, is, ⟨alike, -, failures⟩ | ⟨-, late⟩⟩ := same (fun _ => 0) other
  · exact ⟨d, e, there, is, alike, failures⟩
  · exact absurd late early

end Floor

end Herald
