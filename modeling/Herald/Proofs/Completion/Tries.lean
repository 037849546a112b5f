import Herald.Proofs.Completion.Settings
import Herald.Proofs.Delivery.Deadline
import Herald.Proofs.Interleaving.Calls

/-! What the number of tries in a report counts. It counts the calls of the operation, and each of these starts it,
but for one: a delivery that is cancelled before its run calls its operation and does not start it. -/
namespace Herald

def Deed.isStart : Deed → Bool
  | .started => true
  | _ => false

def Attempt.isTry (a : Attempt) : Bool := a.outcome != .circuitRejected

theorem Outcome.of_ne_circuitRejected (result : Except Failure Unit) : Outcome.of result ≠ .circuitRejected := by
  rcases result with failure | _
  · simp only [Outcome.of]
    split <;> simp
  · simp [Outcome.of]

namespace Deed

variable {deeds a b : List Deed} {calls tries starts : Nat}

/-- How many calls of an operation, tries and starts there are in some deeds. -/
structure Counts (calls tries starts : Nat) (deeds : List Deed) : Prop where
  calls : deeds.countP isCall = calls
  tries : (deeds.filterMap attempt?).countP Attempt.isTry = tries
  starts : deeds.countP isStart = starts

theorem Counts.append {moreCalls moreTries moreStarts : Nat} (first : Counts calls tries starts a)
    (second : Counts moreCalls moreTries moreStarts b) :
    Counts (calls + moreCalls) (tries + moreTries) (starts + moreStarts) (a ++ b) := by
  refine ⟨?_, ?_, ?_⟩
  · rw [List.countP_append, first.calls, second.calls]
  · rw [List.filterMap_append, List.countP_append, first.tries, second.tries]
  · rw [List.countP_append, first.starts, second.starts]

theorem counts_of_own (own : ∀ deed ∈ deeds, deed.isOwn = true) : Counts 0 0 0 deeds := by
  induction deeds with
  | nil => exact ⟨rfl, rfl, rfl⟩
  | cons deed deeds ih =>
    have single : Counts 0 0 0 [deed] := by
      have mine := own deed List.mem_cons_self
      cases deed <;> first | exact ⟨rfl, rfl, rfl⟩ | cases mine
    exact single.append (ih fun deed mem => own deed (List.mem_cons_of_mem _ mem))

theorem counts_ended (index elapsed : Nat) (result : Except Failure Unit) :
    Counts 0 1 0 [.ended ⟨index, elapsed, .of result⟩ result] := by
  refine ⟨rfl, ?_, rfl⟩
  simp [attempt?, Attempt.isTry, Outcome.of_ne_circuitRejected]

end Deed

theorem Course.counts_attempt {course : Course} (own : ∀ deed ∈ course.deeds, deed.isOwn = true) {l : Limits}
    {index time : Nat} {result : Except Failure Unit} (ended : (course.attempt l index time).result = .ok result) :
    Deed.Counts 1 1 (!l.isCancelledBy time).toNat (Step.deeds (course.attempt l index time).steps) := by
  cases cancelled : l.isCancelledBy time with
  | true =>
    rw [attempt_of_cancelled cancelled]
    exact ⟨rfl, rfl, rfl⟩
  | false =>
    rw [attempt_of_quiet cancelled] at ended ⊢
    have ended : (course.play l time).result = .ok result := ended
    have begins : Deed.Counts 1 0 1 [.called, .started] := ⟨rfl, rfl, rfl⟩
    have inner := Deed.counts_of_own fun deed mem => own deed ((played l time course).deeds.subset mem)
    have ends := Deed.counts_ended index ((course.play l time).time - time) result
    have all := begins.append (inner.append ends)
    simpa [closing, ended] using all

/-- In a run that ends with a result there are as many tries as calls, and as many starts, unless the run is
cancelled by its start. -/
theorem counts_of_attemptsFrom {operation : Nat → Course} (own : ∀ i, ∀ deed ∈ (operation i).deeds, deed.isOwn = true)
    (l : Limits) (delays : List Nat) (index time : Nat) {result : Except Failure Unit}
    (ended : (attemptsFrom l operation delays index time).result = .ok result) :
    ∃ more, Deed.Counts (1 + more) (1 + more) ((!l.isCancelledBy time).toNat + more)
      (Step.deeds (attemptsFrom l operation delays index time).steps) := by
  have goal : ∀ result, (attemptsFrom l operation delays index time).result = .ok result →
      ∃ more, Deed.Counts (1 + more) (1 + more) ((!l.isCancelledBy time).toNat + more)
        (Step.deeds (attemptsFrom l operation delays index time).steps) := by
    refine attemptsFrom_induction (P := fun _ _ time s => ∀ result, s.result = .ok result →
      ∃ more, Deed.Counts (1 + more) (1 + more) ((!l.isCancelledBy time).toNat + more) (Step.deeds s.steps))
      ?_ ?_ ?_ ?_ delays index time
    · rintro _ index time _ rfl - result ended
      exact ⟨0, Course.counts_attempt (own index) ended⟩
    · rintro index time _ _ rfl - result ended
      exact ⟨0, Course.counts_attempt (own index) ended⟩
    · rintro delay _ index time _ failure _ _ rfl fails rfl - result -
      rw [Step.deeds_append, (l.rested _ delay).deeds, List.append_nil]
      exact ⟨0, Course.counts_attempt (own index) fails.1⟩
    · rintro delay _ index time _ failure _ rfl fails rfl whole ih result ended
      -- a run that has rested its whole delay goes on before either limit
      obtain ⟨more, later⟩ := ih result ended
      rw [(Limits.spare_of_rested whole).2] at later
      simp only [Stretch.after, Step.deeds_append, (l.rested _ delay).deeds, List.append_nil]
      exact ⟨1 + more, (Course.counts_attempt (own index) fails.1).append later⟩
  exact goal result ended

namespace Job

variable {j : Job} {report : DeliveryReport}

theorem isCancelledBy_zero : j.limits.isCancelledBy 0 = true ↔ j.cancelAfter = some 0 := by
  simp only [Limits.isCancelledBy, limits]
  split <;> simp [*]

theorem ending_of_cancelled (cancelled : j.cancelAfter = some 0) : j.ending =
    .reported ⟨j.host, [⟨1, 0, .permanentFailure Failure.cancelled.message⟩], .error .cancelled⟩ := by
  have attempt := Course.attempt_of_cancelled (isCancelledBy_zero.2 cancelled) 1 (j.operation 1)
  have run : j.run = (j.operation 1).attempt j.limits 1 0 := by
    refine attemptsFrom_of_final fun failure fails => ?_
    rw [attempt] at fails
    obtain ⟨⟨⟩, retryable⟩ := fails
    cases retryable
  rw [ending, run, attempt]
  rfl

theorem counts_of_reported (own : ∀ i, ∀ deed ∈ (j.operation i).deeds, deed.isOwn = true)
    (reports : j.ending = .reported report) : ∃ more, report.tries = 1 + more ∧
      Deed.Counts (1 + more) (1 + more) ((!j.limits.isCancelledBy 0).toNat + more) (Step.deeds j.run.steps) := by
  obtain ⟨last, ended, rfl⟩ := run_of_reported reports
  obtain ⟨more, counts⟩ := counts_of_attemptsFrom own j.limits j.delays 1 0 ended
  have tries := counts.tries
  rw [← Step.attempts_eq_deeds] at tries
  exact ⟨more, tries, counts⟩

end Job

namespace Floor

variable {f : Floor} {place : Nat} {job : Job}

/-- A run whose attempts come to something has a report, and the tries that a report counts are the calls of the
operation. Each of these starts the operation, unless the delivery is cancelled before its run: then the report
counts the one call that starts nothing. A rejected delivery calls nothing, and nothing is counted. -/
theorem tries_counted (regular : Regular f) (ms : List Move) (at_ : f.jobs[place]? = some job)
    (own : ∀ i, ∀ deed ∈ (job.operation i).deeds, deed.isOwn = true) :
    let g := f.moves ms
    let deeds := (g.trace place).map Prod.snd
    let calls := deeds.countP Deed.isCall
    let starts := deeds.countP Deed.isStart
    ((∀ i, ∃ result, (job.operation i).result = .ok result) → ∃ report, job.ending = .reported report) ∧
    ∃ d, g.deliveries[place]? = some d ∧ d.job = job ∧
      ∀ report, d.stage = .over (.reported report) →
        report.tries = calls ∧
        (report.tries = starts ↔ report = .rejected job.host ∨ job.cancelAfter ≠ some 0) ∧
        (report.tries ≠ starts → report.tries = 1 ∧ starts = 0 ∧
          report = ⟨job.host, [⟨1, 0, .permanentFailure Failure.cancelled.message⟩], .error .cancelled⟩) := by
  intro g deeds calls starts
  obtain ⟨d, there, rfl, -, traced⟩ := regular.interleaved ms at_
  refine ⟨Job.exists_report, d, there, rfl, fun report finished => ?_⟩
  have traced : d.Traced g.registry.hasPools deeds := traced
  rcases traced.of_reported finished with ⟨rejected, nothing⟩ | ⟨reports, all⟩
  · have none_ : starts = 0 ∧ calls = 0 := by simp [starts, calls, nothing]
    have tries : report.tries = 0 := by rw [rejected, DeliveryReport.tries_rejected]
    have same := tries.trans none_.1.symm
    exact ⟨tries.trans none_.2.symm, ⟨fun _ => .inl rejected, fun _ => same⟩, fun differ => absurd same differ⟩
  · obtain ⟨more, tries, counts⟩ := Job.counts_of_reported own reports
    rw [← all] at counts
    have ran : report ≠ .rejected d.job.host := by
      rintro rfl
      rw [DeliveryReport.tries_rejected] at tries
      omega
    refine ⟨tries.trans counts.calls.symm, ?_⟩
    have started : starts = (!d.job.limits.isCancelledBy 0).toNat + more := counts.starts
    cases cancelled : d.job.limits.isCancelledBy 0 with
    | true =>
      have early := Job.isCancelledBy_zero.1 cancelled
      obtain rfl := Ending.reported.inj (reports.symm.trans (Job.ending_of_cancelled early))
      obtain rfl : more = 0 := Nat.add_left_cancel tries.symm
      have none_ : starts = 0 := by simpa [cancelled] using started
      refine ⟨?_, fun _ => ⟨tries, none_, rfl⟩⟩
      exact iff_of_false (by omega) (by simp [ran, early])
    | false =>
      have late : d.job.cancelAfter ≠ some 0 := fun early => by
        rw [Job.isCancelledBy_zero.2 early] at cancelled
        cases cancelled
      have same : report.tries = starts := by rw [tries, started, cancelled]; rfl
      exact ⟨⟨fun _ => .inr late, fun _ => same⟩, fun differ => absurd same differ⟩

/-- Two attempts, the second one before the cancellation. -/
theorem tries_counted_of_second_attempt :
    let reset : Failure := .http (.stated "reset")
    let operation : Nat → Course := fun i =>
      .act .answered (.pause 4 (.done (if i = 1 then .error reset else .ok ())))
    let job : Job :=
      { host := "a", timeout := 100, cancelAfter := some 50, delays := [2], operation := operation }
    let f : Floor := { registry := ⟨1, ⟨3, 60000⟩, {}⟩ }
    let last := (f.add job).playWhile fun _ _ => true
    ∃ d report, last.deliveries[0]? = some d ∧ d.stage = .over (.reported report) ∧ report.tries = 2 ∧
      ((last.trace 0).map Prod.snd).countP Deed.isStart = 2 := by
  intro reset operation job f last
  have start : Regular f := .start (fun _ => rfl) .byArrival 0
  have own (i : Nat) : ∀ deed ∈ (operation i).deeds, deed.isOwn = true := by
    simp [operation, Course.deeds, Deed.isOwn]
  have at_ : last.jobs[0]? = some job := congrArg (·[0]?) (jobs_playFor (f.add job) _ _)
  have regular : Regular last := (start.add job).playFor _ _
  have tries : ((last.deliveries[0]?).bind Delivery.report?).map DeliveryReport.tries = some 2 := by decide +kernel
  -- the floor is played and need not be played again
  clear_value last
  obtain ⟨-, d, there, -, counted⟩ := tries_counted regular [] at_ own
  have there : last.deliveries[0]? = some d := there
  rw [there] at tries
  obtain ⟨report, reports, two⟩ := Option.map_eq_some_iff.1 tries
  have finished := Delivery.stage_of_report? reports
  obtain ⟨-, same, -⟩ := counted report finished
  have uncancelled : job.cancelAfter ≠ some 0 := by decide
  exact ⟨d, report, there, finished, two, (same.2 (.inr uncancelled)).symm.trans two⟩

/-- A delivery that is cancelled before its run has a try and no start. -/
theorem tries_of_cancelled :
    let job : Job := { host := "a", timeout := 30000, cancelAfter := some 0, delays := [1, 2, 3],
                       operation := fun _ => .done (.ok ()) }
    let f : Floor := { registry := ⟨2, ⟨3, 60000⟩, {}⟩ }
    let last := (f.add job).playWhile fun _ _ => true
    ∃ d report, last.deliveries[0]? = some d ∧ d.stage = .over (.reported report) ∧ report.tries = 1 ∧
      ((last.trace 0).map Prod.snd).countP Deed.isStart = 0 :=
  ⟨_, _, rfl, rfl, rfl, rfl⟩

end Floor

end Herald
