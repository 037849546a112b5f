import Herald.Proofs.Delivery.Tally
import Herald.Proofs.Delivery.Turn
import Herald.Service

/-! The report of a delivery. A run that no limit comes to reports what its operations did, one by one; any
run reports attempts that agree with its operations; and every delivery comes to the report of its run or
is rejected at once. -/
namespace Herald

def spanFrom (operation : Nat → Course) : List Nat → Nat → Nat
  | [], index => (operation index).duration
  | rest :: rests, index =>
    (operation index).duration + rest + spanFrom operation rests (index + 1)

theorem duration_le_spanFrom (operation : Nat → Course) (rests : List Nat) (index : Nat) :
    (operation index).duration ≤ spanFrom operation rests index := by
  cases rests with
  | nil => exact Nat.le_refl _
  | cons rest rests =>
    rw [spanFrom]
    omega

structure Uncut (operation : Nat → Course) (results : Nat → Except Failure Unit)
    (delays : List Nat) (index time count : Nat) (s : Stretch Result) : Prop where
  attempts : Step.attempts s.steps = (List.range' index (count + 1)).map
    fun i => ⟨i, (operation i).duration, .of (results i)⟩
  result : s.result = .ok (results (index + count))
  time : s.time = time + spanFrom operation (delays.take count) index

section

variable {operation : Nat → Course} {results : Nat → Except Failure Unit}
  (scripted : ∀ i, (operation i).IsOperation (results i))
include scripted

theorem exact_of_attempt {l : Limits} {index time : Nat} {tried : Stretch Result}
    (made : tried = (operation index).attempt l index time)
    (spare : l.Spare (time + (operation index).duration)) :
    tried.result = .ok (results index) ∧ tried.time = time + (operation index).duration ∧
      Step.attempts tried.steps =
        [⟨index, (operation index).duration, .of (results index)⟩] := by
  obtain ⟨result, ended, attempts, origin⟩ := reported_of_attempt scripted l index time tried made
  have within : tried.time ≤ time + (operation index).duration :=
    made ▸ (Course.attempted l index time (operation index)).within
  rcases origin with ⟨rfl, at_⟩ | ⟨failure, -, cuts⟩
  · refine ⟨ended, at_, ?_⟩
    rw [attempts, at_, Nat.add_sub_cancel_left]
  · exact absurd (spare.earlier within) cuts.not_spare

theorem exists_another {l : Limits} {index time count delay : Nat} {delays : List Nat}
    {tried : Stretch Result} {failure : Failure}
    (made : tried = (operation index).attempt l index time) (fails : tried.FailsWith failure)
    (final : count = (delay :: delays).length ∨ ¬ Retryable (results (index + count))) :
    ∃ further, count = further + 1 := by
  obtain ⟨a, rfl, -, own⟩ := failsWith_of_attempt scripted made fails
  cases count with
  | zero =>
    rcases final with none | done
    · cases none
    · exact absurd ⟨failure, own.result, own.retryable⟩ done
  | succ further => exact ⟨further, rfl⟩

/-- A run that no limit comes to makes attempts up to the first result that no other attempt may mend,
or as many as it can, and reports what the operations did. -/
theorem attemptsFrom_of_spare (l : Limits) (delays : List Nat) (index time count : Nat)
    (le : count ≤ delays.length)
    (again : ∀ i, index ≤ i → i < index + count → Retryable (results i))
    (final : count = delays.length ∨ ¬ Retryable (results (index + count)))
    (spare : l.Spare (time + spanFrom operation (delays.take count) index)) :
    Uncut operation results delays index time count
      (attemptsFrom l operation delays index time) := by
  revert count
  refine attemptsFrom_induction (P := fun delays index time s => ∀ count, count ≤ delays.length →
    (∀ i, index ≤ i → i < index + count → Retryable (results i)) →
    (count = delays.length ∨ ¬ Retryable (results (index + count))) →
    l.Spare (time + spanFrom operation (delays.take count) index) →
    Uncut operation results delays index time count s) ?_ ?_ ?_ ?_ delays index time
  · intro delays index time tried made settled count le again final spare
    have short := duration_le_spanFrom operation (delays.take count) index
    have own := exact_of_attempt scripted made (spare.earlier (by omega))
    cases count with
    | zero => exact ⟨own.2.2, own.1, own.2.1⟩
    | succ count =>
      obtain ⟨failure, is, retryable⟩ := again index (Nat.le_refl _) (by omega)
      exact absurd ⟨by rw [own.1, is], retryable⟩ (settled failure)
  · intro index time tried failure made fails count le again final spare
    obtain rfl : count = 0 := Nat.le_zero.1 le
    have own := exact_of_attempt scripted made spare
    exact ⟨own.2.2, own.1, own.2.1⟩
  · intro delay delays index time tried failure rested other made fails rest ended count le again
      final spare
    obtain ⟨count, rfl⟩ := exists_another scripted made fails final
    have short := duration_le_spanFrom operation ((delay :: delays).take (count + 1)) index
    have own := exact_of_attempt scripted made (spare.earlier (by omega))
    have still := rest ▸ l.rested tried.time delay
    -- the rest ends within the span of the run, so no limit has come by its end
    refine absurd (spare.earlier ?_) (still.cuts ended).not_spare
    have within := still.within
    rw [List.take_succ_cons, spanFrom]
    omega
  · intro delay delays index time tried failure rested made fails rest whole ih count le again
      final spare
    obtain ⟨count, rfl⟩ := exists_another scripted made fails final
    have short := duration_le_spanFrom operation ((delay :: delays).take (count + 1)) index
    have own := exact_of_attempt scripted made (spare.earlier (by omega))
    have still := rest ▸ l.rested tried.time delay
    have at_ := still.time_eq whole
    rw [List.take_succ_cons, spanFrom] at spare
    -- the run from the next attempt on has the rest of the span
    have shift : index + 1 + count = index + (count + 1) := by omega
    have start : rested.time + spanFrom operation (delays.take count) (index + 1) =
        time + ((operation index).duration + delay +
          spanFrom operation (delays.take count) (index + 1)) := by omega
    rw [← start] at spare
    obtain ⟨attempts, result, ends⟩ := ih count (by simpa using le)
      (fun i low high => again i (by omega) (by omega))
      (by
        rw [shift]
        exact final.imp_left fun h => by simpa using h) spare
    refine ⟨?_, by rw [← shift]; exact result, ends.trans start⟩
    simp only [Stretch.after]
    rw [Step.attempts_append, Step.attempts_append, own.2.2,
      Step.attempts_eq_deeds rested.steps, still.deeds, attempts, List.range'_succ,
      List.map_cons]
    rfl

end

/-- A report that tells what became of a job whose operations come to these results. -/
structure DeliveryReport.Tells (j : Job) (results : Nat → Except Failure Unit)
    (report : DeliveryReport) : Prop where
  host : report.host = j.host
  tally : Tally j.limits j.operation results 1 (j.delays.length + 1) j.run.time report.attempts
    report.result
  admitted : ∀ a ∈ report.attempts, a.outcome ≠ .circuitRejected
  exact : ∀ n, 1 ≤ n → n ≤ j.delays.length + 1 →
    (∀ i, 1 ≤ i → i < n → Retryable (results i)) →
    (n = j.delays.length + 1 ∨ ¬ Retryable (results n)) →
    j.limits.Spare (spanFrom j.operation (j.delays.take (n - 1)) 1) →
    report.attempts = (List.range' 1 n).map
        (fun i => ⟨i, (j.operation i).duration, .of (results i)⟩) ∧
      report.result = results n ∧ j.run.time = spanFrom j.operation (j.delays.take (n - 1)) 1

theorem Job.ending_tells (j : Job) {results : Nat → Except Failure Unit}
    (scripted : ∀ i, (j.operation i).IsOperation (results i)) :
    ∃ report, j.ending = .reported report ∧ report.Tells j results := by
  obtain ⟨result, ended, tally⟩ := tally_of_attemptsFrom scripted j.limits j.delays 1 0
  have ended : j.run.result = .ok result := ended
  refine ⟨⟨j.host, Step.attempts j.run.steps, result⟩, by simp only [ending, ended], rfl, ?_, ?_, ?_⟩
  · rw [Nat.add_comm 1] at tally
    exact tally
  · exact tally.not_rejected
  · intro n pos le again final spare
    obtain ⟨count, rfl⟩ : ∃ count, n = count + 1 := ⟨n - 1, by omega⟩
    rw [Nat.add_sub_cancel] at spare ⊢
    have uncut := attemptsFrom_of_spare scripted j.limits j.delays 1 0 count (by omega)
      (fun i low high => again i low (by omega))
      (by
        rw [Nat.add_comm 1 count]
        exact final.imp_left fun h => by omega)
      (by rwa [Nat.zero_add])
    refine ⟨uncut.attempts, ?_, uncut.time.trans (Nat.zero_add _)⟩
    have own := ended.symm.trans uncut.result
    rw [Nat.add_comm 1 count] at own
    simpa using own

namespace Delivery

/-- A delivery that begins while the breaker is open is rejected at once. Otherwise, whatever others make
of the host meanwhile, it comes to its report after a turn for each wait of its run, unless the end of a
cooldown cannot be expressed by then. -/
theorem report_of_commence (d : Delivery) (rule : Breaker.Rule) (hasPools : Bool) (now : Nat)
    (host : HostState) {results : Nat → Except Failure Unit}
    (scripted : ∀ i, (d.job.operation i).IsOperation (results i))
    (accepted : d.job.refusal = none)
    (expressible : now + d.job.timeout < Breaker.endOfTime) :
    (host.breaker.isOpen now = true →
      let report : DeliveryReport :=
        ⟨d.job.host, [⟨1, 0, .circuitRejected⟩], .error (.circuitOpen d.job.host)⟩
      d.commence rule now host =
        ⟨{ host with pool := host.pool.release d.ticket },
          { d with stage := .over (.reported report), begun := now, ended := now,
                   breaker := host.breaker },
          [.over (.reported report)]⟩) ∧
    (host.breaker.isOpen now = false →
      ∃ report : DeliveryReport, report.Tells d.job results ∧
        ∀ turns : List (Nat × HostState), Step.waits d.job.run.steps ≤ turns.length →
          ∃ ending, ((d.commence rule now host).delivery.after rule hasPools turns).stage =
              .over ending ∧
            (ending = .reported report ∨ ending = .crashed .time ∧
              ∃ time ∈ now :: turns.map Prod.fst, Breaker.endOfTime ≤ time + rule.cooldown)) := by
  have starts : d.commence rule now host = if host.breaker.isOpen now then
      { d with begun := now }.finish now host (.reported (.rejected d.job.host))
      else { d with begun := now }.goOn rule now host d.job.run.steps := by
    simp only [commence, accepted]
    rw [if_neg (by omega)]
  constructor
  · intro isOpen
    rw [starts, if_pos isOpen]
    rfl
  · intro closed
    obtain ⟨report, tells, true_⟩ := d.job.ending_tells scripted
    refine ⟨report, true_, fun turns enough => ?_⟩
    rw [starts, if_neg (by simp [closed])]
    rcases { d with begun := now }.goOn_cases rule now host d.job.run.steps with
      ⟨ms, rest, waits, becomes, -⟩ | ⟨ending, breaker, ends, becomes, -⟩
    · rw [becomes]
      obtain ⟨ending, time, stage, mem, ends⟩ :=
        over_of_running (d := { d with begun := now, stage := .running (now + ms) rest }) rfl rule
          hasPools turns (by omega)
      refine ⟨ending, stage, ?_⟩
      rcases ends with own | ⟨crashed, late⟩
      · exact .inl (own.trans tells)
      · exact .inr ⟨crashed, time, List.mem_cons_of_mem _ mem, late⟩
    · rw [becomes, after_of_over rfl]
      refine ⟨ending, rfl, ?_⟩
      rcases ends with own | ⟨crashed, late⟩
      · exact .inl (own.trans tells)
      · exact .inr ⟨crashed, now, List.mem_cons_self, late⟩

theorem report_of_second_attempt :
    let reset : Failure := .http (.stated "reset")
    let results : Nat → Except Failure Unit := fun i => if i = 1 then .error reset else .ok ()
    let operation : Nat → Course := fun i => .act .answered (.pause 5 (.done (results i)))
    let d : Delivery :=
      { job := { host := "a.example", timeout := 1000, delays := [7], operation := operation }
        ticket := 0 }
    let rule : Breaker.Rule := ⟨3, 60000⟩
    let host : HostState := { pool := .ofSize 1 }
    ∃ report : DeliveryReport,
      report.attempts = [⟨1, 5, .transientFailure "http request failed: reset"⟩, ⟨2, 5, .success⟩] ∧
      report.result = .ok () ∧
      ((d.commence rule 100 host).delivery.after rule true
        [(105, host), (112, host), (117, host)]).stage = .over (.reported report) := by
  intro reset results operation d rule host
  have scripted (i : Nat) : (d.job.operation i).IsOperation (results i) :=
    ⟨by simp [d, operation, Course.deeds, Deed.isOwn], rfl⟩
  obtain ⟨report, tells, later⟩ :=
    (report_of_commence d rule true 100 host scripted rfl (by decide)).2 rfl
  obtain ⟨ending, stage, ends⟩ := later [(105, host), (112, host), (117, host)] (by decide)
  have first : Retryable (results 1) := ⟨reset, rfl, rfl⟩
  obtain ⟨attempts, result, -⟩ := tells.exact 2 (by decide) (by decide)
    (fun i low high => by
      obtain rfl : i = 1 := by omega
      exact first)
    (.inl rfl) ⟨by decide, rfl⟩
  refine ⟨report, attempts, result, ?_⟩
  rcases ends with rfl | ⟨-, time, mem, late⟩
  · exact stage
  · simp only [List.map_cons, List.map_nil, List.mem_cons, List.not_mem_nil, or_false] at mem
    rcases mem with rfl | rfl | rfl | rfl <;> exact absurd late (by decide)

end Delivery

namespace Service

theorem length_delays (s : Service) : s.delays.length + 1 = s.config.policy.maxAttempts := by
  simp [delays, Policy.plan, Policy.maxAttempts]

/-- Unless they crash, the attempts of a service are operations, so that its deliveries are reported as above. -/
theorem isOperation_job {s : Service} {destination : Destination} {event : Event} {i : Nat}
    {result : Except Failure Unit}
    (h : ((s.job destination event).operation i).result = .ok result) :
    ((s.job destination event).operation i).IsOperation result := by
  simp only [job] at h ⊢
  split at h
  · next talk prepared =>
    rw [Http.Talk.result_course] at h
    exact Http.Talk.isOperation_course h
  · next failure prepared => exact ⟨by simp [Course.deeds], h⟩

end Service

end Herald
