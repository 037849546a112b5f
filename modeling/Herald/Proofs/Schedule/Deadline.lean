import Herald.Proofs.Delivery.Deadline
import Herald.Proofs.Interleaving.Calls
import Herald.Proofs.Schedule.Floor

/-! The deadline is respected. No run goes on past it, no attempt but the first one begins at it or later, and
what is ready exactly at it is in time. -/
namespace Herald

namespace Job

theorem time_run_le (j : Job) : j.run.time ≤ j.timeout := by
  have stops := (clocked_attemptsFrom j.limits j.operation j.delays 1 0).stops
  rwa [Limits.stop, Nat.zero_max] at stops

theorem call_in_time {j : Job} (own : ∀ i, ∀ deed ∈ (j.operation i).deeds, deed.isOwn = true)
    {begun t : Nat} {before after : List (Nat × Deed)}
    (split : Step.timed begun j.run.steps = before ++ (t, .called) :: after) (ne : before ≠ []) :
    t < begun + j.timeout ∧ ∀ c, j.cancelAfter = some c → t < begun + c := by
  have shifted := Step.timed_add begun 0 j.run.steps
  rw [Nat.add_zero, split] at shifted
  obtain ⟨first, rest, plan, same, last⟩ := List.map_eq_append_iff.1 shifted.symm
  obtain ⟨⟨time, deed⟩, others, rfl, call, -⟩ := List.map_eq_cons_iff.1 last
  obtain ⟨rfl, rfl⟩ := Prod.mk.inj call
  have begins := begins_of_attemptsFrom own first plan
  obtain ⟨early, quiet⟩ := begins.spare (by rintro rfl; exact ne same.symm)
  have early : time < j.timeout := early
  refine ⟨by omega, fun c at_ => ?_⟩
  have quiet : ¬ c ≤ time := by simpa [Limits.isCancelledBy, limits, at_] using quiet
  omega

end Job

/-- A run respects its deadline. It ends by then, or where it begins if that is later. Each attempt but the
first is called before the deadline and before the cancellation, and an operation that is ready by the
deadline, exactly at it at the latest, is finished. Unless an operation says so itself, the deadline is
reported only by a run that ends at it. A run cannot tell an operation that takes too long from one that
never ends. And when the first turn always comes first, deliveries keep to all this, whatever else they
are given to do at the same time. -/
theorem Floor.deadline_respected (l : Limits) (delays : List Nat) (start : Nat)
    {operation : Nat → Course} {results : Nat → Except Failure Unit}
    (scripted : ∀ i, (operation i).IsOperation (results i)) :
    let run := attemptsFrom l operation delays 1 start
    let trace := Step.timed start run.steps
    (start ≤ run.time ∧ run.time ≤ max start l.deadline ∧
      ∀ e ∈ trace, start ≤ e.1 ∧ e.1 ≤ run.time) ∧
    (∀ before t after, trace = before ++ (t, .called) :: after →
      let i := 1 + before.countP (·.2.isCall)
      (before ≠ [] → t < l.deadline ∧ l.isCancelledBy t = false) ∧
      ((operation i).ReadyBy l.deadline t →
        l.isCancelledBy (t + (operation i).duration) = false →
        (t + (operation i).duration,
          .ended ⟨i, (operation i).duration, .of (results i)⟩ (results i)) ∈ after)) ∧
    (run.result = .ok (.error .deadlineExceeded) → (∀ i, results i ≠ .error .deadlineExceeded) →
      run.time = max start l.deadline) ∧
    (∀ (never : Nat → Bool) (p q : Nat), max start l.deadline < start + p →
      max start l.deadline < start + q →
      let longer (ms : Nat) (i : Nat) := if never i then (operation i).stalled ms else operation i
      attemptsFrom l (longer p) delays 1 start = attemptsFrom l (longer q) delays 1 start) ∧
    ∀ f : Floor, Regular f → ∀ place d, f.deliveries[place]? = some d →
      ∀ own : Nat → Except Failure Unit, (∀ i, (d.job.operation i).IsOperation (own i)) →
      (∀ due steps, d.stage = .running due steps →
        f.now ≤ due ∧ due ≤ d.begun + d.job.timeout) ∧
      (∀ before t after, f.trace place = before ++ (t, .called) :: after → before ≠ [] →
        t < d.begun + d.job.timeout ∧ ∀ c, d.job.cancelAfter = some c → t < d.begun + c) ∧
      ∀ report, d.stage = .over (.reported report) →
        d.ended ≤ d.begun + d.job.timeout ∧
        (report ≠ .rejected d.job.host → f.trace place = Step.timed d.begun d.job.run.steps ∧
          d.ended = d.begun + d.job.run.time ∧
          (report.result = .error .deadlineExceeded → (∀ i, own i ≠ .error .deadlineExceeded) →
            d.ended = d.begun + d.job.timeout)) := by
  intro run trace
  have clocked := clocked_attemptsFrom l operation delays 1 start
  refine ⟨⟨clocked.later, clocked.stops, clocked.within⟩, fun before t after split => ?_,
    time_of_late scripted, fun never p q first second => ?_, fun f regular place d there own script => ?_⟩
  · intro i
    have begins := begins_of_attemptsFrom (fun i => (scripted i).own) before split
    refine ⟨begins.spare, fun ready quiet => ?_⟩
    obtain ⟨rest, attempt⟩ := begins.attempt
    have mem := Course.ended_mem_of_readyBy i (scripted i).ends ready quiet
    have among := List.mem_append_left rest mem
    rw [← attempt] at among
    exact (List.mem_cons.1 among).resolve_left (by simp)
  · intro longer
    refine attemptsFrom_congr fun i t later stops => ?_
    have still := Limits.stop_le_stop stops
    have first : l.stop start < start + p := first
    have second : l.stop start < start + q := second
    simp only [longer]
    split
    · exact Course.play_stalled _ (by omega) (by omega)
    · rfl
  · have scheduled := regular.onTime.scheduled there
    have whole := d.job.total_run
    have short := d.job.time_run_le
    refine ⟨fun due steps running => ?_, fun before t after split ne => ?_, fun report finished => ?_⟩
    · obtain ⟨-, -, -, -, ahead⟩ := regular.due_of_running there running
      have ends := (scheduled.split running).2
      exact ⟨ahead, by omega⟩
    · obtain ⟨more, plan⟩ := scheduled.isPrefix
      rw [split, List.append_assoc, List.cons_append] at plan
      exact Job.call_in_time (fun i => (script i).own) plan.symm ne
    · rcases scheduled.of_reported finished with ⟨rejected, -, at_⟩ | ⟨reports, told, at_⟩
      · exact ⟨by omega, fun admitted => absurd rejected admitted⟩
      · refine ⟨by omega, fun _ => ⟨told, at_, fun late others => ?_⟩⟩
        obtain ⟨last, ended, rfl⟩ := Job.run_of_reported reports
        obtain rfl : last = .error .deadlineExceeded := late
        have ends := time_of_late script ended others
        rw [at_]
        exact congrArg (d.begun + ·) (ends.trans (Nat.zero_max _))

/-- A second attempt that is ready exactly at the deadline, as a run of its own and as a delivery. -/
theorem Floor.deadline_respected_of_ready_at_deadline :
    let reset : Failure := .http (.stated "reset")
    let results : Nat → Except Failure Unit := fun i => if i = 1 then .error reset else .ok ()
    let operation : Nat → Course := fun i => .act .answered (.pause 4 (.done (results i)))
    let job : Job := { host := "a", timeout := 10, delays := [2], operation := operation }
    let f := (Floor.add { registry := ⟨1, ⟨3, 60000⟩, {}⟩ } job).playWhile fun _ _ => true
    (10, .ended ⟨2, 4, .success⟩ (.ok ())) ∈ Step.timed 0 job.run.steps ∧
      ∃ d, f.deliveries[0]? = some d ∧ d.ended ≤ 10 := by
  intro reset results operation job f
  have scripted (i : Nat) : (operation i).IsOperation (results i) :=
    ⟨by simp [operation, Course.deeds, Deed.isOwn], rfl⟩
  have split : Step.timed 0 (attemptsFrom ⟨10, none⟩ operation [2] 1 0).steps =
      [(0, .called), (0, .started), (0, .answered),
        (4, .ended ⟨1, 4, .of (results 1)⟩ (results 1))] ++ (6, .called) ::
        [(6, .started), (6, .answered), (10, .ended ⟨2, 4, .of (results 2)⟩ (results 2))] := rfl
  obtain ⟨-, calls, -, -, floors⟩ := deadline_respected ⟨10, none⟩ [2] 0 scripted
  have inTime := (calls _ 6 _ split).2 ⟨Nat.le_refl 10, trivial⟩ rfl
  have regular : Regular f := (Regular.add job (.start (fun _ => rfl) .byArrival 0)).playFor _ _
  have kind : (f.deliveries[0]?).any (fun d => d.report?.isSome && d.begun == 0) = true := by decide
  obtain ⟨d, there, kind⟩ := (Option.any_eq_true _ _).1 kind
  obtain ⟨made, begun⟩ := (Bool.and_eq_true _ _).mp kind
  obtain ⟨report, made⟩ := Option.isSome_iff_exists.1 made
  have same : d.job = job := by
    have jobs : f.jobs = [job] := jobs_playFor _ _ _
    have mem := List.mem_map_of_mem (f := Delivery.job) (List.mem_of_getElem? there)
    rwa [← Floor.jobs, jobs, List.mem_singleton] at mem
  have script (i : Nat) : (d.job.operation i).IsOperation (results i) := same ▸ scripted i
  obtain ⟨-, -, reported⟩ := floors f regular 0 d there results script
  have ends := (reported report (Delivery.stage_of_report? made)).1
  rw [same, beq_iff_eq.1 begun] at ends
  refine ⟨?_, d, there, ends⟩
  have run : Step.timed 0 job.run.steps = _ := split
  rw [run]
  exact List.mem_append_right _ (List.mem_cons_of_mem _ inTime)

end Herald
