import Herald.Proofs.Delivery.Cancellation
import Herald.Proofs.Delivery.Deadline
import Herald.Proofs.Delivery.Report
import Mathlib.Algebra.BigOperators.Group.Finset.Basic

/-! Runs that no limit cuts. Their attempts begin and end when the ones before them and the rests between them have
taken their time; how many there are and what they come to depends on the results of the operations alone. -/
namespace Herald

open Finset (range)

namespace Deed

def isMark : Deed → Bool
  | .called => true
  | .ended _ _ => true
  | _ => false

def marks (deeds : List (Nat × Deed)) : List (Nat × Deed) := deeds.filter fun e => e.2.isMark

def callTimes (deeds : List (Nat × Deed)) : List Nat := (deeds.filter fun e => e.2.isCall).map Prod.fst

def results (deeds : List (Nat × Deed)) : List (Except Failure Unit) := deeds.filterMap fun e => e.2.result?

variable {deeds : List (Nat × Deed)}

theorem marks_append (a b : List (Nat × Deed)) : marks (a ++ b) = marks a ++ marks b := List.filter_append ..

theorem marks_of_own (own : ∀ e ∈ deeds, e.2.isOwn = true) : marks deeds = [] := by
  refine List.filter_eq_nil_iff.2 fun e mem => ?_
  obtain ⟨time, deed⟩ := e
  have mine : deed.isOwn = true := own _ mem
  cases deed <;> first | exact Bool.false_ne_true | cases mine

theorem callTimes_append (a b : List (Nat × Deed)) : callTimes (a ++ b) = callTimes a ++ callTimes b := by
  simp [callTimes]

theorem callTimes_marks (deeds : List (Nat × Deed)) : callTimes (marks deeds) = callTimes deeds := by
  rw [callTimes, marks, List.filter_filter]
  congr 1
  refine List.filter_congr fun e _ => ?_
  obtain ⟨time, deed⟩ := e
  cases deed <;> rfl

theorem results_append (a b : List (Nat × Deed)) : results (a ++ b) = results a ++ results b :=
  List.filterMap_append

theorem results_marks (deeds : List (Nat × Deed)) : results (marks deeds) = results deeds := by
  rw [results, marks, List.filterMap_filter]
  refine List.filterMap_congr fun e _ => ?_
  obtain ⟨time, deed⟩ := e
  cases deed <;> rfl

end Deed

def marksOf (operation : Nat → Course) (results : Nat → Except Failure Unit) (index time : Nat) :
    List (Nat × Deed) :=
  [(time, .called), (time + (operation index).duration,
    .ended ⟨index, (operation index).duration, .of (results index)⟩ (results index))]

def marksFrom (operation : Nat → Course) (results : Nat → Except Failure Unit) :
    List Nat → Nat → Nat → List (Nat × Deed)
  | [], index, time => marksOf operation results index time
  | rest :: rests, index, time => marksOf operation results index time ++
    marksFrom operation results rests (index + 1) (time + (operation index).duration + rest)

section

variable (operation : Nat → Course) (results : Nat → Except Failure Unit)

theorem callTimes_marksFrom (rests : List Nat) (index time : Nat) :
    Deed.callTimes (marksFrom operation results rests index time) = (List.range (rests.length + 1)).map fun k =>
      time + ∑ r ∈ range k, ((operation (index + r)).duration + rests.getD r 0) := by
  induction rests generalizing index time with
  | nil => simp [marksFrom, marksOf, Deed.callTimes, Deed.isCall]
  | cons rest rests ih =>
    have first : Deed.callTimes (marksOf operation results index time) = [time] := rfl
    rw [marksFrom, Deed.callTimes_append, first, ih, List.length_cons,
      @List.range_succ_eq_map (rests.length + 1), List.map_cons, List.map_map]
    have shift (r : Nat) : index + 1 + r = index + (r + 1) := by omega
    rw [List.singleton_append, Finset.sum_range_zero, Nat.add_zero]
    refine congrArg (time :: ·) (List.map_congr_left fun k _ => ?_)
    simp only [Function.comp_apply, Finset.sum_range_succ', List.getD_cons_succ, List.getD_cons_zero, shift,
      Nat.add_zero]
    omega

theorem results_marksFrom (rests : List Nat) (index time : Nat) :
    Deed.results (marksFrom operation results rests index time) =
      (List.range' index (rests.length + 1)).map results := by
  induction rests generalizing index time with
  | nil => rfl
  | cons rest rests ih =>
    have first : Deed.results (marksOf operation results index time) = [results index] := rfl
    rw [marksFrom, Deed.results_append, first, ih, List.length_cons, List.range'_succ, List.map_cons]
    rfl

theorem spanFrom_eq_sum (rests : List Nat) (index : Nat) : spanFrom operation rests index =
    ∑ i ∈ range (rests.length + 1), (operation (index + i)).duration + ∑ r ∈ range rests.length, rests.getD r 0 := by
  induction rests generalizing index with
  | nil => simp [spanFrom]
  | cons rest rests ih =>
    have shift (i : Nat) : index + 1 + i = index + (i + 1) := by omega
    rw [spanFrom, ih, List.length_cons, Finset.sum_range_succ' _ (rests.length + 1),
      Finset.sum_range_succ' (fun r => (rest :: rests).getD r 0)]
    simp only [shift, List.getD_cons_succ, List.getD_cons_zero, Nat.add_zero]
    omega

end

theorem callTimes_begun (begun : Nat) (steps : List Step) :
    Deed.callTimes (Step.timed begun steps) = (Deed.callTimes (Step.timed 0 steps)).map (begun + ·) := by
  have shift := Step.timed_add begun 0 steps
  rw [Nat.add_zero] at shift
  rw [shift, Deed.callTimes, Deed.callTimes, List.filter_map, List.map_map, List.map_map]
  rfl

theorem results_begun (begun : Nat) (steps : List Step) :
    Deed.results (Step.timed begun steps) = Deed.results (Step.timed 0 steps) := by
  have shift := Step.timed_add begun 0 steps
  rw [Nat.add_zero] at shift
  rw [shift, Deed.results, List.filterMap_map]
  rfl

theorem Course.marks_attempt {course : Course} (own : ∀ deed ∈ course.deeds, deed.isOwn = true) {l : Limits}
    {index time : Nat} {result : Except Failure Unit} (ends : (course.attempt l index time).result = .ok result) :
    Deed.marks (Step.timed time (course.attempt l index time).steps) = [(time, .called),
      ((course.attempt l index time).time,
        .ended ⟨index, (course.attempt l index time).time - time, .of result⟩ result)] := by
  cases cancelled : l.isCancelledBy time with
  | true =>
    rw [attempt_of_cancelled cancelled] at ends ⊢
    obtain rfl : .error .cancelled = result := Except.ok.inj ends
    simp [Deed.marks, Deed.isMark]
  | false =>
    have passes := (course.clocked_play l time).passes
    have inner : Deed.marks (Step.timed time (course.play l time).steps) = [] := by
      refine Deed.marks_of_own fun e mem => own _ ((played l time course).deeds.subset ?_)
      rw [← Step.map_snd_timed time]
      exact List.mem_map_of_mem mem
    rw [attempt_of_quiet cancelled] at ends ⊢
    have ends : (course.play l time).result = .ok result := ends
    have whole : Step.timed time (.act .called :: .act .started :: ((course.play l time).steps ++
        (closing index time (course.play l time)).map .act)) = [(time, .called), (time, .started)] ++
        (Step.timed time (course.play l time).steps ++ [((course.play l time).time,
          .ended ⟨index, (course.play l time).time - time, .of result⟩ result)]) := by
      simp [closing, ends, passes]
    rw [whole, Deed.marks_append, Deed.marks_append, inner]
    rfl

theorem Limits.rest_of_spare {l : Limits} {time delay : Nat} (spare : l.Spare (time + delay)) :
    (l.rest time delay).result = .ok () ∧ (l.rest time delay).time = time + delay := by
  have rested := l.rested time delay
  refine rested.outcome.resolve_right ?_
  rintro ⟨failure, -, cuts⟩
  exact cuts.not_spare (spare.earlier rested.within)

theorem marks_of_spare {operation : Nat → Course} {results : Nat → Except Failure Unit}
    (scripted : ∀ i, (operation i).IsOperation (results i)) (l : Limits) (delays : List Nat)
    (index time count : Nat) (le : count ≤ delays.length)
    (again : ∀ i, index ≤ i → i < index + count → Retryable (results i))
    (final : count = delays.length ∨ ¬ Retryable (results (index + count)))
    (spare : l.Spare (time + spanFrom operation (delays.take count) index)) :
    Deed.marks (Step.timed time (attemptsFrom l operation delays index time).steps) =
      marksFrom operation results (delays.take count) index time := by
  induction count generalizing delays index time with
  | zero =>
    obtain ⟨ends, at_, -⟩ := exact_of_attempt scripted rfl spare
    have only : attemptsFrom l operation delays index time = (operation index).attempt l index time := by
      cases delays with
      | nil => exact attemptsFrom_nil l operation index time
      | cons delay delays =>
        refine attemptsFrom_of_final fun failure fails => final.resolve_left (Nat.succ_ne_zero _).symm ?_
        exact ⟨failure, Except.ok.inj (ends.symm.trans fails.1), fails.2⟩
    rw [only, Course.marks_attempt (scripted index).own ends, at_, Nat.add_sub_cancel_left]
    rfl
  | succ count ih =>
    cases delays with
    | nil => cases le
    | cons delay delays =>
      rw [List.take_succ_cons] at spare ⊢
      rw [spanFrom] at spare
      have first : l.Spare (time + (operation index).duration) := spare.earlier (by omega)
      obtain ⟨ends, at_, -⟩ := exact_of_attempt scripted rfl first
      obtain ⟨failure, is, retryable⟩ := again index (Nat.le_refl _) (by omega)
      have fails : ((operation index).attempt l index time).FailsWith failure := ⟨by rw [ends, is], retryable⟩
      have rests : l.Spare (time + (operation index).duration + delay) := spare.earlier (by omega)
      obtain ⟨whole, later⟩ := Limits.rest_of_spare rests
      have shift : index + (count + 1) = index + 1 + count := by omega
      rw [shift] at final
      have onward := ih delays (index + 1) (time + (operation index).duration + delay)
        (Nat.le_of_succ_le_succ le) (fun i low high => again i (by omega) (by omega))
        (final.imp_left Nat.succ.inj) (by simpa [Nat.add_assoc] using spare)
      have parts := (operation index).timed_attempt_rest l index time delay
      rw [← at_] at whole
      rw [attemptsFrom_of_rested fails whole, Stretch.after, parts, Deed.marks_append,
        Course.marks_attempt (scripted index).own ends, at_, later, onward, Nat.add_sub_cancel_left]
      rfl

section

variable {l : Limits} {later time : Nat}

theorem Course.play_of_spare (most : l.deadline ≤ later) {course : Course}
    (spare : l.Spare (course.play l time).time) : course.play ⟨later, none⟩ time = course.play l time := by
  induction course generalizing time with
  | done => rfl
  | crashed => rfl
  | act deed next ih => simp only [play, ih spare]
  | pause ms next ih =>
    cases ms with
    | zero => exact ih spare
    | succ ms =>
      simp only [play] at spare ⊢
      split at spare
      · next cancelled => exact absurd spare (Limits.cuts_cancelTime cancelled).not_spare
      · next quiet =>
        split at spare
        · exact absurd spare (l.cuts_stop time).not_spare
        · next inTime =>
          have stops : ¬ Limits.stop ⟨later, none⟩ time < time + (ms + 1) := by
            have stop : l.stop time ≤ Limits.stop ⟨later, none⟩ time :=
              Nat.max_le.2 ⟨Nat.le_max_left _ _, Nat.le_trans most (Nat.le_max_right _ _)⟩
            omega
          rw [if_neg quiet, if_neg inTime, if_neg stops, Limits.isCancelledBy_none, if_neg Bool.false_ne_true,
            ih spare]
  | turn next ih =>
    simp only [play] at spare ⊢
    split at spare
    · next past => exact absurd spare.1 (Nat.not_lt.2 past)
    · next ahead =>
      have before : ¬ later ≤ time := fun passed => ahead (Nat.le_trans most passed)
      rw [if_neg ahead, if_neg before, ih spare]

theorem Course.attempt_of_spare (most : l.deadline ≤ later) {index : Nat} {course : Course}
    (spare : l.Spare (course.attempt l index time).time) :
    course.attempt ⟨later, none⟩ index time = course.attempt l index time := by
  cases cancelled : l.isCancelledBy time with
  | true =>
    rw [attempt_of_cancelled cancelled] at spare
    cases cancelled.symm.trans spare.2
  | false =>
    rw [attempt_of_quiet cancelled] at spare ⊢
    rw [attempt_of_quiet Limits.isCancelledBy_none, play_of_spare most spare]

theorem Limits.rest_eq_of_spare (most : l.deadline ≤ later) {delay : Nat} (spare : l.Spare (time + delay)) :
    Limits.rest ⟨later, none⟩ time delay = l.rest time delay := by
  obtain ⟨early, quiet⟩ := spare
  have uncut : l.isCancelledBy (min (time + delay) (l.stop time)) = false :=
    not_isCancelledBy_of_le (Nat.min_le_left _ _) quiet
  simp only [rest, isCancelledBy_none, uncut, Bool.false_eq_true, if_false, Nat.not_le.2 early,
    Nat.not_le.2 (Nat.lt_of_lt_of_le early most)]

theorem attemptsFrom_of_spare_end (most : l.deadline ≤ later) {operation : Nat → Course} {delays : List Nat}
    {index : Nat} (spare : l.Spare (attemptsFrom l operation delays index time).time) :
    attemptsFrom ⟨later, none⟩ operation delays index time = attemptsFrom l operation delays index time := by
  revert spare
  refine attemptsFrom_induction (P := fun delays index time s => l.Spare s.time →
    attemptsFrom ⟨later, none⟩ operation delays index time = s) ?_ ?_ ?_ ?_ delays index time
  · rintro delays index time _ rfl final spare
    have same := Course.attempt_of_spare most spare
    rw [attemptsFrom_of_final (by rw [same]; exact final), same]
  · rintro index time _ failure rfl - spare
    rw [attemptsFrom_nil, Course.attempt_of_spare most spare]
  · rintro delay delays index time _ failure _ other rfl - rfl cut spare
    exact absurd spare ((l.rested _ delay).cuts cut).not_spare
  · rintro delay delays index time _ failure _ rfl fails rfl whole ih spare
    have ends := (clocked_attemptsFrom l operation delays (index + 1)
      (l.rest ((operation index).attempt l index time).time delay).time).later
    have rested := l.rested ((operation index).attempt l index time).time delay
    have still : l.Spare (((operation index).attempt l index time).time + delay) := by
      rw [← rested.time_eq whole]
      exact spare.earlier ends
    have same := Course.attempt_of_spare most (still.earlier (Nat.le_add_right _ _))
    have rests := Limits.rest_eq_of_spare most still
    rw [attemptsFrom_of_rested (by rw [same]; exact fails) (by rw [same, rests]; exact whole), same, rests, ih spare]

end

theorem exists_retries (results : Nat → Except Failure Unit) (most : Nat) : ∃ retries ≤ most,
    (∀ i, 1 ≤ i → i < 1 + retries → Retryable (results i)) ∧
      (retries = most ∨ ¬ Retryable (results (1 + retries))) := by
  induction most with
  | zero => exact ⟨0, Nat.le_refl 0, fun i low high => by omega, .inl rfl⟩
  | succ most ih =>
    obtain ⟨retries, le, again, final⟩ := ih
    by_cases more : Retryable (results (1 + retries))
    · obtain rfl := final.resolve_right (not_not_intro more)
      refine ⟨retries + 1, Nat.le_refl _, fun i low high => ?_, .inl rfl⟩
      rcases Nat.lt_or_ge i (1 + retries) with early | late
      · exact again i low early
      · obtain rfl : i = 1 + retries := by omega
        exact more
    · exact ⟨retries, Nat.le_succ_of_le le, again, .inr more⟩

namespace Job

/-- No limit cuts the run of a job: with more time and without a cancellation it would be the same. -/
def IsUncut (j : Job) : Prop :=
  ∀ timeout, j.timeout ≤ timeout → ({ j with timeout := timeout, cancelAfter := none } : Job).run = j.run

theorem isUncut_of_spare {j : Job} (spare : j.limits.Spare j.run.time) : j.IsUncut :=
  fun _ more => attemptsFrom_of_spare_end more spare

/-- All that a run comes to that no limit cuts, if it makes so many retries. -/
structure Makes (j : Job) (results : Nat → Except Failure Unit) (retries : Nat) : Prop where
  attempts : Step.attempts j.run.steps = (List.range (retries + 1)).map
    fun k => ⟨k + 1, (j.operation (k + 1)).duration, .of (results (k + 1))⟩
  result : j.run.result = .ok (results (retries + 1))
  time : j.run.time =
    ∑ k ∈ range (retries + 1), (j.operation (k + 1)).duration + ∑ r ∈ range retries, j.delays.getD r 0
  callTimes : ∀ begun, Deed.callTimes (Step.timed begun j.run.steps) = (List.range (retries + 1)).map fun k =>
    begun + ∑ r ∈ range k, ((j.operation (r + 1)).duration + j.delays.getD r 0)
  results : ∀ begun, Deed.results (Step.timed begun j.run.steps) =
    (List.range (retries + 1)).map fun k => results (k + 1)

theorem Makes.ending {j : Job} {results : Nat → Except Failure Unit} {retries : Nat} (makes : j.Makes results retries) :
    j.ending = .reported ⟨j.host, (List.range (retries + 1)).map
      fun k => ⟨k + 1, (j.operation (k + 1)).duration, .of (results (k + 1))⟩, results (retries + 1)⟩ := by
  rw [Job.ending, makes.result, makes.attempts]

theorem makes_of_isUncut {j : Job} {results : Nat → Except Failure Unit} {retries : Nat}
    (scripted : ∀ i, (j.operation i).IsOperation (results i)) (uncut : j.IsUncut) (le : retries ≤ j.delays.length)
    (again : ∀ i, 1 ≤ i → i < 1 + retries → Retryable (results i))
    (final : retries = j.delays.length ∨ ¬ Retryable (results (1 + retries))) : j.Makes results retries := by
  -- with time enough, no limit comes to the run
  let span := spanFrom j.operation (j.delays.take retries) 1
  let l : Limits := ⟨j.timeout + span + 1, none⟩
  have same : attemptsFrom l j.operation j.delays 1 0 = j.run := uncut (j.timeout + span + 1) (by omega)
  have spare : l.Spare (0 + span) := ⟨by simp only [l]; omega, rfl⟩
  obtain ⟨attempts, result, time⟩ := attemptsFrom_of_spare scripted l j.delays 1 0 retries le again final spare
  have marks := marks_of_spare scripted l j.delays 1 0 retries le again final spare
  rw [same] at attempts result time marks
  have many : (j.delays.take retries).length = retries := List.length_take_of_le le
  have kept {r : Nat} (inside : r < retries) : (j.delays.take retries).getD r 0 = j.delays.getD r 0 := by
    simp [List.getD_eq_getElem?_getD, inside]
  have numbered {α : Type} (h : Nat → α) :
      (List.range' 1 (retries + 1)).map h = (List.range (retries + 1)).map fun k => h (k + 1) := by
    rw [List.range'_eq_map_range, List.map_map]
    exact List.map_congr_left fun k _ => congrArg h (Nat.add_comm 1 k)
  refine ⟨attempts.trans (numbered _), by rw [result, Nat.add_comm], ?_, fun begun => ?_, fun begun => ?_⟩
  · rw [time, spanFrom_eq_sum, many, Nat.zero_add]
    simp only [Nat.add_comm 1]
    exact congrArg _ (Finset.sum_congr rfl fun r mem => kept (Finset.mem_range.1 mem))
  · rw [callTimes_begun, ← Deed.callTimes_marks, marks, callTimes_marksFrom, many, List.map_map]
    refine List.map_congr_left fun k mem => ?_
    have low := List.mem_range.1 mem
    simp only [Function.comp_apply, Nat.zero_add, Nat.add_comm 1]
    refine congrArg (begun + ·) (Finset.sum_congr rfl fun r inside => ?_)
    have early := Finset.mem_range.1 inside
    rw [kept (by omega)]
  · rw [results_begun, ← Deed.results_marks, marks, results_marksFrom, many, numbered]

end Job

end Herald
