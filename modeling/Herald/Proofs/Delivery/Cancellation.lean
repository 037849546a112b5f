import Herald.Proofs.Delivery.Clock

/-! A run and the same run cut by a cancellation. Until then both do the same, and with the cancellation the
second one ends; an attempt that is under way then is closed as cancelled. -/
namespace Herald

def Deed.underway (open_ : Option Nat) (deeds : List (Nat × Deed)) : Option Nat :=
  deeds.foldl (fun open_ e =>
    match e.2 with
    | .called => some e.1
    | .ended _ _ => none
    | _ => open_) open_

def Deed.completed (deeds : List (Nat × Deed)) : List Attempt := deeds.filterMap fun e => e.2.attempt?

/-- What a cancellation adds to some deeds, of which the first attempt has a number: the end of the attempt
that is under way. -/
def Deed.closed (first c : Nat) (deeds : List (Nat × Deed)) : List (Nat × Deed) :=
  match Deed.underway none deeds with
  | some t => [(c, .ended ⟨first + (completed deeds).length, c - t, .of (.error .cancelled)⟩
      (.error .cancelled))]
  | none => []

namespace Deed

variable {deeds : List (Nat × Deed)}

theorem underway_append (open_ : Option Nat) (a b : List (Nat × Deed)) :
    underway open_ (a ++ b) = underway (underway open_ a) b := List.foldl_append ..

theorem completed_append (a b : List (Nat × Deed)) : completed (a ++ b) = completed a ++ completed b :=
  List.filterMap_append

theorem underway_of_own (own : ∀ e ∈ deeds, e.2.isOwn = true) (open_ : Option Nat) :
    underway open_ deeds = open_ := by
  induction deeds with
  | nil => rfl
  | cons e deeds ih =>
    have rest := ih fun e mem => own e (List.mem_cons_of_mem _ mem)
    obtain ⟨time, deed⟩ := e
    have first : deed.isOwn = true := own _ List.mem_cons_self
    cases deed <;> first | exact rest | cases first

theorem completed_of_own (own : ∀ e ∈ deeds, e.2.isOwn = true) : completed deeds = [] := by
  refine List.filterMap_eq_nil_iff.2 fun e mem => ?_
  have mine := own e mem
  cases deed : e.2 <;> first | rfl | (rw [deed] at mine; cases mine)

end Deed

theorem Step.completed_timed (time : Nat) (steps : List Step) :
    Deed.completed (timed time steps) = attempts steps := by
  rw [attempts_eq_deeds, ← map_snd_timed time, List.filterMap_map]
  rfl

def Deed.before (c : Nat) (deeds : List (Nat × Deed)) : List (Nat × Deed) :=
  deeds.filter fun e => e.1 < c

theorem Deed.before_append (c : Nat) (a b : List (Nat × Deed)) :
    before c (a ++ b) = before c a ++ before c b := List.filter_append _ _

theorem Deed.before_cons {c : Nat} {e : Nat × Deed} (early : e.1 < c) (deeds : List (Nat × Deed)) :
    before c (e :: deeds) = e :: before c deeds :=
  List.filter_cons_of_pos (by simpa using early)

theorem Step.before_timed_of_le {c time : Nat} (late : c ≤ time) (steps : List Step) :
    Deed.before c (timed time steps) = [] := by
  refine List.filter_eq_nil_iff.2 fun e mem => ?_
  have later := (within_of_mem_timed mem).1
  simpa using Nat.le_trans late later

theorem Stretch.Clocked.before_eq {α : Type} {l : Limits} {c time : Nat} {s : Stretch α}
    (clocked : s.Clocked l time) (early : s.time < c) :
    Deed.before c (Step.timed time s.steps) = Step.timed time s.steps := by
  refine List.filter_eq_self.2 fun e mem => ?_
  simpa using Nat.lt_of_le_of_lt (clocked.within e mem).2 early

/-- A stretch with a cancellation does what it does without it, if it ends before that. Else it ends with
the cancellation, and adds to what was done by then what closes it. -/
structure Stretch.Cut {α : Type} (c time : Nat) (whole cut : Stretch α) (cancelled : α)
    (closes : List (Nat × Deed)) : Prop where
  early : whole.time < c → cut = whole
  late : c ≤ whole.time → cut.time = c ∧ cut.result = cancelled ∧
    Step.timed time cut.steps = Deed.before c (Step.timed time whole.steps) ++ closes

namespace Stretch.Cut

section

variable {α : Type} {c time : Nat} {whole cut : Stretch α} {cancelled : α}

theorem of_early (early : whole.time < c) (cancelled : α) (closes : List (Nat × Deed)) :
    Cut c time whole whole cancelled closes :=
  ⟨fun _ => rfl, fun late => absurd early (Nat.not_lt.2 late)⟩

theorem of_wait (late : c ≤ whole.time)
    (nothing : Deed.before c (Step.timed time whole.steps) = []) :
    Cut c time whole ⟨Step.until time c, c, cancelled⟩ cancelled [] := by
  refine ⟨fun early => absurd early (Nat.not_lt.2 late), fun _ => ⟨rfl, rfl, ?_⟩⟩
  rw [nothing, Step.timed_of_silent (Step.deeds_until time c), List.nil_append]

end

variable {c time : Nat} {whole cut : Stretch Result} {cancelled : Result}
  {closes : List (Nat × Deed)}

theorem after {first : List Step} {front : List (Nat × Deed)} {start : Nat}
    (cuts : Cut c time whole cut cancelled closes)
    (parts : ∀ steps, Step.timed start (first ++ steps) = front ++ Step.timed time steps)
    (early : Deed.before c front = front) :
    Cut c start (whole.after first) (cut.after first) cancelled closes := by
  refine ⟨fun sooner => by rw [cuts.early sooner], fun later => ?_⟩
  obtain ⟨at_, result, timed⟩ := cuts.late later
  refine ⟨at_, result, ?_⟩
  simp only [Stretch.after, parts, timed, Deed.before_append, early, List.append_assoc]

theorem act (cuts : Cut c time whole cut cancelled closes) (early : time < c) (deed : Deed) :
    Cut c time (whole.after [.act deed]) (cut.after [.act deed]) cancelled closes :=
  cuts.after (fun _ => rfl) (Deed.before_cons early [])

theorem wait {ms : Nat} (cuts : Cut c (time + ms) whole cut cancelled closes) :
    Cut c time (whole.after [.wait ms]) (cut.after [.wait ms]) cancelled closes :=
  cuts.after (fun _ => (List.nil_append _).symm) rfl

end Stretch.Cut

namespace Limits

variable {deadline c time : Nat}

theorem isCancelledBy_none : isCancelledBy ⟨deadline, none⟩ time = false := rfl

theorem isCancelledBy_some : isCancelledBy ⟨deadline, some c⟩ time = decide (c ≤ time) := rfl

theorem cancelTime_of_early (early : time < c) : cancelTime ⟨deadline, some c⟩ time = c :=
  Nat.max_eq_right (Nat.le_of_lt early)

theorem cut_rest (deadline : Nat) (early : time < c) (delay : Nat) :
    Stretch.Cut c time (rest ⟨deadline, none⟩ time delay) (rest ⟨deadline, some c⟩ time delay)
      (.error .cancelled) [] := by
  have stops : stop ⟨deadline, none⟩ time = stop ⟨deadline, some c⟩ time := rfl
  have nothing : Deed.before c (Step.timed time (rest ⟨deadline, none⟩ time delay).steps) = [] := by
    rw [Step.timed_of_silent (rested _ time delay).deeds]
    rfl
  revert nothing
  simp only [rest, isCancelledBy_none, isCancelledBy_some, Bool.false_eq_true, if_false,
    decide_eq_true_eq, stops]
  intro nothing
  by_cases cut : c ≤ min (time + delay) (stop ⟨deadline, some c⟩ time)
  · obtain ⟨inTime, inside⟩ := Nat.le_min.1 cut
    rw [if_pos cut, cancelTime_of_early early]
    refine .of_wait ?_ nothing
    split
    · exact inside
    · exact inTime
  · rw [if_neg cut]
    refine .of_early ?_ _ _
    split
    · next passed =>
      have least : stop ⟨deadline, some c⟩ time ≤ time + delay :=
        Nat.max_le.2 ⟨Nat.le_add_right _ _, passed⟩
      exact Nat.lt_of_not_le (Nat.min_eq_right least ▸ cut)
    · next ahead =>
      have least : time + delay ≤ stop ⟨deadline, some c⟩ time :=
        Nat.le_trans (Nat.le_of_not_le ahead) (Nat.le_max_right _ _)
      exact Nat.lt_of_not_le (Nat.min_eq_left least ▸ cut)

end Limits

namespace Course

variable {deadline c time : Nat}

theorem cut_play (deadline : Nat) (early : time < c) (course : Course) :
    Stretch.Cut c time (course.play ⟨deadline, none⟩ time) (course.play ⟨deadline, some c⟩ time)
      (.ok (.error .cancelled)) [] := by
  induction course generalizing time with
  | done result => exact .of_early early _ _
  | crashed crash => exact .of_early early _ _
  | act deed next ih => exact (ih early).act early deed
  | pause ms next ih =>
    cases ms with
    | zero => exact ih early
    | succ ms =>
      have stops : Limits.stop ⟨deadline, none⟩ time = Limits.stop ⟨deadline, some c⟩ time := rfl
      simp only [play, Limits.isCancelledBy_none, Limits.isCancelledBy_some, Bool.false_eq_true,
        if_false, decide_eq_true_eq, stops]
      by_cases cut : c ≤ min (time + (ms + 1)) (Limits.stop ⟨deadline, some c⟩ time)
      · obtain ⟨inTime, inside⟩ := Nat.le_min.1 cut
        rw [if_pos cut, Limits.cancelTime_of_early early]
        split
        · exact .of_wait inside (by simp [Step.timed_of_silent, Deed.before])
        · have later := (clocked_play ⟨deadline, none⟩ (time + (ms + 1)) next).later
          exact .of_wait (Nat.le_trans inTime later) (Step.before_timed_of_le inTime _)
      · rw [if_neg cut]
        split
        · next short =>
          exact .of_early (Nat.lt_of_not_le (Nat.min_eq_right (Nat.le_of_lt short) ▸ cut)) _ _
        · next long =>
          exact (ih (Nat.lt_of_not_le (Nat.min_eq_left (Nat.le_of_not_lt long) ▸ cut))).wait
  | turn next ih =>
    simp only [play]
    split
    · exact .of_early early _ _
    · have waited : time + 0 < c := early
      exact (ih waited).wait

theorem cut_attempt (deadline : Nat) (early : time < c) (index : Nat) {course : Course}
    (own : ∀ deed ∈ course.deeds, deed.isOwn = true) :
    Stretch.Cut c time (course.attempt ⟨deadline, none⟩ index time)
      (course.attempt ⟨deadline, some c⟩ index time) (.ok (.error .cancelled))
      (Deed.closed index c
        (Deed.before c (Step.timed time (course.attempt ⟨deadline, none⟩ index time).steps))) := by
  have quiet : Limits.isCancelledBy ⟨deadline, some c⟩ time = false :=
    decide_eq_false (Nat.not_le.2 early)
  obtain ⟨same, cut⟩ := cut_play deadline early course
  have played := clocked_play ⟨deadline, none⟩ time course
  rw [attempt_of_quiet quiet, attempt_of_quiet Limits.isCancelledBy_none]
  refine ⟨fun sooner => by rw [same sooner], fun later => ?_⟩
  obtain ⟨at_, result, timed⟩ := cut later
  let inner := Deed.before c (Step.timed time (course.play ⟨deadline, none⟩ time).steps)
  have past : Deed.before c (Step.timed time (.act .called :: .act .started ::
      ((course.play ⟨deadline, none⟩ time).steps ++
        (closing index time (course.play ⟨deadline, none⟩ time)).map .act))) =
      (time, .called) :: (time, .started) :: inner := by
    rw [Step.timed_act, Step.timed_act, played.timed, Deed.before_cons early, Deed.before_cons early,
      Deed.before_append, Step.before_timed_of_le later, List.append_nil]
  have mine : ∀ e ∈ inner, e.2.isOwn = true := fun e mem => by
    have deed := List.mem_map_of_mem (f := Prod.snd) (List.mem_filter.1 mem).1
    rw [Step.map_snd_timed] at deed
    exact own _ ((Course.played ⟨deadline, none⟩ time course).deeds.subset deed)
  have closes : Deed.closed index c ((time, .called) :: (time, .started) :: inner) =
      [(c, .ended ⟨index, c - time, .of (.error .cancelled)⟩ (.error .cancelled))] := by
    have open_ : Deed.underway (some time) inner = some time := Deed.underway_of_own mine _
    have none_ : Deed.completed inner = [] := Deed.completed_of_own mine
    have since : Deed.underway none ((time, .called) :: (time, .started) :: inner) = some time := open_
    have ended : Deed.completed ((time, .called) :: (time, .started) :: inner) = [] := none_
    simp only [Deed.closed, since, ended, List.length_nil, Nat.add_zero]
  have ends : closing index time (course.play ⟨deadline, some c⟩ time) =
      [.ended ⟨index, c - time, .of (.error .cancelled)⟩ (.error .cancelled)] := by
    simp only [closing, result, at_]
  refine ⟨at_, result, ?_⟩
  rw [past, closes, Step.timed_act, Step.timed_act, (clocked_play _ time course).timed, timed, ends, at_,
    List.append_nil]
  rfl

end Course

theorem Stretch.final_of_cancelled {s : Stretch Result}
    (cancelled : s.result = .ok (.error .cancelled)) : ∀ failure, ¬ s.FailsWith failure := by
  rintro failure ⟨fails, retryable⟩
  obtain rfl : Failure.cancelled = failure := by simpa using cancelled.symm.trans fails
  cases retryable

theorem Deed.closed_append {first c : Nat} {a : List (Nat × Deed)} (ended : underway none a = none)
    (one : (completed a).length = 1) (b : List (Nat × Deed)) :
    closed first c (a ++ b) = closed (first + 1) c b := by
  rw [closed, underway_append, ended, completed_append, List.length_append, one, ← Nat.add_assoc]
  rfl

section

variable {deadline c index time delay : Nat} {delays : List Nat} {operation : Nat → Course}
  {tried whole : Stretch Result} {more : List Step}
  (own : ∀ i, ∀ deed ∈ (operation i).deeds, deed.isOwn = true)
  (made : tried = (operation index).attempt ⟨deadline, none⟩ index time)
include own made

theorem closed_of_result {result : Except Failure Unit} (ends : tried.result = .ok result)
    (deeds : List (Nat × Deed)) :
    Deed.closed index c (Step.timed time tried.steps ++ deeds) = Deed.closed (index + 1) c deeds := by
  obtain ⟨inner, silent, whole⟩ := Course.deeds_attempt (own index) ⟨deadline, none⟩ index time
  have last : Course.closing index time tried =
      [.ended ⟨index, tried.time - time, .of result⟩ result] := by
    simp only [Course.closing, ends]
  rw [← made, last] at whole
  have finished : Deed.underway none (Step.timed time tried.steps) = none := by
    rw [← Step.map_snd_timed time] at whole
    obtain ⟨a, b, split, -, final⟩ := List.map_eq_append_iff.1 whole
    obtain ⟨⟨t, deed⟩, rfl, rfl⟩ := List.map_eq_singleton_iff.1 final
    rw [split, Deed.underway_append]
    rfl
  have one : (Deed.completed (Step.timed time tried.steps)).length = 1 := by
    have quiet : inner.filterMap Deed.attempt? = [] := by
      refine List.filterMap_eq_nil_iff.2 fun deed mem => ?_
      rcases silent deed mem with rfl | mine
      · rfl
      · cases deed <;> first | rfl | cases mine
    rw [Step.completed_timed, Step.attempts_eq_deeds, whole]
    simp [List.filterMap_cons, quiet, Deed.attempt?]
  exact Deed.closed_append finished one deeds

theorem cut_of_late_attempt (early : time < c) (late : c ≤ tried.time)
    (steps : whole.steps = tried.steps ++ more) (ends : tried.time ≤ whole.time) :
    Stretch.Cut c time whole (attemptsFrom ⟨deadline, some c⟩ operation delays index time)
      (.ok (.error .cancelled)) (Deed.closed index c (Deed.before c (Step.timed time whole.steps))) := by
  subst made
  obtain ⟨-, cut⟩ := Course.cut_attempt deadline early index (own index)
  obtain ⟨at_, result, timed⟩ := cut late
  have only : attemptsFrom ⟨deadline, some c⟩ operation delays index time =
      (operation index).attempt ⟨deadline, some c⟩ index time :=
    attemptsFrom_of_final (Stretch.final_of_cancelled result)
  have past := ((operation index).clocked_attempt ⟨deadline, none⟩ index time).timed more
  rw [only, steps, past, Deed.before_append, Step.before_timed_of_le late, List.append_nil]
  refine ⟨fun sooner => absurd (Nat.le_trans late ends) (Nat.not_le.2 sooner), fun _ => ⟨at_, result, ?_⟩⟩
  rw [timed, steps, past, Deed.before_append, Step.before_timed_of_le late, List.append_nil]

theorem cut_of_late_rest {failure : Failure} (fails : tried.FailsWith failure)
    (same : (operation index).attempt ⟨deadline, some c⟩ index time = tried) (early : tried.time < c)
    (late : c ≤ (Limits.rest ⟨deadline, none⟩ tried.time delay).time)
    (steps : whole.steps =
      tried.steps ++ (Limits.rest ⟨deadline, none⟩ tried.time delay).steps ++ more)
    (ends : (Limits.rest ⟨deadline, none⟩ tried.time delay).time ≤ whole.time) :
    Stretch.Cut c time whole (attemptsFrom ⟨deadline, some c⟩ operation (delay :: delays) index time)
      (.ok (.error .cancelled)) (Deed.closed index c (Deed.before c (Step.timed time whole.steps))) := by
  obtain ⟨-, cut⟩ := Limits.cut_rest deadline early delay
  obtain ⟨at_, result, -⟩ := cut late
  have past : Deed.before c (Step.timed time whole.steps) = Step.timed time tried.steps := by
    have parts := (operation index).timed_attempt_rest ⟨deadline, none⟩ index time delay more
    have first := ((operation index).clocked_attempt ⟨deadline, none⟩ index time).before_eq (c := c)
    rw [← made] at parts first
    rw [steps, parts, Deed.before_append, Step.before_timed_of_le late, List.append_nil, first early]
  have finished := closed_of_result (c := c) own made fails.1 []
  have still := (operation index).timed_attempt_rest ⟨deadline, some c⟩ index time delay []
  rw [List.append_nil] at finished
  rw [List.append_nil, same, Step.timed_nil, List.append_nil] at still
  rw [past, finished, attemptsFrom_of_cut (same ▸ fails) (same ▸ result), same]
  refine ⟨fun sooner => absurd (Nat.le_trans late ends) (Nat.not_le.2 sooner), fun _ => ⟨at_, rfl, ?_⟩⟩
  rw [past]
  simpa [Deed.closed, Deed.underway] using still

omit made

/-- A run with a cancellation does what it does without it until then, and ends with it. -/
theorem cut_attemptsFrom (deadline : Nat) (delays : List Nat) (index : Nat) (early : time < c) :
    Stretch.Cut c time (attemptsFrom ⟨deadline, none⟩ operation delays index time)
      (attemptsFrom ⟨deadline, some c⟩ operation delays index time) (.ok (.error .cancelled))
      (Deed.closed index c (Deed.before c
        (Step.timed time (attemptsFrom ⟨deadline, none⟩ operation delays index time).steps))) := by
  revert early
  refine attemptsFrom_induction (P := fun delays index time s => time < c →
    Stretch.Cut c time s (attemptsFrom ⟨deadline, some c⟩ operation delays index time)
      (.ok (.error .cancelled)) (Deed.closed index c (Deed.before c (Step.timed time s.steps))))
    ?_ ?_ ?_ ?_ delays index time
  · intro delays index time tried made final early
    have cuts := Course.cut_attempt deadline early index (own index)
    have only : attemptsFrom ⟨deadline, some c⟩ operation delays index time =
        (operation index).attempt ⟨deadline, some c⟩ index time := by
      refine attemptsFrom_of_final ?_
      rw [← made] at cuts
      rcases Nat.lt_or_ge tried.time c with sooner | late
      · exact cuts.early sooner ▸ final
      · exact Stretch.final_of_cancelled (cuts.late late).2.1
    rw [only, made]
    exact cuts
  · intro index time tried failure made fails early
    rw [attemptsFrom_nil, made]
    exact Course.cut_attempt deadline early index (own index)
  · intro delay delays index time tried failure rested other made fails rest ended early
    have waits := Limits.clocked_rest ⟨deadline, none⟩ tried.time delay
    rcases Nat.lt_or_ge tried.time c with sooner | late
    · have same := (Course.cut_attempt deadline early index (own index)).early (made ▸ sooner)
      have rests := Limits.cut_rest deadline sooner delay
      rw [← made] at same
      rw [rest] at ended ⊢
      rcases Nat.lt_or_ge (Limits.rest ⟨deadline, none⟩ tried.time delay).time c with before | after
      · rw [attemptsFrom_of_cut (same ▸ fails) (by rw [same, rests.early before]; exact ended), same,
          rests.early before]
        refine .of_early ?_ _ _
        exact before
      · exact cut_of_late_rest own made fails same sooner after (List.append_nil _).symm (Nat.le_refl _)
    · exact cut_of_late_attempt own made early late rfl (rest ▸ waits.later)
  · intro delay delays index time tried failure rested made fails rest whole ih early
    have waits := Limits.clocked_rest ⟨deadline, none⟩ tried.time delay
    have onward := clocked_attemptsFrom ⟨deadline, none⟩ operation delays (index + 1) rested.time
    rcases Nat.lt_or_ge tried.time c with sooner | late
    · have same := (Course.cut_attempt deadline early index (own index)).early (made ▸ sooner)
      have rests := Limits.cut_rest deadline sooner delay
      rw [← made] at same
      rw [rest] at whole ih onward ⊢
      rcases Nat.lt_or_ge (Limits.rest ⟨deadline, none⟩ tried.time delay).time c with before | after
      · rw [attemptsFrom_of_rested (same ▸ fails) (by rw [same, rests.early before]; exact whole), same,
          rests.early before]
        have parts := (operation index).timed_attempt_rest ⟨deadline, none⟩ index time delay
        have first := ((operation index).clocked_attempt ⟨deadline, none⟩ index time).before_eq (c := c)
        rw [← made] at parts first
        have cuts := (ih before).after parts (first sooner)
        rw [← closed_of_result own made fails.1] at cuts
        simp only [Stretch.after, parts, Deed.before_append, first sooner] at cuts ⊢
        exact cuts
      · exact cut_of_late_rest own made fails same sooner after rfl onward.later
    · exact cut_of_late_attempt own made early late (List.append_assoc ..)
        (Nat.le_trans (rest ▸ waits.later) onward.later)

end

end Herald
