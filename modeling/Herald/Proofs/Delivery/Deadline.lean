import Herald.Proofs.Delivery.Clock

/-! What a deadline leaves of a run. At each call a whole attempt begins, and but for the first one neither
limit has come by then; an operation that is ready by the deadline is finished, and one that takes longer
than that could as well never end. -/
namespace Herald

theorem Deed.not_isCall_of_isOwn {deed : Deed} (own : deed.isOwn = true) : deed.isCall = false := by
  cases deed <;> first | rfl | cases own

namespace Course

/-- A course that begins at a time comes to its own end without a wait beyond the deadline. A turn that it
leaves to others does not come back at the deadline. -/
def ReadyBy (deadline : Nat) : Nat → Course → Prop
  | _, .done _ => True
  | _, .crashed _ => True
  | time, .act _ next => next.ReadyBy deadline time
  | time, .pause 0 next => next.ReadyBy deadline time
  | time, .pause (ms + 1) next =>
    time + (ms + 1) ≤ deadline ∧ next.ReadyBy deadline (time + (ms + 1))
  | time, .turn next => time < deadline ∧ next.ReadyBy deadline time

def stalled (ms : Nat) : Course → Course
  | .done result => .pause ms (.done result)
  | .crashed crash => .pause ms (.crashed crash)
  | .act deed next => .act deed (next.stalled ms)
  | .pause before next => .pause before (next.stalled ms)
  | .turn next => .turn (next.stalled ms)

variable {l : Limits} {time : Nat} {course : Course}

theorem play_of_readyBy (ready : course.ReadyBy l.deadline time)
    (quiet : l.isCancelledBy (time + course.duration) = false) :
    (course.play l time).result = course.result ∧
      (course.play l time).time = time + course.duration := by
  induction course generalizing time with
  | done result => exact ⟨rfl, rfl⟩
  | crashed crash => exact ⟨rfl, rfl⟩
  | act deed next ih => exact ih ready quiet
  | pause ms next ih =>
    cases ms with
    | zero => simpa [play, Course.result, duration] using ih ready (by simpa [duration] using quiet)
    | succ ms =>
      obtain ⟨inTime, ready⟩ := ready
      have lasts : time + (pause (ms + 1) next).duration = time + (ms + 1) + next.duration := by
        simp only [duration]
        omega
      have stops : time + (ms + 1) ≤ l.stop time := Nat.le_trans inTime (Nat.le_max_right _ _)
      rw [lasts] at quiet ⊢
      have uncut : l.isCancelledBy (min (time + (ms + 1)) (l.stop time)) = false :=
        Limits.not_isCancelledBy_of_le (by omega) quiet
      simp only [play, uncut, Bool.false_eq_true, if_false, Nat.not_lt.2 stops]
      exact ih ready quiet
  | turn next ih =>
    obtain ⟨early, ready⟩ := ready
    simp only [play, Nat.not_le.2 early, if_false]
    exact ih ready quiet

/-- An attempt whose operation is ready by the deadline, and exactly at it at the latest, ends with the
result of the operation. -/
theorem ended_mem_of_readyBy (index : Nat) {result : Except Failure Unit} (ends : course.result = .ok result)
    (ready : course.ReadyBy l.deadline time)
    (quiet : l.isCancelledBy (time + course.duration) = false) :
    (time + course.duration, .ended ⟨index, course.duration, .of result⟩ result) ∈
      Step.timed time (course.attempt l index time).steps := by
  obtain ⟨own, at_⟩ := play_of_readyBy ready quiet
  have uncancelled : l.isCancelledBy time = false :=
    Limits.not_isCancelledBy_of_le (Nat.le_add_right _ _) quiet
  have passes := (course.clocked_play l time).passes
  rw [at_] at passes
  simp [attempt, uncancelled, Stretch.after, own, ends, at_, passes]

theorem play_pause_of_beyond {ms : Nat} (beyond : l.stop time < time + ms) (next : Course) :
    (pause ms next).play l time = if l.isCancelledBy (l.stop time) then
      ⟨Step.until time (l.cancelTime time), l.cancelTime time, .ok (.error .cancelled)⟩
    else ⟨Step.until time (l.stop time), l.stop time, .ok (.error .deadlineExceeded)⟩ := by
  cases ms with
  | zero => exact absurd beyond (Nat.not_lt.2 (l.le_stop time))
  | succ ms => simp only [play, Nat.min_eq_right (Nat.le_of_lt beyond), beyond, if_true]

theorem play_stalled {p q : Nat} (course : Course) (first : l.stop time < time + p)
    (second : l.stop time < time + q) :
    (course.stalled p).play l time = (course.stalled q).play l time := by
  induction course generalizing time with
  | done result => rw [stalled, stalled, play_pause_of_beyond first, play_pause_of_beyond second]
  | crashed crash => rw [stalled, stalled, play_pause_of_beyond first, play_pause_of_beyond second]
  | act deed next ih => simp only [stalled, play, ih first second]
  | pause ms next ih =>
    cases ms with
    | zero => exact ih first second
    | succ ms =>
      simp only [stalled, play]
      split
      · rfl
      · split
        · rfl
        · next inTime =>
          have still := Limits.stop_le_stop (Nat.le_of_not_lt inTime)
          rw [ih (by omega) (by omega)]
  | turn next ih => simp only [stalled, play, ih first second]

theorem attempt_congr {other : Course} (same : course.play l time = other.play l time) (index : Nat) :
    course.attempt l index time = other.attempt l index time := by
  simp only [attempt, same]

theorem timed_attempt (own : ∀ deed ∈ course.deeds, deed.isOwn = true) (l : Limits)
    (index time : Nat) :
    ∃ inner, Step.timed time (course.attempt l index time).steps = (time, .called) :: inner ∧
      ∀ e ∈ inner, e.2.isCall = false := by
  obtain ⟨within, silent, deeds⟩ := deeds_attempt own l index time
  have first : Step.timed time (course.attempt l index time).steps =
      (time, .called) :: (Step.timed time (course.attempt l index time).steps).tail := rfl
  refine ⟨_, first, fun e mem => ?_⟩
  have same := Step.map_snd_timed time (course.attempt l index time).steps
  rw [deeds, first, List.map_cons, List.cons_append] at same
  have mem : e.2 ∈ within ++ closing index time (course.attempt l index time) :=
    (List.cons.inj same).2 ▸ List.mem_map_of_mem mem
  rcases List.mem_append.1 mem with inside | last
  · rcases silent _ inside with is | own
    · rw [is]; rfl
    · exact Deed.not_isCall_of_isOwn own
  · unfold closing at last
    split at last
    · rw [List.mem_singleton.1 last]; rfl
    · cases last

end Course

theorem Limits.spare_of_rested {l : Limits} {time delay : Nat}
    (whole : (l.rest time delay).result = .ok ()) : l.Spare (l.rest time delay).time := by
  simp only [rest] at whole ⊢
  split at whole
  · cases whole
  · next quiet =>
    split at whole
    · cases whole
    · next early =>
      rw [if_neg quiet, if_neg early]
      have stops : min (time + delay) (l.stop time) = time + delay :=
        Nat.min_eq_left (Nat.le_trans (Nat.le_of_not_le early) (Nat.le_max_right _ _))
      rw [stops] at quiet
      exact ⟨Nat.lt_of_not_le early, by simpa using quiet⟩

section

variable {l : Limits} {operation other : Nat → Course} {delays : List Nat} {index time : Nat}

/-- At each call of a run the next attempt begins. Only the first one may begin after a limit. -/
structure Begins (l : Limits) (operation : Nat → Course) (index time : Nat)
    (before : List (Nat × Deed)) (t : Nat) (after : List (Nat × Deed)) : Prop where
  first : before = [] → t = time
  spare : before ≠ [] → l.Spare t
  attempt : ∃ rest, (t, .called) :: after =
    Step.timed t ((operation (index + before.countP (·.2.isCall))).attempt l
      (index + before.countP (·.2.isCall)) t).steps ++ rest

theorem exists_of_silent {α : Type} {counts : α → Bool} {inner rest before after : List α} {a : α}
    (silent : ∀ e ∈ inner, counts e = false) (own : counts a = true)
    (split : inner ++ rest = before ++ a :: after) :
    ∃ between, before = inner ++ between ∧ rest = between ++ a :: after := by
  rcases List.append_eq_append_iff.1 split with ⟨between, all, onward⟩ | ⟨part, whole, onward⟩
  · exact ⟨between, all, onward⟩
  · cases part with
    | nil => exact ⟨[], by simpa using whole.symm, by simpa using onward.symm⟩
    | cons c part =>
      have here : a ∈ inner := by
        rw [whole, (List.cons.inj onward).1]
        simp
      rw [silent a here] at own
      cases own

theorem begins_cons (own : ∀ deed ∈ (operation index).deeds, deed.isOwn = true)
    {before after rest : List (Nat × Deed)} {t : Nat}
    (split : Step.timed time ((operation index).attempt l index time).steps ++ rest =
      before ++ (t, .called) :: after)
    (onward : ∀ x, rest = x ++ (t, .called) :: after →
      ∃ start, l.Spare start ∧ Begins l operation (index + 1) start x t after) :
    Begins l operation index time before t after := by
  obtain ⟨inner, whole, silent⟩ := (operation index).timed_attempt own l index time
  rw [whole, List.cons_append] at split
  cases before with
  | nil =>
    obtain ⟨same, rfl⟩ := List.cons.inj split
    obtain rfl : time = t := congrArg Prod.fst same
    exact ⟨fun _ => rfl, fun ne => absurd rfl ne, rest, by simp [whole]⟩
  | cons e before =>
    obtain ⟨rfl, remains⟩ := List.cons.inj split
    have call : (t, Deed.called).2.isCall = true := rfl
    obtain ⟨x, rfl, later⟩ := exists_of_silent silent call remains
    obtain ⟨start, spare, first, others, more, attempt⟩ := onward x later
    have none_ : inner.countP (·.2.isCall) = 0 :=
      List.countP_eq_zero.2 fun e mem => by simp [silent e mem]
    have count : index + ((time, .called) :: (inner ++ x)).countP (·.2.isCall) =
        index + 1 + x.countP (·.2.isCall) := by
      rw [List.countP_cons, List.countP_append, none_]
      simp only [Deed.isCall, if_true]
      omega
    refine ⟨nofun, fun _ => ?_, more, by rw [count]; exact attempt⟩
    cases x with
    | nil => exact first rfl ▸ spare
    | cons => exact others nofun

theorem attemptsFrom_congr
    (same : ∀ i t, time ≤ t → t ≤ l.stop time → (operation i).play l t = (other i).play l t) :
    attemptsFrom l operation delays index time = attemptsFrom l other delays index time := by
  revert same
  have attempts {index time : Nat}
      (same : ∀ i t, time ≤ t → t ≤ l.stop time → (operation i).play l t = (other i).play l t) :
      (operation index).attempt l index time = (other index).attempt l index time :=
    Course.attempt_congr (same index time (Nat.le_refl _) (l.le_stop time)) index
  refine attemptsFrom_induction (P := fun delays index time s =>
    (∀ i t, time ≤ t → t ≤ l.stop time → (operation i).play l t = (other i).play l t) →
      s = attemptsFrom l other delays index time) ?_ ?_ ?_ ?_ delays index time
  · rintro delays index time _ rfl final same
    rw [attempts same] at final ⊢
    exact (attemptsFrom_of_final final).symm
  · rintro index time _ failure rfl - same
    rw [attempts same, attemptsFrom_nil]
  · rintro delay delays index time _ failure _ cut rfl fails rfl ended same
    rw [attempts same] at fails ended ⊢
    exact (attemptsFrom_of_cut fails ended).symm
  · rintro delay delays index time _ failure _ rfl fails rfl whole ih same
    have first := (operation index).clocked_attempt l index time
    have clocked := first.andThen (l.clocked_rest _ delay)
    rw [ih fun i t later stops => same i t (Nat.le_trans clocked.later later)
      (Nat.le_trans stops (Limits.stop_le_stop clocked.stops))]
    rw [attempts same] at fails whole ⊢
    exact (attemptsFrom_of_rested fails whole).symm

variable (own : ∀ i, ∀ deed ∈ (operation i).deeds, deed.isOwn = true)
include own

theorem begins_of_attemptsFrom (before : List (Nat × Deed)) {after : List (Nat × Deed)} {t : Nat}
    (split : Step.timed time (attemptsFrom l operation delays index time).steps =
      before ++ (t, .called) :: after) : Begins l operation index time before t after := by
  revert before
  refine attemptsFrom_induction (P := fun _ index time s => ∀ before,
    Step.timed time s.steps = before ++ (t, .called) :: after →
      Begins l operation index time before t after) ?_ ?_ ?_ ?_ delays index time
  · rintro _ index time _ rfl - before split
    rw [← List.append_nil (Step.timed _ _)] at split
    exact begins_cons (own index) split fun x => by simp
  · rintro index time _ _ rfl - before split
    rw [← List.append_nil (Step.timed _ _)] at split
    exact begins_cons (own index) split fun x => by simp
  · rintro delay _ index time _ _ _ _ rfl - rfl - before split
    have still := (operation index).timed_attempt_rest l index time delay []
    rw [List.append_nil, Step.timed_nil] at still
    exact begins_cons (own index) (still.symm.trans split) fun x => by simp
  · rintro delay _ index time _ _ _ rfl - rfl whole ih before split
    have parts := (operation index).timed_attempt_rest l index time delay
    exact begins_cons (own index) ((parts _).symm.trans split) fun x later =>
      ⟨_, Limits.spare_of_rested whole, ih x later⟩

end

theorem time_of_late {l : Limits} {operation : Nat → Course} {results : Nat → Except Failure Unit}
    (scripted : ∀ i, (operation i).IsOperation (results i)) {delays : List Nat} {index time : Nat}
    (late : (attemptsFrom l operation delays index time).result = .ok (.error .deadlineExceeded))
    (others : ∀ i, results i ≠ .error .deadlineExceeded) :
    (attemptsFrom l operation delays index time).time = l.stop time := by
  obtain ⟨result, ended, tally⟩ := tally_of_attemptsFrom scripted l delays index time
  obtain rfl : result = .error .deadlineExceeded := by simpa using ended.symm.trans late
  have cuts : l.Cuts (attemptsFrom l operation delays index time).time .deadlineExceeded := by
    obtain ⟨-, -, -, last, -, -, closes⟩ := tally
    cases closes with
    | permanent _ _ origin => exact origin.resolve_left (others _)
    | exhausted _ fails => exact absurd fails.result (others _)
    | cut _ _ cuts => exact cuts
  have clocked := clocked_attemptsFrom l operation delays index time
  rcases cuts with ⟨cancelled, -⟩ | ⟨-, reached⟩
  · cases cancelled
  · exact Nat.le_antisymm clocked.stops (Nat.max_le.2 ⟨clocked.later, reached⟩)

end Herald
