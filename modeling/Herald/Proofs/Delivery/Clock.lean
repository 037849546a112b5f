import Herald.Proofs.Delivery.Tally

/-! The clock of a run. The time that passes is that of the waits, every deed lies between the beginning and
the end, and no wait goes on past the deadline; a run that begins after its deadline takes no time. -/
namespace Herald

namespace Step

def total : List Step → Nat
  | [] => 0
  | .wait ms :: rest => ms + total rest
  | .act _ :: rest => total rest

@[simp] theorem total_nil : total [] = 0 := rfl

@[simp] theorem total_wait (ms : Nat) (steps : List Step) :
    total (.wait ms :: steps) = ms + total steps := rfl

@[simp] theorem total_act (deed : Deed) (steps : List Step) :
    total (.act deed :: steps) = total steps := rfl

@[simp] theorem total_append (a b : List Step) : total (a ++ b) = total a + total b := by
  induction a with
  | nil => simp
  | cons step a ih =>
    cases step with
    | wait ms => simp [ih, Nat.add_assoc]
    | act deed => simpa using ih

theorem total_until {time due : Nat} (le : time ≤ due) : time + total (Step.until time due) = due := by
  unfold Step.until
  split
  · simp only [total_wait, total_nil]
    omega
  · simp only [total_nil]
    omega

@[simp] theorem timed_nil (time : Nat) : timed time [] = [] := rfl

@[simp] theorem timed_wait (time ms : Nat) (steps : List Step) :
    timed time (.wait ms :: steps) = timed (time + ms) steps := rfl

@[simp] theorem timed_act (time : Nat) (deed : Deed) (steps : List Step) :
    timed time (.act deed :: steps) = (time, deed) :: timed time steps := rfl

@[simp] theorem timed_append (time : Nat) (a b : List Step) :
    timed time (a ++ b) = timed time a ++ timed (time + total a) b := by
  induction a generalizing time with
  | nil => simp
  | cons step a ih =>
    cases step with
    | wait ms => simp [ih, Nat.add_assoc]
    | act deed => simp [ih]

@[simp] theorem map_snd_timed (time : Nat) (steps : List Step) :
    (timed time steps).map Prod.snd = deeds steps := by
  induction steps generalizing time with
  | nil => rfl
  | cons step steps ih =>
    cases step with
    | wait ms => exact ih _
    | act deed => rw [timed_act, List.map_cons, ih, deeds_act]

theorem timed_add (begun time : Nat) (steps : List Step) :
    timed (begun + time) steps = (timed time steps).map fun e => (begun + e.1, e.2) := by
  induction steps generalizing time with
  | nil => rfl
  | cons step steps ih =>
    cases step with
    | wait ms => rw [timed_wait, timed_wait, Nat.add_assoc, ih]
    | act deed => rw [timed_act, timed_act, ih, List.map_cons]

theorem timed_of_silent {steps : List Step} (silent : deeds steps = []) (time : Nat) :
    timed time steps = [] := by
  rw [← map_snd_timed time] at silent
  exact List.map_eq_nil_iff.1 silent

theorem within_of_mem_timed {time : Nat} {steps : List Step} {e : Nat × Deed}
    (mem : e ∈ timed time steps) : time ≤ e.1 ∧ e.1 ≤ time + total steps := by
  induction steps generalizing time with
  | nil => cases mem
  | cons step steps ih =>
    cases step with
    | wait ms =>
      have later := ih mem
      rw [total_wait]
      omega
    | act deed =>
      rcases List.mem_cons.1 mem with rfl | mem
      · exact ⟨Nat.le_refl _, Nat.le_add_right _ _⟩
      · exact ih mem

end Step

namespace Limits

theorem le_cancelTime (l : Limits) (time : Nat) : time ≤ l.cancelTime time := Nat.le_max_left _ _

theorem le_stop (l : Limits) (time : Nat) : time ≤ l.stop time := Nat.le_max_left _ _

theorem stop_le_stop {l : Limits} {time later : Nat} (le : later ≤ l.stop time) :
    l.stop later ≤ l.stop time :=
  Nat.max_le.2 ⟨le, Nat.le_max_right _ _⟩

end Limits

structure Stretch.Clocked {α : Type} (l : Limits) (time : Nat) (s : Stretch α) : Prop where
  passes : time + Step.total s.steps = s.time
  stops : s.time ≤ l.stop time

namespace Stretch.Clocked

variable {α β : Type} {l : Limits} {time : Nat} {s : Stretch α}

theorem later (clocked : s.Clocked l time) : time ≤ s.time :=
  Nat.le.intro clocked.passes

theorem within (clocked : s.Clocked l time) :
    ∀ e ∈ Step.timed time s.steps, time ≤ e.1 ∧ e.1 ≤ s.time :=
  fun _ mem => clocked.passes ▸ Step.within_of_mem_timed mem

theorem act (clocked : s.Clocked l time) (deed : Deed) : (s.after [.act deed]).Clocked l time :=
  ⟨clocked.passes, clocked.stops⟩

theorem andThen {t : Stretch β} (first : s.Clocked l time) (second : t.Clocked l s.time) :
    (t.after s.steps).Clocked l time := by
  refine ⟨?_, Nat.le_trans second.stops (Limits.stop_le_stop first.stops)⟩
  have passes := second.passes
  rw [← first.passes] at passes
  simp only [Stretch.after, Step.total_append]
  omega

theorem timed (clocked : s.Clocked l time) (more : List Step) :
    Step.timed time (s.steps ++ more) = Step.timed time s.steps ++ Step.timed s.time more := by
  rw [Step.timed_append, clocked.passes]

theorem waits {due : Nat} (later : time ≤ due) (stops : due ≤ l.stop time) (result : α) :
    (⟨Step.until time due, due, result⟩ : Stretch α).Clocked l time :=
  ⟨Step.total_until later, stops⟩

end Stretch.Clocked

theorem Limits.clocked_rest (l : Limits) (time delay : Nat) : (l.rest time delay).Clocked l time := by
  simp only [rest]
  split
  · next cancelled =>
    have before : time ≤ min (time + delay) (l.stop time) :=
      Nat.le_min.2 ⟨Nat.le_add_right _ _, l.le_stop time⟩
    exact .waits (l.le_cancelTime time)
      (Nat.le_trans (cancelTime_le before cancelled) (Nat.min_le_right _ _)) _
  · split
    · exact .waits (l.le_stop time) (Nat.le_refl _) _
    · next early =>
      exact .waits (Nat.le_add_right _ _)
        (Nat.le_trans (Nat.le_of_not_le early) (Nat.le_max_right _ _)) _

theorem Limits.timed_rest (l : Limits) (time delay : Nat) (more : List Step) :
    Step.timed time ((l.rest time delay).steps ++ more) = Step.timed (l.rest time delay).time more := by
  rw [(l.clocked_rest time delay).timed, Step.timed_of_silent (l.rested time delay).deeds,
    List.nil_append]

namespace Course

theorem clocked_play (l : Limits) (time : Nat) (course : Course) :
    (course.play l time).Clocked l time := by
  induction course generalizing time with
  | done result => exact ⟨rfl, l.le_stop time⟩
  | crashed crash => exact ⟨rfl, l.le_stop time⟩
  | act deed next ih => exact (ih time).act deed
  | pause ms next ih =>
    cases ms with
    | zero => exact ih time
    | succ ms =>
      simp only [play]
      split
      · next cancelled =>
        have before : time ≤ min (time + (ms + 1)) (l.stop time) :=
          Nat.le_min.2 ⟨Nat.le_add_right _ _, l.le_stop time⟩
        exact .waits (l.le_cancelTime time)
          (Nat.le_trans (Limits.cancelTime_le before cancelled) (Nat.min_le_right _ _)) _
      · split
        · exact .waits (l.le_stop time) (Nat.le_refl _) _
        · next inTime =>
          have first : (⟨[.wait (ms + 1)], time + (ms + 1), ()⟩ : Stretch Unit).Clocked l time :=
            ⟨rfl, Nat.le_of_not_lt inTime⟩
          exact first.andThen (ih _)
  | turn next ih =>
    simp only [play]
    split
    · exact ⟨rfl, l.le_stop time⟩
    · have first : (⟨[.wait 0], time, ()⟩ : Stretch Unit).Clocked l time := ⟨rfl, l.le_stop time⟩
      exact first.andThen (ih time)

theorem clocked_attempt (l : Limits) (index time : Nat) (course : Course) :
    (course.attempt l index time).Clocked l time := by
  have closed {s : Stretch Result} (clocked : s.Clocked l time) (last : List Step)
      (still : Step.total last = 0) : (⟨.act .called :: s.steps ++ last, s.time, s.result⟩ :
        Stretch Result).Clocked l time :=
    ⟨by simpa [still] using clocked.passes, clocked.stops⟩
  simp only [attempt]
  refine closed ?_ _ (by split <;> rfl)
  split
  · exact ⟨rfl, l.le_stop time⟩
  · exact (course.clocked_play l time).act .started

theorem timed_attempt_rest (l : Limits) (index time delay : Nat) (course : Course)
    (more : List Step) :
    Step.timed time ((course.attempt l index time).steps ++
        (l.rest (course.attempt l index time).time delay).steps ++ more) =
      Step.timed time (course.attempt l index time).steps ++
        Step.timed (l.rest (course.attempt l index time).time delay).time more := by
  rw [List.append_assoc, (course.clocked_attempt l index time).timed, l.timed_rest]

end Course

/-- A run ends at the deadline at the latest, or where it begins. -/
theorem clocked_attemptsFrom (l : Limits) (operation : Nat → Course) (delays : List Nat)
    (index time : Nat) : (attemptsFrom l operation delays index time).Clocked l time := by
  refine attemptsFrom_induction (P := fun _ _ time s => s.Clocked l time) ?_ ?_ ?_ ?_ delays index time
  · rintro _ index time _ rfl -
    exact (operation index).clocked_attempt l index time
  · rintro index time _ _ rfl -
    exact (operation index).clocked_attempt l index time
  · rintro delay _ index time tried _ _ other rfl - rfl -
    have rested := l.clocked_rest ((operation index).attempt l index time).time delay
    have cut : (⟨(l.rest ((operation index).attempt l index time).time delay).steps,
        (l.rest ((operation index).attempt l index time).time delay).time,
        .ok (.error other)⟩ : Stretch Result).Clocked l ((operation index).attempt l index time).time :=
      ⟨rested.passes, rested.stops⟩
    exact ((operation index).clocked_attempt l index time).andThen cut
  · rintro delay delays index time tried _ rested rfl - rfl - again
    have onward := (l.clocked_rest _ delay).andThen again
    have whole := ((operation index).clocked_attempt l index time).andThen onward
    simpa [Stretch.after] using whole

end Herald
