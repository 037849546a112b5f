import Herald.Delivery.Run

/-! How a run goes, attempt by attempt. A course is played up to a prefix of its deeds; it ends with its own
result unless a limit cuts it, and before both limits nothing is cut. A run is an attempt, a rest and a
run again, which is the one induction that all facts on runs come from. -/
namespace Herald

def Step.deeds (steps : List Step) : List Deed :=
  steps.filterMap fun s =>
    match s with
    | .act deed => some deed
    | .wait _ => none

namespace Step

@[simp] theorem deeds_nil : deeds [] = [] := rfl

@[simp] theorem deeds_act (deed : Deed) (steps : List Step) :
    deeds (.act deed :: steps) = deed :: deeds steps := rfl

@[simp] theorem deeds_wait (ms : Nat) (steps : List Step) :
    deeds (.wait ms :: steps) = deeds steps := rfl

@[simp] theorem deeds_append (a b : List Step) : deeds (a ++ b) = deeds a ++ deeds b := by
  simp [deeds]

@[simp] theorem deeds_map_act (deeds : List Deed) : Step.deeds (deeds.map .act) = deeds := by
  induction deeds with
  | nil => rfl
  | cons deed rest ih => rw [List.map_cons, deeds_act, ih]

@[simp] theorem deeds_until (time due : Nat) : deeds (Step.until time due) = [] := by
  unfold Step.until
  split <;> rfl

end Step

def Course.deeds : Course → List Deed
  | .done _ => []
  | .crashed _ => []
  | .act deed next => deed :: next.deeds
  | .pause _ next => next.deeds
  | .turn next => next.deeds

@[simp] theorem Course.deeds_turnIf (something : Bool) (next : Course) :
    (turnIf something next).deeds = next.deeds := by
  cases something <;> rfl

namespace Limits

def Spare (l : Limits) (time : Nat) : Prop := time < l.deadline ∧ l.isCancelledBy time = false

def Cuts (l : Limits) (time : Nat) (failure : Failure) : Prop :=
  (failure = .cancelled ∧ l.isCancelledBy time = true) ∨
    (failure = .deadlineExceeded ∧ l.deadline ≤ time)

theorem isCancelledBy_mono {l : Limits} {early late : Nat} (le : early ≤ late)
    (h : l.isCancelledBy early = true) : l.isCancelledBy late = true := by
  unfold isCancelledBy at h ⊢
  cases at_ : l.cancelAt with
  | none => simp [at_] at h
  | some c =>
    simp only [at_, decide_eq_true_eq] at h ⊢
    omega

theorem not_isCancelledBy_of_le {l : Limits} {early late : Nat} (le : early ≤ late)
    (quiet : l.isCancelledBy late = false) : l.isCancelledBy early = false :=
  Bool.eq_false_iff.2 fun cancelled => Bool.eq_false_iff.1 quiet (isCancelledBy_mono le cancelled)

theorem Spare.earlier {l : Limits} {early late : Nat} (spare : l.Spare late) (le : early ≤ late) :
    l.Spare early :=
  ⟨Nat.lt_of_le_of_lt le spare.1, not_isCancelledBy_of_le le spare.2⟩

theorem Cuts.not_spare {l : Limits} {time : Nat} {failure : Failure} (cuts : l.Cuts time failure) :
    ¬ l.Spare time := by
  rintro ⟨early, quiet⟩
  rcases cuts with ⟨-, cancelled⟩ | ⟨-, late⟩
  · rw [quiet] at cancelled
    cases cancelled
  · omega

theorem Cuts.not_isRetryable {l : Limits} {time : Nat} {failure : Failure}
    (cuts : l.Cuts time failure) : failure.isRetryable = false := by
  rcases cuts with ⟨rfl, -⟩ | ⟨rfl, -⟩ <;> rfl

theorem cancelTime_le {l : Limits} {time due : Nat} (le : time ≤ due)
    (h : l.isCancelledBy due = true) : l.cancelTime time ≤ due := by
  unfold isCancelledBy at h
  unfold cancelTime
  cases at_ : l.cancelAt with
  | none => simp [at_] at h
  | some c =>
    simp only [at_, decide_eq_true_eq] at h
    simp only [Option.getD_some]
    omega

theorem cuts_cancelTime {l : Limits} {time by_ : Nat} (h : l.isCancelledBy by_ = true) :
    l.Cuts (l.cancelTime time) .cancelled := by
  refine .inl ⟨rfl, ?_⟩
  unfold isCancelledBy at h ⊢
  unfold cancelTime
  cases at_ : l.cancelAt with
  | none => simp [at_] at h
  | some c =>
    simp only [Option.getD_some, decide_eq_true_eq]
    omega

theorem cuts_stop (l : Limits) (time : Nat) : l.Cuts (l.stop time) .deadlineExceeded :=
  .inr ⟨rfl, Nat.le_max_right _ _⟩

structure Rested (l : Limits) (time delay : Nat) (s : Stretch (Except Failure Unit)) : Prop where
  deeds : Step.deeds s.steps = []
  later : time ≤ s.time
  within : s.time ≤ time + delay
  outcome : (s.result = .ok () ∧ s.time = time + delay) ∨
    ∃ failure, s.result = .error failure ∧ l.Cuts s.time failure

theorem rested (l : Limits) (time delay : Nat) : Rested l time delay (l.rest time delay) := by
  simp only [rest]
  split
  · next cancelled =>
    have by_ := isCancelledBy_mono (Nat.min_le_left _ _) cancelled
    exact ⟨by simp, Nat.le_max_left _ _, cancelTime_le (Nat.le_add_right _ _) by_,
      .inr ⟨_, rfl, cuts_cancelTime cancelled⟩⟩
  · split
    · next early =>
      have stops : l.stop time ≤ time + delay := Nat.max_le.2 ⟨Nat.le_add_right _ _, early⟩
      exact ⟨by simp, Nat.le_max_left _ _, stops, .inr ⟨_, rfl, cuts_stop l time⟩⟩
    · exact ⟨by simp, Nat.le_add_right _ _, Nat.le_refl _, .inl ⟨rfl, rfl⟩⟩

theorem Rested.time_eq {l : Limits} {time delay : Nat} {s : Stretch (Except Failure Unit)}
    (rested : Rested l time delay s) (whole : s.result = .ok ()) : s.time = time + delay := by
  rcases rested.outcome with ⟨-, at_⟩ | ⟨_, cut, -⟩
  · exact at_
  · rw [whole] at cut
    cases cut

theorem Rested.cuts {l : Limits} {time delay : Nat} {s : Stretch (Except Failure Unit)}
    {failure : Failure} (rested : Rested l time delay s) (cut : s.result = .error failure) :
    l.Cuts s.time failure := by
  rcases rested.outcome with ⟨whole, -⟩ | ⟨_, same, cuts⟩
  · rw [cut] at whole
    cases whole
  · rw [cut] at same
    cases same
    exact cuts

end Limits

namespace Course

/-- What playing a course comes to: its own result after its own time, or a limit that has come. -/
structure Played (l : Limits) (time : Nat) (course : Course) (s : Stretch Result) : Prop where
  deeds : Step.deeds s.steps <+: course.deeds
  later : time ≤ s.time
  within : s.time ≤ time + course.duration
  outcome : (s.result = course.result ∧ s.time = time + course.duration) ∨
    ∃ failure, s.result = .ok (.error failure) ∧ l.Cuts s.time failure

theorem played (l : Limits) (time : Nat) (course : Course) :
    Played l time course (course.play l time) := by
  induction course generalizing time with
  | done result => exact ⟨List.prefix_rfl, Nat.le_refl _, Nat.le_refl _, .inl ⟨rfl, rfl⟩⟩
  | crashed crash => exact ⟨List.prefix_rfl, Nat.le_refl _, Nat.le_refl _, .inl ⟨rfl, rfl⟩⟩
  | act deed next ih =>
    obtain ⟨deeds, later, within, outcome⟩ := ih time
    exact ⟨by simpa [play, Stretch.after, Course.deeds] using deeds, later, within, outcome⟩
  | pause ms next ih =>
    cases ms with
    | zero =>
      obtain ⟨deeds, later, within, outcome⟩ := ih time
      exact ⟨deeds, later, by simpa [play, duration] using within,
        by simpa [play, Course.result, duration] using outcome⟩
    | succ ms =>
      have lasts : (pause (ms + 1) next).duration = (ms + 1) + next.duration := rfl
      simp only [play]
      split
      · next cancelled =>
        have by_ := Limits.isCancelledBy_mono (Nat.min_le_left _ _) cancelled
        have ends := Limits.cancelTime_le (Nat.le_add_right time (ms + 1)) by_
        exact ⟨by simp, Nat.le_max_left _ _, by simp only; omega,
          .inr ⟨_, rfl, Limits.cuts_cancelTime cancelled⟩⟩
      · split
        · exact ⟨by simp, Nat.le_max_left _ _, by simp only; omega,
            .inr ⟨_, rfl, Limits.cuts_stop l time⟩⟩
        · obtain ⟨deeds, later, within, outcome⟩ := ih (time + (ms + 1))
          refine ⟨by simpa [Stretch.after, Course.deeds] using deeds, ?_, ?_, ?_⟩
          · simp only [Stretch.after]
            omega
          · simp only [Stretch.after]
            omega
          · refine outcome.imp_left fun own => ⟨own.1, ?_⟩
            have at_ := own.2
            simp only [Stretch.after] at at_ ⊢
            omega
  | turn next ih =>
    simp only [play]
    split
    · next late =>
      exact ⟨by simp, Nat.le_refl _, Nat.le_add_right _ _, .inr ⟨_, rfl, .inr ⟨rfl, late⟩⟩⟩
    · obtain ⟨deeds, later, within, outcome⟩ := ih time
      exact ⟨by simpa [Stretch.after, Course.deeds] using deeds, later, within, outcome⟩

def closing (index time : Nat) (s : Stretch Result) : List Deed :=
  match s.result with
  | .ok result => [.ended ⟨index, s.time - time, .of result⟩ result]
  | .error _ => []

/-- What an attempt comes to. An attempt that is cancelled by then has no deeds of its course. -/
structure Attempted (l : Limits) (index time : Nat) (course : Course) (s : Stretch Result) :
    Prop where
  deeds : ∃ own, (own = [] ∨ ∃ part, part <+: course.deeds ∧ own = .started :: part) ∧
    Step.deeds s.steps = .called :: own ++ closing index time s
  later : time ≤ s.time
  within : s.time ≤ time + course.duration
  outcome : (s.result = course.result ∧ s.time = time + course.duration) ∨
    ∃ failure, s.result = .ok (.error failure) ∧ l.Cuts s.time failure

theorem attempt_of_cancelled {l : Limits} {time : Nat} (cancelled : l.isCancelledBy time = true)
    (index : Nat) (course : Course) : course.attempt l index time =
      ⟨[.act .called, .act (.ended ⟨index, 0, .of (.error .cancelled)⟩ (.error .cancelled))],
        time, .ok (.error .cancelled)⟩ := by
  simp [attempt, cancelled]

theorem attempt_of_quiet {l : Limits} {time : Nat} (quiet : l.isCancelledBy time = false)
    (index : Nat) (course : Course) : course.attempt l index time =
      ⟨.act .called :: .act .started :: ((course.play l time).steps ++
        (closing index time (course.play l time)).map .act),
        (course.play l time).time, (course.play l time).result⟩ := by
  simp only [attempt, quiet, Stretch.after, closing, Bool.false_eq_true, if_false]
  cases (course.play l time).result <;> simp

theorem attempted (l : Limits) (index time : Nat) (course : Course) :
    Attempted l index time course (course.attempt l index time) := by
  cases cancelled : l.isCancelledBy time with
  | true =>
    rw [attempt_of_cancelled cancelled]
    exact ⟨⟨[], .inl rfl, by simp [closing]⟩, Nat.le_refl _, Nat.le_add_right _ _,
      .inr ⟨_, rfl, .inl ⟨rfl, cancelled⟩⟩⟩
  | false =>
    obtain ⟨deeds, later, within, outcome⟩ := played l time course
    rw [attempt_of_quiet cancelled]
    refine ⟨⟨_, .inr ⟨_, deeds, rfl⟩, ?_⟩, later, within, outcome⟩
    simp [closing]

end Course

def Stretch.FailsWith (s : Stretch Result) (failure : Failure) : Prop :=
  s.result = .ok (.error failure) ∧ failure.isRetryable = true

theorem Stretch.retry_of_failsWith {tried : Stretch Result} {failure : Failure}
    (fails : tried.FailsWith failure) (again : Failure → Nat → Stretch Result) :
    tried.retry again = (again failure tried.time).after tried.steps := by
  simp [Stretch.retry, fails.1, fails.2]

theorem Stretch.retry_of_not_failsWith {tried : Stretch Result}
    (final : ∀ failure, ¬ tried.FailsWith failure) (again : Failure → Nat → Stretch Result) :
    tried.retry again = tried := by
  unfold Stretch.retry
  split
  · next failure ended =>
    have settled : failure.isRetryable = false := by
      cases h : failure.isRetryable with
      | false => rfl
      | true => exact absurd ⟨ended, h⟩ (final failure)
    simp [settled]
  · rfl

section

variable {l : Limits} {operation : Nat → Course} {delays : List Nat} {delay index time : Nat}

theorem attemptsFrom_of_final
    (final : ∀ failure, ¬ ((operation index).attempt l index time).FailsWith failure) :
    attemptsFrom l operation delays index time = (operation index).attempt l index time := by
  cases delays with
  | nil => exact Stretch.retry_of_not_failsWith final _
  | cons delay delays => exact Stretch.retry_of_not_failsWith final _

theorem attemptsFrom_nil (l : Limits) (operation : Nat → Course) (index time : Nat) :
    attemptsFrom l operation [] index time = (operation index).attempt l index time := by
  by_cases fails : ∃ failure, ((operation index).attempt l index time).FailsWith failure
  · obtain ⟨failure, fails⟩ := fails
    rw [attemptsFrom, Stretch.retry_of_failsWith fails, ← fails.1]
    simp [Stretch.after]
  · exact attemptsFrom_of_final (not_exists.1 fails)

theorem attemptsFrom_of_cut {failure other : Failure}
    (fails : ((operation index).attempt l index time).FailsWith failure)
    (cut : (l.rest ((operation index).attempt l index time).time delay).result = .error other) :
    attemptsFrom l operation (delay :: delays) index time =
      ⟨((operation index).attempt l index time).steps ++
          (l.rest ((operation index).attempt l index time).time delay).steps,
        (l.rest ((operation index).attempt l index time).time delay).time, .ok (.error other)⟩ := by
  rw [attemptsFrom, Stretch.retry_of_failsWith fails]
  simp only [cut, Stretch.after]

theorem attemptsFrom_of_rested {failure : Failure}
    (fails : ((operation index).attempt l index time).FailsWith failure)
    (whole : (l.rest ((operation index).attempt l index time).time delay).result = .ok ()) :
    attemptsFrom l operation (delay :: delays) index time =
      (attemptsFrom l operation delays (index + 1)
        (l.rest ((operation index).attempt l index time).time delay).time).after
        (((operation index).attempt l index time).steps ++
          (l.rest ((operation index).attempt l index time).time delay).steps) := by
  rw [attemptsFrom, Stretch.retry_of_failsWith fails]
  simp only [whole, Stretch.after, List.append_assoc]

end

/-- A run ends with an attempt that no other one may mend, with its last attempt, or in a rest; else a
rest leads to the same run from the next attempt on. -/
theorem attemptsFrom_induction {l : Limits} {operation : Nat → Course}
    {P : List Nat → Nat → Nat → Stretch Result → Prop}
    (final : ∀ delays index time tried, tried = (operation index).attempt l index time →
      (∀ failure, ¬ tried.FailsWith failure) → P delays index time tried)
    (exhausted : ∀ index time tried failure, tried = (operation index).attempt l index time →
      tried.FailsWith failure → P [] index time tried)
    (cut : ∀ delay delays index time tried failure rested other,
      tried = (operation index).attempt l index time → tried.FailsWith failure →
      rested = l.rest tried.time delay → rested.result = .error other →
      P (delay :: delays) index time
        ⟨tried.steps ++ rested.steps, rested.time, .ok (.error other)⟩)
    (again : ∀ delay delays index time tried failure rested,
      tried = (operation index).attempt l index time → tried.FailsWith failure →
      rested = l.rest tried.time delay → rested.result = .ok () →
      P delays (index + 1) rested.time (attemptsFrom l operation delays (index + 1) rested.time) →
      P (delay :: delays) index time
        ((attemptsFrom l operation delays (index + 1) rested.time).after
          (tried.steps ++ rested.steps)))
    (delays : List Nat) (index time : Nat) :
    P delays index time (attemptsFrom l operation delays index time) := by
  induction delays generalizing index time with
  | nil =>
    rw [attemptsFrom_nil]
    by_cases fails : ∃ failure, ((operation index).attempt l index time).FailsWith failure
    · obtain ⟨failure, fails⟩ := fails
      exact exhausted index time _ failure rfl fails
    · exact final [] index time _ rfl (not_exists.1 fails)
  | cons delay delays ih =>
    by_cases fails : ∃ failure, ((operation index).attempt l index time).FailsWith failure
    · obtain ⟨failure, fails⟩ := fails
      cases rested : (l.rest ((operation index).attempt l index time).time delay).result with
      | error other =>
        rw [attemptsFrom_of_cut fails rested]
        exact cut delay delays index time _ failure _ other rfl fails rfl rested
      | ok _ =>
        rw [attemptsFrom_of_rested fails rested]
        exact again delay delays index time _ failure _ rfl fails rfl rested (ih _ _)
    · rw [attemptsFrom_of_final (not_exists.1 fails)]
      exact final (delay :: delays) index time _ rfl (not_exists.1 fails)

theorem sent_of_attemptsFrom {l : Limits} {operation : Nat → Course} {delays : List Nat}
    {index time : Nat} {request : Http.Request}
    (mem : .sent request ∈ Step.deeds (attemptsFrom l operation delays index time).steps) :
    ∃ i, .sent request ∈ (operation i).deeds := by
  have once (index time : Nat)
      (mem : .sent request ∈ Step.deeds ((operation index).attempt l index time).steps) :
      ∃ i, .sent request ∈ (operation i).deeds := by
    obtain ⟨own, part, deeds⟩ := (Course.attempted l index time (operation index)).deeds
    have open_ : Deed.sent request ∉
        Course.closing index time ((operation index).attempt l index time) := by
      unfold Course.closing
      split <;> simp
    rw [deeds] at mem
    have mem : Deed.sent request ∈ own := by simpa [open_] using mem
    rcases part with rfl | ⟨part, front, rfl⟩
    · cases mem
    · exact ⟨index, front.subset (by simpa using mem)⟩
  revert mem
  refine attemptsFrom_induction (P := fun _ _ _ s =>
    Deed.sent request ∈ Step.deeds s.steps → ∃ i, .sent request ∈ (operation i).deeds)
    ?_ ?_ ?_ ?_ delays index time
  · rintro _ index time _ rfl - mem
    exact once index time mem
  · rintro index time _ _ rfl - mem
    exact once index time mem
  · rintro delay _ index time _ _ _ _ rfl - rfl - mem
    simp only [Step.deeds_append, (l.rested _ delay).deeds, List.append_nil] at mem
    exact once index time mem
  · rintro delay _ index time _ _ _ rfl - rfl - ih mem
    simp only [Stretch.after, Step.deeds_append, (l.rested _ delay).deeds, List.append_nil,
      List.mem_append] at mem
    rcases mem with mem | mem
    · exact once index time mem
    · exact ih mem

end Herald
