import Herald.Proofs.Delivery.Tally

/-! The deeds of a run, attempt by attempt. An attempt does all deeds of its course and ends with the result of
its course, or a limit cuts it. The attempts of a run are numbered one by one, all but the last fail in a way
that another one may mend, and an attempt that ends otherwise is the last thing in its run. -/
namespace Herald

def Failure.IsCut (failure : Failure) : Prop := failure = .cancelled ∨ failure = .deadlineExceeded

def CutShort (result : Except Failure Unit) : Prop := ∃ failure, result = .error failure ∧ failure.IsCut

theorem Failure.IsCut.not_isRetryable {failure : Failure} (cut : failure.IsCut) :
    failure.isRetryable = false := by
  rcases cut with rfl | rfl <;> rfl

namespace Course

inductive Goes (course : Course) (part : List Deed) (result : Result) : Prop
  | whole : part = course.deeds → result = course.result → Goes course part result
  | cut {failure : Failure} : part <+: course.deeds → failure.IsCut →
    result = .ok (.error failure) → Goes course part result

theorem Goes.front {course : Course} {part : List Deed} {result : Result}
    (goes : course.Goes part result) : part <+: course.deeds := by
  cases goes with
  | whole all => exact all ▸ List.prefix_rfl
  | cut front => exact front

theorem Goes.act {next : Course} {part : List Deed} {result : Result} (deed : Deed)
    (goes : next.Goes part result) : (Course.act deed next).Goes (deed :: part) result := by
  cases goes with
  | whole all own => exact .whole (congrArg _ all) own
  | cut front cut ends => exact .cut (List.cons_prefix_cons.2 ⟨rfl, front⟩) cut ends

theorem Goes.congr {course other : Course} {part : List Deed} {result : Result}
    (goes : course.Goes part result) (deeds : other.deeds = course.deeds)
    (ends : other.result = course.result) : other.Goes part result := by
  cases goes with
  | whole all own => exact .whole (all.trans deeds.symm) (own.trans ends.symm)
  | cut front cut failed => exact .cut (deeds ▸ front) cut failed

theorem goes_play (course : Course) (l : Limits) (time : Nat) :
    course.Goes (Step.deeds (course.play l time).steps) (course.play l time).result := by
  have stopped {course : Course} {time due : Nat} {failure : Failure} (cut : failure.IsCut) :
      course.Goes (Step.deeds (Step.until time due)) (.ok (.error failure)) := by
    rw [Step.deeds_until]
    exact .cut List.nil_prefix cut rfl
  induction course generalizing time with
  | done result => exact .whole rfl rfl
  | crashed crash => exact .whole rfl rfl
  | act deed next ih => exact (ih time).act deed
  | pause ms next ih =>
    cases ms with
    | zero => exact (ih time).congr rfl rfl
    | succ ms =>
      simp only [play]
      split
      · exact stopped (.inl rfl)
      · split
        · exact stopped (.inr rfl)
        · exact (ih _).congr rfl rfl
  | turn next ih =>
    simp only [play]
    split
    · exact .cut List.nil_prefix (.inr rfl) rfl
    · exact (ih time).congr rfl rfl

inductive Attempts (course : Course) (index : Nat) (deeds : List Deed) (result : Result) : Prop
  | skipped (elapsed : Nat) : result = .ok (.error .cancelled) →
    deeds = [.called, .ended ⟨index, elapsed, .of (.error .cancelled)⟩ (.error .cancelled)] →
    Attempts course index deeds result
  | made {part : List Deed} {own : Except Failure Unit} (elapsed : Nat) :
    course.Goes part (.ok own) → result = .ok own →
    deeds = .called :: .started :: part ++ [.ended ⟨index, elapsed, .of own⟩ own] →
    Attempts course index deeds result
  | crashed {part : List Deed} {crash : Crash} : course.Goes part (.error crash) →
    result = .error crash → deeds = .called :: .started :: part → Attempts course index deeds result

theorem attempts_attempt (course : Course) (l : Limits) (index time : Nat) :
    course.Attempts index (Step.deeds (course.attempt l index time).steps)
      (course.attempt l index time).result := by
  by_cases cancelled : l.isCancelledBy time = true
  · exact .skipped 0 (by simp [attempt, cancelled]) (by simp [attempt, cancelled])
  · have goes := goes_play course l time
    cases ends : (course.play l time).result with
    | ok own =>
      rw [ends] at goes
      exact .made ((course.play l time).time - time) goes (by simp [attempt, cancelled, Stretch.after, ends])
        (by simp [attempt, cancelled, Stretch.after, ends])
    | error crash =>
      rw [ends] at goes
      exact .crashed goes (by simp [attempt, cancelled, Stretch.after, ends])
        (by simp [attempt, cancelled, Stretch.after, ends])

theorem Attempts.ends {course : Course} {index : Nat} {deeds : List Deed} {result : Result}
    (attempts : course.Attempts index deeds result)
    (own : ∀ deed ∈ course.deeds, deed.isOwn = true) :
    ∃ inner, (∀ deed ∈ inner, deed.attempt? = none) ∧
      ((deeds = inner ∧ ∃ crash, result = .error crash) ∨
        ∃ a r, deeds = inner ++ [.ended a r] ∧ result = .ok r ∧ a.index = index ∧
          a.outcome = .of r ∧
          (course.result = .ok r ∨ CutShort r)) := by
  have silent {part : List Deed} {result : Result} (goes : course.Goes part result) :
      ∀ deed ∈ .called :: .started :: part, deed.attempt? = none := by
    intro deed mem
    simp only [List.mem_cons] at mem
    rcases mem with rfl | rfl | mem
    · rfl
    · rfl
    · have is := own deed (goes.front.subset mem)
      cases deed <;> first | rfl | cases is
  cases attempts with
  | skipped elapsed ended all =>
    exact ⟨[.called], by simp [Deed.attempt?], .inr ⟨_, _, all, ended, rfl, rfl,
      .inr ⟨_, rfl, .inl rfl⟩⟩⟩
  | made elapsed goes ended all =>
    refine ⟨_, silent goes, .inr ⟨_, _, all, ended, rfl, rfl, ?_⟩⟩
    cases goes with
    | whole _ same => exact .inl same.symm
    | cut _ cut failed => exact .inr ⟨_, Except.ok.inj failed, cut⟩
  | crashed goes ended all => exact ⟨_, silent goes, .inl ⟨all, _, ended⟩⟩

end Course

/-- A run is a last attempt, or an attempt that fails in a way that another one may mend and a run from the
next number on. The last attempt gives its result, or a limit cuts the rest after it. -/
theorem run_induction {l : Limits} {operation : Nat → Course}
    {P : Nat → Nat → List Deed → Result → Prop}
    (last : ∀ left index deeds ended result, (operation index).Attempts index deeds ended →
      (result = ended ∨ ∃ failure other, ended = .ok (.error failure) ∧ failure.isRetryable = true ∧
        result = .ok (.error other)) → P left index deeds result)
    (again : ∀ left index deeds failure more result,
      (operation index).Attempts index deeds (.ok (.error failure)) → failure.isRetryable = true →
      P left (index + 1) more result → P (left + 1) index (deeds ++ more) result)
    (delays : List Nat) (index time : Nat) :
    P delays.length index (Step.deeds (attemptsFrom l operation delays index time).steps)
      (attemptsFrom l operation delays index time).result := by
  refine attemptsFrom_induction (P := fun delays index _ s =>
    P delays.length index (Step.deeds s.steps) s.result) ?_ ?_ ?_ ?_ delays index time
  · rintro delays index time _ rfl -
    exact last _ _ _ _ _ ((operation index).attempts_attempt l index time) (.inl rfl)
  · rintro index time _ failure rfl -
    exact last _ _ _ _ _ ((operation index).attempts_attempt l index time) (.inl rfl)
  · rintro delay delays index time _ failure _ other rfl fails rfl -
    rw [Step.deeds_append, (l.rested _ delay).deeds, List.append_nil]
    exact last _ _ _ _ _ ((operation index).attempts_attempt l index time)
      (.inr ⟨failure, other, fails.1, fails.2, rfl⟩)
  · rintro delay delays index time _ failure _ rfl fails rfl - ih
    have tried := (operation index).attempts_attempt l index time
    rw [fails.1] at tried
    simp only [Stretch.after, Step.deeds_append, (l.rested _ delay).deeds, List.append_nil]
    exact again _ _ _ _ _ _ tried fails.2 ih

/-- The ends of the attempts in the deeds of a run that ends with a result. They are numbered one by one, each
tells what its operation comes to unless a limit cut it, and one that no other attempt may mend is the last
deed of the run. -/
structure Orderly (operation : Nat → Course) (index : Nat) (deeds : List Deed) (result : Result) :
    Prop where
  numbered : (deeds.filterMap Deed.attempt?).map Attempt.index =
    List.range' index (deeds.filterMap Deed.attempt?).length
  told : ∀ a r, .ended a r ∈ deeds →
    a.outcome = .of r ∧ ((operation a.index).result = .ok r ∨ CutShort r)
  final : ∀ before a r after, deeds = before ++ .ended a r :: after → ¬ Retryable r →
    after = [] ∧ result = .ok r
  success : result = .ok (.ok ()) → ∃ a, .ended a (.ok ()) ∈ deeds

theorem attempts_of_silent {inner : List Deed} (silent : ∀ deed ∈ inner, deed.attempt? = none) :
    inner.filterMap Deed.attempt? = [] := List.filterMap_eq_nil_iff.2 silent

theorem ended_eq_of_concat {inner before after : List Deed} {a other : Attempt}
    {r result : Except Failure Unit} (silent : ∀ deed ∈ inner, deed.attempt? = none)
    (split : inner ++ [.ended a r] = before ++ .ended other result :: after) :
    other = a ∧ result = r ∧ after = [] := by
  rcases List.append_eq_append_iff.1 split with ⟨as, rfl, rest⟩ | ⟨bs, rfl, rest⟩
  · cases as with
    | nil =>
      simp only [List.nil_append, List.cons.injEq, Deed.ended.injEq] at rest
      exact ⟨rest.1.1.symm, rest.1.2.symm, rest.2.symm⟩
    | cons deed as => simp at rest
  · cases bs with
    | nil =>
      simp only [List.nil_append, List.cons.injEq, Deed.ended.injEq] at rest
      exact ⟨rest.1.1, rest.1.2, rest.2⟩
    | cons deed bs =>
      simp only [List.cons_append, List.cons.injEq] at rest
      have none_ := silent deed (by simp)
      rw [← rest.1] at none_
      cases none_

theorem eq_of_ended_mem {inner : List Deed} {a other : Attempt} {r result : Except Failure Unit}
    (silent : ∀ deed ∈ inner, deed.attempt? = none) (mem : .ended other result ∈ inner ++ [.ended a r]) :
    other = a ∧ result = r := by
  obtain ⟨before, after, split⟩ := List.append_of_mem mem
  exact ⟨(ended_eq_of_concat silent split).1, (ended_eq_of_concat silent split).2.1⟩

section

variable {operation : Nat → Course} {index : Nat} {deeds more : List Deed} {result : Result}

theorem orderly_of_crashed {inner : List Deed} {crash : Crash}
    (silent : ∀ deed ∈ inner, deed.attempt? = none) :
    Orderly operation index inner (.error crash) := by
  have open_ {a : Attempt} {r : Except Failure Unit} : Deed.ended a r ∉ inner := fun mem => by
    cases silent _ mem
  exact ⟨by simp [attempts_of_silent silent], fun a r mem => absurd mem open_,
    fun before a r after split _ => absurd (by simp [split]) (@open_ a r), fun success => by cases success⟩

theorem orderly_of_last {inner : List Deed} {a : Attempt} {r : Except Failure Unit}
    (silent : ∀ deed ∈ inner, deed.attempt? = none) (number : a.index = index)
    (outcome : a.outcome = .of r)
    (honest : (operation a.index).result = .ok r ∨ CutShort r)
    (origin : result = .ok r ∨ Retryable r ∧ ∃ other, result = .ok (.error other)) :
    Orderly operation index (inner ++ [.ended a r]) result := by
  refine ⟨?_, fun other own mem => ?_, fun before other own after split final => ?_, fun success => ?_⟩
  · simp [attempts_of_silent silent, Deed.attempt?, number]
  · obtain ⟨rfl, rfl⟩ := eq_of_ended_mem silent mem
    exact ⟨outcome, honest⟩
  · obtain ⟨rfl, rfl, rfl⟩ := ended_eq_of_concat silent split
    exact ⟨rfl, origin.resolve_right fun again => final again.1⟩
  · rcases origin with ended | ⟨-, other, failed⟩
    · obtain rfl : r = .ok () := by simpa [success] using ended.symm
      exact ⟨a, by simp⟩
    · simp [success] at failed

theorem Orderly.cons {inner : List Deed} {a : Attempt} {r : Except Failure Unit}
    (rest : Orderly operation (index + 1) more result)
    (silent : ∀ deed ∈ inner, deed.attempt? = none) (number : a.index = index)
    (outcome : a.outcome = .of r)
    (honest : (operation a.index).result = .ok r ∨ CutShort r)
    (retry : Retryable r) : Orderly operation index ((inner ++ [.ended a r]) ++ more) result := by
  refine ⟨?_, fun other own mem => ?_, fun before other own after split final => ?_, fun success => ?_⟩
  · simp only [List.filterMap_append, attempts_of_silent silent, List.nil_append]
    simp [Deed.attempt?, number, rest.numbered, List.range'_succ]
  · rcases List.mem_append.1 mem with mem | mem
    · obtain ⟨rfl, rfl⟩ := eq_of_ended_mem silent mem
      exact ⟨outcome, honest⟩
    · exact rest.told other own mem
  · rcases List.append_eq_append_iff.1 split with ⟨as, rfl, later⟩ | ⟨bs, within, later⟩
    · exact rest.final as other own after later final
    · cases bs with
      | nil => exact rest.final [] other own after later.symm final
      | cons deed bs =>
        simp only [List.cons_append, List.cons.injEq] at later
        obtain ⟨rfl, -⟩ := later
        obtain ⟨-, rfl, -⟩ := ended_eq_of_concat silent within
        exact absurd retry final
  · obtain ⟨b, mem⟩ := rest.success success
    exact ⟨b, List.mem_append_right _ mem⟩

end

theorem orderly_of_attemptsFrom {operation : Nat → Course}
    (own : ∀ i, ∀ deed ∈ (operation i).deeds, deed.isOwn = true) (l : Limits) (delays : List Nat)
    (index time : Nat) :
    Orderly operation index (Step.deeds (attemptsFrom l operation delays index time).steps)
      (attemptsFrom l operation delays index time).result := by
  refine run_induction (P := fun _ index deeds result => Orderly operation index deeds result)
    ?_ ?_ delays index time
  · intro left index deeds ended result attempts origin
    obtain ⟨inner, silent, ⟨rfl, crash, rfl⟩ | ⟨a, r, rfl, rfl, rfl, outcome, honest⟩⟩ :=
      attempts.ends (own index)
    · obtain rfl : result = .error crash := origin.resolve_right fun ⟨_, _, other, _⟩ => by cases other
      exact orderly_of_crashed silent
    · refine orderly_of_last silent rfl outcome honest (origin.imp_right ?_)
      rintro ⟨failure, other, failed, retryable, cut⟩
      exact ⟨⟨failure, Except.ok.inj failed, retryable⟩, other, cut⟩
  · intro left index deeds failure more result attempts retryable rest
    obtain ⟨inner, silent, ⟨-, crash, crashed⟩ | ⟨a, r, rfl, failed, rfl, outcome, honest⟩⟩ :=
      attempts.ends (own index)
    · cases crashed
    · exact rest.cons silent rfl outcome honest ⟨failure, (Except.ok.inj failed).symm, retryable⟩

end Herald
