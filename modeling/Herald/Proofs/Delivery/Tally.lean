import Herald.Proofs.Delivery.Run

/-! The attempts that a run reports, against the results that its operations come to by themselves. All
but the last are retryable failures of their operations; the last one tells why there is no further one. -/
namespace Herald

def Deed.isOwn : Deed → Bool
  | .asked _ => true
  | .answered => true
  | .sent _ => true
  | _ => false

def Deed.isCall : Deed → Bool
  | .called => true
  | _ => false

def Deed.attempt? : Deed → Option Attempt
  | .ended attempt _ => some attempt
  | _ => none

def Deed.result? : Deed → Option (Except Failure Unit)
  | .ended _ result => some result
  | _ => none

/-- Another attempt may mend this result. -/
def Retryable (result : Except Failure Unit) : Prop :=
  ∃ failure, result = .error failure ∧ failure.isRetryable = true

/-- The course of an operation that comes to a result by itself. -/
structure Course.IsOperation (course : Course) (result : Except Failure Unit) : Prop where
  own : ∀ deed ∈ course.deeds, deed.isOwn = true
  ends : course.result = .ok result

theorem Http.Talk.isOwn_of_mem_course {world : Http.World} {talk : Http.Talk}
    {sent : List Http.Request} : ∀ deed ∈ (talk.course world sent).deeds, deed.isOwn = true := by
  induction talk generalizing sent with
  | done => simp [course, Course.deeds]
  | crashed => simp [course, Course.deeds]
  | pause _ _ ih => simpa [course, Course.deeds] using ih
  | check u _ ih =>
    intro deed mem
    simp only [course, Course.deeds, List.mem_cons] at mem
    rcases mem with rfl | rfl | mem
    · rfl
    · rfl
    · exact ih _ deed mem
  | connect request _ ih => simpa only [course, Course.deeds_turnIf] using ih _
  | send request _ ih =>
    intro deed mem
    simp only [course, Course.deeds, Course.deeds_turnIf, List.mem_cons] at mem
    rcases mem with rfl | mem
    · rfl
    · exact ih _ deed mem

theorem Http.Talk.isOperation_course {world : Http.World} {talk : Http.Talk}
    {sent : List Http.Request} {result : Except Failure Unit}
    (h : (talk.converse world sent).result = .ok result) :
    (talk.course world sent).IsOperation result :=
  ⟨isOwn_of_mem_course, by rw [result_course, h]⟩

theorem Step.attempts_eq_deeds (steps : List Step) :
    attempts steps = (deeds steps).filterMap Deed.attempt? := by
  induction steps with
  | nil => rfl
  | cons step rest ih =>
    cases step with
    | wait ms => exact ih
    | act deed =>
      rw [deeds_act, List.filterMap_cons, ← ih]
      cases deed <;> rfl

theorem Course.IsOperation.attempts_eq_nil {course : Course} {result : Except Failure Unit}
    (op : course.IsOperation result) {part : List Deed} (front : part <+: course.deeds) :
    part.filterMap Deed.attempt? = [] := by
  refine List.filterMap_eq_nil_iff.2 fun deed mem => ?_
  have own := op.own deed (front.subset mem)
  cases deed <;> first | rfl | cases own

theorem Course.IsOperation.attempts_attempt {course : Course} {own : Except Failure Unit}
    (op : course.IsOperation own) (l : Limits) (index time : Nat) {result : Except Failure Unit}
    (ended : (course.attempt l index time).result = .ok result) :
    Step.attempts (course.attempt l index time).steps =
      [⟨index, (course.attempt l index time).time - time, .of result⟩] := by
  obtain ⟨part, shape, deeds⟩ := (attempted l index time course).deeds
  have silent : part.filterMap Deed.attempt? = [] := by
    rcases shape with rfl | ⟨rest, front, rfl⟩
    · rfl
    · rw [List.filterMap_cons]
      exact op.attempts_eq_nil front
  rw [Step.attempts_eq_deeds, deeds]
  simp [List.filterMap_cons, silent, closing, ended, Deed.attempt?]

theorem Course.deeds_attempt {course : Course} (own : ∀ deed ∈ course.deeds, deed.isOwn = true)
    (l : Limits) (index time : Nat) :
    ∃ inner, (∀ deed ∈ inner, deed = .started ∨ deed.isOwn = true) ∧
      Step.deeds (course.attempt l index time).steps =
        .called :: inner ++ closing index time (course.attempt l index time) := by
  obtain ⟨inner, shape, deeds⟩ := (attempted l index time course).deeds
  refine ⟨inner, fun deed mem => ?_, deeds⟩
  rcases shape with rfl | ⟨part, front, rfl⟩
  · cases mem
  · exact (List.mem_cons.1 mem).imp_right fun mem => own deed (front.subset mem)

structure Attempt.FailsWith (operation : Nat → Course) (results : Nat → Except Failure Unit)
    (a : Attempt) (failure : Failure) : Prop where
  result : results a.index = .error failure
  retryable : failure.isRetryable = true
  outcome : a.outcome = .transientFailure failure.message
  elapsed : a.elapsed = (operation a.index).duration

inductive Closes (l : Limits) (operation : Nat → Course) (results : Nat → Except Failure Unit)
    (most time : Nat) (last : Attempt) : Except Failure Unit → Prop
  | success : results last.index = .ok () → last.outcome = .success →
      last.elapsed = (operation last.index).duration →
      Closes l operation results most time last (.ok ())
  | permanent {failure : Failure} : failure.isRetryable = false →
      last.outcome = .permanentFailure failure.message →
      (results last.index = .error failure ∨ l.Cuts time failure) →
      Closes l operation results most time last (.error failure)
  | exhausted {failure : Failure} : last.index = most →
      last.FailsWith operation results failure →
      Closes l operation results most time last (.error failure)
  | cut {failure other : Failure} : last.index < most →
      last.FailsWith operation results failure → l.Cuts time other →
      Closes l operation results most time last (.error other)

/-- The attempts from a number up to at most another agree with the operations and with the result. -/
structure Tally (l : Limits) (operation : Nat → Course) (results : Nat → Except Failure Unit)
    (first most time : Nat) (attempts : List Attempt) (result : Except Failure Unit) : Prop where
  counted : attempts.map Attempt.index = List.range' first attempts.length
  within : first + attempts.length ≤ most + 1
  closed : ∃ retried last, attempts = retried ++ [last] ∧
    (∀ a ∈ retried, ∃ failure, a.FailsWith operation results failure) ∧
    Closes l operation results most time last result

section

variable {l : Limits} {operation : Nat → Course} {results : Nat → Except Failure Unit}
  {most time : Nat} {result : Except Failure Unit}

theorem Tally.single {last : Attempt} {first : Nat} (number : last.index = first)
    (le : first ≤ most) (closes : Closes l operation results most time last result) :
    Tally l operation results first most time [last] result :=
  ⟨by simp [number], by simpa using le, [], last, rfl, by simp, closes⟩

theorem Tally.cons {a : Attempt} {failure : Failure} {attempts : List Attempt}
    (fails : a.FailsWith operation results failure)
    (rest : Tally l operation results (a.index + 1) most time attempts result) :
    Tally l operation results a.index most time (a :: attempts) result := by
  obtain ⟨counted, within, retried, last, split, transient, closes⟩ := rest
  refine ⟨?_, ?_, a :: retried, last, ?_, ?_, closes⟩
  · rw [List.map_cons, counted, List.length_cons, List.range'_succ]
  · simp only [List.length_cons]
    omega
  · rw [split, List.cons_append]
  · intro b mem
    rcases List.mem_cons.1 mem with rfl | mem
    · exact ⟨failure, fails⟩
    · exact transient b mem

theorem Tally.not_rejected {first : Nat} {attempts : List Attempt}
    (tally : Tally l operation results first most time attempts result) :
    ∀ a ∈ attempts, a.outcome ≠ .circuitRejected := by
  obtain ⟨-, -, retried, last, rfl, transient, closes⟩ := tally
  intro a mem
  rcases List.mem_append.1 mem with mem | mem
  · obtain ⟨failure, fails⟩ := transient a mem
    simp [fails.outcome]
  · obtain rfl := List.mem_singleton.1 mem
    cases closes with
    | success _ outcome => simp [outcome]
    | permanent _ outcome => simp [outcome]
    | exhausted _ fails => simp [fails.outcome]
    | cut _ fails => simp [fails.outcome]

variable (scripted : ∀ i, (operation i).IsOperation (results i))
include scripted

theorem reported_of_attempt (l : Limits) (index time : Nat) (tried : Stretch Result)
    (made : tried = (operation index).attempt l index time) :
    ∃ result, tried.result = .ok result ∧
      Step.attempts tried.steps = [⟨index, tried.time - time, .of result⟩] ∧
      ((result = results index ∧ tried.time = time + (operation index).duration) ∨
        ∃ failure, result = .error failure ∧ l.Cuts tried.time failure) := by
  subst made
  have attempted := Course.attempted l index time (operation index)
  rcases attempted.outcome with ⟨own, at_⟩ | ⟨failure, ended, cuts⟩
  · rw [(scripted index).ends] at own
    exact ⟨_, own, (scripted index).attempts_attempt l index time own, .inl ⟨rfl, at_⟩⟩
  · exact ⟨_, ended, (scripted index).attempts_attempt l index time ended,
      .inr ⟨failure, rfl, cuts⟩⟩

theorem failsWith_of_attempt {l : Limits} {index time : Nat} {tried : Stretch Result}
    {failure : Failure} (made : tried = (operation index).attempt l index time)
    (fails : tried.FailsWith failure) :
    ∃ a : Attempt, a.index = index ∧ Step.attempts tried.steps = [a] ∧
      a.FailsWith operation results failure := by
  obtain ⟨result, ended, attempts, origin⟩ := reported_of_attempt scripted l index time tried made
  obtain rfl : result = .error failure := by
    have := ended.symm.trans fails.1
    simpa using this
  rcases origin with ⟨own, at_⟩ | ⟨other, same, cuts⟩
  · refine ⟨_, rfl, attempts, own.symm, fails.2, by simp [Outcome.of, fails.2], ?_⟩
    simp only
    omega
  · obtain rfl : failure = other := by simpa using same
    have retryable := fails.2
    rw [cuts.not_isRetryable] at retryable
    cases retryable

/-- A run reports what its operations came to, as far as the limits let them. -/
theorem tally_of_attemptsFrom (l : Limits) (delays : List Nat) (index time : Nat) :
    ∃ result, (attemptsFrom l operation delays index time).result = .ok result ∧
      Tally l operation results index (index + delays.length)
        (attemptsFrom l operation delays index time).time
        (Step.attempts (attemptsFrom l operation delays index time).steps) result := by
  refine attemptsFrom_induction (P := fun delays index _ s => ∃ result, s.result = .ok result ∧
    Tally l operation results index (index + delays.length) s.time (Step.attempts s.steps)
      result) ?_ ?_ ?_ ?_ delays index time
  · intro delays index time tried made settled
    obtain ⟨result, ended, attempts, origin⟩ := reported_of_attempt scripted l index time tried made
    refine ⟨result, ended, ?_⟩
    rw [attempts]
    refine .single rfl (Nat.le_add_right _ _) ?_
    cases result with
    | ok =>
      rcases origin with ⟨own, at_⟩ | ⟨_, other, -⟩
      · exact .success own.symm rfl (by simp only; omega)
      · cases other
    | error failure =>
      have final : failure.isRetryable = false := by
        cases h : failure.isRetryable with
        | false => rfl
        | true => exact absurd ⟨ended, h⟩ (settled failure)
      refine .permanent final (by simp [Outcome.of, final]) ?_
      rcases origin with ⟨own, -⟩ | ⟨other, same, cuts⟩
      · exact .inl own.symm
      · obtain rfl : failure = other := by simpa using same
        exact .inr cuts
  · intro index time tried failure made fails
    obtain ⟨a, rfl, attempts, own⟩ := failsWith_of_attempt scripted made fails
    refine ⟨_, fails.1, ?_⟩
    rw [attempts]
    exact .single rfl (Nat.le_refl _) (.exhausted rfl own)
  · intro delay delays index time tried failure rested other made fails rest ended
    obtain ⟨a, rfl, attempts, own⟩ := failsWith_of_attempt scripted made fails
    have still := rest ▸ l.rested tried.time delay
    refine ⟨_, rfl, ?_⟩
    rw [Step.attempts_append, attempts, Step.attempts_eq_deeds rested.steps, still.deeds]
    refine .single rfl (Nat.le_add_right _ _) (.cut ?_ own (still.cuts ended))
    simp only [List.length_cons]
    omega
  · intro delay delays index time tried failure rested made fails rest whole ih
    obtain ⟨a, rfl, attempts, own⟩ := failsWith_of_attempt scripted made fails
    have still := rest ▸ l.rested tried.time delay
    obtain ⟨result, ended, tally⟩ := ih
    refine ⟨result, ended, ?_⟩
    simp only [Stretch.after]
    rw [Step.attempts_append, Step.attempts_append, attempts, Step.attempts_eq_deeds rested.steps,
      still.deeds]
    have count : a.index + (delay :: delays).length = a.index + 1 + delays.length := by
      simp only [List.length_cons]
      omega
    rw [count]
    exact .cons own tally

end

end Herald
