import Herald.Proofs.Channel.Chains
import Herald.Proofs.Delivery.Attempts
import Herald.Proofs.Delivery.Scene

/-! The chains of a run. Each attempt sends chains of its own in its own scene, and the next one sends some only
if none of those before has succeeded. All this holds of a run at any point of it. -/
namespace Herald

open Herald.Http

def Deed.EndOwn (deeds : List Deed) : Prop :=
  ∃ a r, deeds.getLast? = some (.ended a r) ∧ ¬ CutShort r

/-- The chains in the deeds of a run from an attempt on, attempt by attempt. Only the last attempt may lack an
answer, as long as it has not ended, or if it was cut. -/
structure Conduct (client : Client) (scenes : Nat → Scene) (accepts : Response → Bool)
    (methods : List Method) (most index : Nat) (deeds : List Deed) (calls : List (List Chain)) :
    Prop where
  requests : Deed.requests deeds = calls.flatten.flatMap Chain.requests
  within : calls.length ≤ most
  inTurn : ∀ i call, calls[i]? = some call → Chain.InTurn client (scenes (index + i)).world [] call
  methods : ∀ call ∈ calls, (call.map (·.first.method)).Sublist methods
  earlier : ∀ c ∈ calls.dropLast.flatten, c.answer.isSome
  answered : Deed.EndOwn deeds → ∀ c ∈ calls.flatten, c.answer.isSome
  stops : Chain.StopAtSuccess accepts calls.flatten
  success : (∃ c ∈ calls.flatten, c.Succeeds accepts) ↔ ∃ a, .ended a (.ok ()) ∈ deeds

structure Sends (client : Client) (world : World) (accepts : Response → Bool) (methods : List Method)
    (deeds : List Deed) (chains : List Chain) : Prop where
  requests : Deed.requests deeds = chains.flatMap Chain.requests
  inTurn : Chain.InTurn client world [] chains
  answered : Deed.EndOwn deeds → ∀ c ∈ chains, c.answer.isSome
  serves : Dialogue.Serves accepts methods chains (∃ a, .ended a (.ok ()) ∈ deeds)

section

variable {client : Client} {scenes : Nat → Scene} {accepts : Response → Bool} {methods : List Method}
  {most index : Nat} {deeds more : List Deed} {chains : List Chain} {calls : List (List Chain)}

theorem Sends.conduct (sends : Sends client (scenes index).world accepts methods deeds chains) :
    Conduct client scenes accepts methods (most + 1) index deeds [chains] := by
  have only : [chains].flatten = chains := by simp
  refine ⟨by rw [only, sends.requests], by simp, fun i call there => ?_, by
    simpa using sends.serves.methods, by simp, by rw [only]; exact sends.answered,
    by rw [only]; exact sends.serves.stops, by rw [only]; exact sends.serves.success⟩
  cases i with
  | zero =>
    obtain rfl : chains = call := by simpa using there
    exact sends.inTurn
  | succ i => simp at there

theorem Sends.cons (sends : Sends client (scenes index).world accepts methods deeds chains)
    (own : Deed.EndOwn deeds) (fails : ∀ a, .ended a (.ok ()) ∉ deeds) (begun : more ≠ [])
    (rest : Conduct client scenes accepts methods most (index + 1) more calls) :
    Conduct client scenes accepts methods (most + 1) index (deeds ++ more) (chains :: calls) := by
  have none_ : ∀ c ∈ chains, ¬ c.Succeeds accepts := fun c mem success =>
    let ⟨a, ended⟩ := sends.serves.success.1 ⟨c, mem, success⟩
    fails a ended
  have known := sends.answered own
  refine ⟨?_, ?_, fun i call there => ?_, ?_, ?_, ?_, ?_, ?_⟩
  · rw [Deed.requests_append, sends.requests, rest.requests, List.flatten_cons, List.flatMap_append]
  · have within := rest.within
    rw [List.length_cons]
    omega
  · cases i with
    | zero =>
      obtain rfl : chains = call := by simpa using there
      exact sends.inTurn
    | succ i =>
      have later := rest.inTurn i call (by simpa using there)
      rwa [Nat.add_right_comm] at later
  · exact List.forall_mem_cons.2 ⟨sends.serves.methods, rest.methods⟩
  · intro c mem
    cases calls with
    | nil => simp at mem
    | cons call calls =>
      rw [List.dropLast_cons_cons, List.flatten_cons, List.mem_append] at mem
      exact mem.elim (known c) (rest.earlier c)
  · rintro ⟨a, r, last, whole⟩ c mem
    obtain ⟨end_, ends⟩ := Option.isSome_iff_exists.1 (List.getLast?_isSome.2 begun)
    rw [List.getLast?_append, ends, Option.some_or] at last
    rw [List.flatten_cons, List.mem_append] at mem
    exact mem.elim (known c) (rest.answered ⟨a, r, ends.trans last, whole⟩ c)
  · rw [List.flatten_cons]
    exact List.pairwise_append.2 ⟨sends.serves.stops, rest.stops, fun c mem _ _ => none_ c mem⟩
  · simp only [List.flatten_cons, List.mem_append, or_and_right, exists_or, fails, false_or,
      ← rest.success]
    refine or_iff_right ?_
    rintro ⟨c, mem, success⟩
    exact none_ c mem success

end

section

variable {client : Client} {scenes : Nat → Scene} {accepts : Response → Bool} {methods : List Method}
  {d : Dialogue} {operation : Nat → Course} {index : Nat} {deeds part : List Deed} {result : Result}

theorem sends_nil {world : World} (silent : Deed.requests part = [])
    (fails : ∀ a, .ended a (.ok ()) ∉ part) : Sends client world accepts methods part [] :=
  ⟨silent, trivial, by simp, Dialogue.serves_nil (by simpa using fails)⟩

theorem sends_of_unfinished {world : World} (heeds : d.Heeds accepts methods)
    (front : part <+: [.called, .started] ++ ((d.talk client).course world []).deeds) :
    ∃ chains, Sends client world accepts methods part chains := by
  have open_ : ∀ a r, .ended a r ∉ part := by
    intro a r mem
    rcases List.mem_append.1 (front.subset mem) with early | own
    · simp at early
    · cases Http.Talk.isOwn_of_mem_course _ own
  rcases prefix_append_cases front with early | ⟨rest, begun, rfl, within⟩
  · exact ⟨[], sends_nil (List.prefix_nil.1 (early.filterMap Deed.request?)) fun a => open_ a _⟩
  · obtain ⟨chains, holds, made⟩ := Dialogue.exists_holds_of_part within begun
    have serves := Dialogue.serves_of_holds heeds holds
    refine ⟨chains, made, holds.inTurn, ?_, serves.methods, serves.stops, serves.success.trans ?_⟩
    · rintro ⟨a, r, last, -⟩
      exact absurd (List.mem_of_getLast? last) (open_ a r)
    · simpa using fun a => open_ a _

theorem sends_of_whole {world : World} {a : Attempt} {own : Except Failure Unit}
    (heeds : d.Heeds accepts methods)
    (ends : ((d.talk client).course world []).result = .ok own) :
    ∃ chains, Sends client world accepts methods
      ([.called, .started] ++ ((d.talk client).course world []).deeds ++ [.ended a own]) chains := by
  obtain ⟨chains, holds, made⟩ := Dialogue.exists_holds client world [] d
  have serves := Dialogue.serves_of_holds heeds holds
  have only : (∃ b, Deed.ended b (.ok ()) ∈
      [.called, .started] ++ ((d.talk client).course world []).deeds ++ [.ended a own]) ↔
      own = .ok () := by
    constructor
    · rintro ⟨b, mem⟩
      rcases List.mem_append.1 mem with mem | last
      · rcases List.mem_append.1 mem with early | inner
        · simp at early
        · cases Http.Talk.isOwn_of_mem_course _ inner
      · simp only [List.mem_singleton, Deed.ended.injEq] at last
        exact last.2.symm
    · rintro rfl
      exact ⟨a, by simp⟩
  refine ⟨chains, ?_, holds.inTurn, fun _ => holds.known rfl, serves.methods, serves.stops,
    serves.success.trans ?_⟩
  · rw [Deed.requests_append, Deed.requests_append, made]
    simp [Deed.request?]
  · rw [only, ends]
    simp

theorem Sends.cut {world : World} {a : Attempt} {failure : Failure} {chains : List Chain}
    (sends : Sends client world accepts methods deeds chains) (cut : failure.IsCut) :
    Sends client world accepts methods (deeds ++ [.ended a (.error failure)]) chains := by
  refine ⟨?_, sends.inTurn, ?_, sends.serves.methods, sends.serves.stops,
    sends.serves.success.trans ?_⟩
  · rw [Deed.requests_append, sends.requests]
    simp [Deed.request?]
  · rintro ⟨b, r, last, whole⟩
    rw [List.getLast?_concat, Option.some.injEq, Deed.ended.injEq] at last
    exact absurd ⟨failure, last.2.symm, cut⟩ whole
  · simp

theorem sends_of_part (heeds : d.Heeds accepts methods)
    (scripted : ∀ i, operation i = (d.talk client).paced (scenes i) [])
    (attempts : (operation index).Attempts index deeds result) (front : part <+: deeds) :
    ∃ chains, Sends client (scenes index).world accepts methods part chains := by
  have same : (operation index).deeds = ((d.talk client).course (scenes index).world []).deeds := by
    rw [scripted, Http.Talk.deeds_paced]
  have unfinished {begun part : List Deed} (goes : begun <+: (operation index).deeds)
      (front : part <+: [.called, .started] ++ begun) :
      ∃ chains, Sends client (scenes index).world accepts methods part chains :=
    sends_of_unfinished heeds (front.trans ((List.prefix_append_right_inj _).2 (same ▸ goes)))
  cases attempts with
  | skipped elapsed _ all =>
    subst all
    refine ⟨[], sends_nil (List.prefix_nil.1 (front.filterMap Deed.request?)) fun a mem => ?_⟩
    simpa using front.subset mem
  | crashed goes _ all =>
    subst all
    exact unfinished goes.front front
  | @made begun own elapsed goes _ all =>
    subst all
    rcases List.prefix_concat_iff.1 front with rfl | early
    · cases goes with
      | whole whole ends =>
        rw [scripted, Http.Talk.result_paced] at ends
        rw [whole, same]
        exact sends_of_whole heeds ends.symm
      | cut goes cut failed =>
        obtain rfl := Except.ok.inj failed
        obtain ⟨chains, sends⟩ := unfinished goes List.prefix_rfl
        exact ⟨chains, sends.cut cut⟩
    · exact unfinished goes.front early

/-- A run at any point of it has sent its chains as they should be. -/
theorem conduct_of_attemptsFrom (heeds : d.Heeds accepts methods)
    (scripted : ∀ i, operation i = (d.talk client).paced (scenes i) []) (l : Limits)
    (delays : List Nat) (index time : Nat)
    (front : part <+: Step.deeds (attemptsFrom l operation delays index time).steps) :
    ∃ calls, Conduct client scenes accepts methods (delays.length + 1) index part calls := by
  revert part
  refine run_induction (P := fun left index deeds _ => ∀ {part}, part <+: deeds →
    ∃ calls, Conduct client scenes accepts methods (left + 1) index part calls) ?_ ?_ delays index time
  · intro left index deeds ended result attempts _ part front
    obtain ⟨chains, sends⟩ := sends_of_part heeds scripted attempts front
    exact ⟨[chains], sends.conduct⟩
  · intro left index deeds failure more result attempts retryable rest part front
    rcases prefix_append_cases front with early | ⟨later, begun, rfl, within⟩
    · obtain ⟨chains, sends⟩ := sends_of_part heeds scripted attempts early
      exact ⟨[chains], sends.conduct⟩
    · obtain ⟨chains, sends⟩ := sends_of_part heeds scripted attempts List.prefix_rfl
      obtain ⟨calls, conduct⟩ := rest within
      obtain ⟨inner, silent, ⟨-, crash, crashed⟩ | ⟨a, r, rfl, failed, -⟩⟩ :=
        attempts.ends (by rw [scripted]; exact Http.Talk.isOwn_of_mem_paced _ _ _)
      · cases crashed
      · obtain rfl := Except.ok.inj failed
        refine ⟨chains :: calls, sends.cons ⟨a, _, List.getLast?_concat, ?_⟩ (fun b mem => ?_) begun
          conduct⟩
        · rintro ⟨other, same, cut⟩
          obtain rfl := Except.error.inj same
          rw [cut.not_isRetryable] at retryable
          cases retryable
        · cases (eq_of_ended_mem silent mem).2

end

end Herald
