import Herald.Proofs.Channel.Chains
import Herald.Proofs.Json.Slots
import Herald.Proofs.Json.Unambiguous
import Herald.Proofs.Text.Percent

/-! What the answer of a receiver of group messages is taken for. A code other than zero is reported only if the whole
answer is well-formed: all keys stand for texts, and code and text are given once, as an integer and as a string. Any
other answer counts as success, also one that gives a code. -/
namespace Herald

open Herald.Http Herald.Json Herald.Text

namespace WeCom

def valuesOf (key : String) (ms : List (Option (List Char) × Tree)) : List Tree :=
  ms.filterMap fun m => if m.1 = some key.toList then some m.2 else none

def IsCode (t : Tree) (n : Int) : Prop :=
  t = .number (intDigits n) ∧ -0x8000000000000000 ≤ n ∧ n < 0x8000000000000000

def IsNote (t : Tree) (m : String) : Prop := t = .string (some m.toList)

/-- The members give a code, which is not zero, and at most one text with it. -/
structure Tells (ms : List (Option (List Char) × Tree)) (n : Int) (m : String) : Prop where
  legible : ∀ member ∈ ms, member.1 ≠ none
  code : ∃ t, valuesOf "errcode" ms = [t] ∧ IsCode t n
  fails : n ≠ 0
  note : valuesOf "errmsg" ms = [] ∧ m = "" ∨ ∃ t, valuesOf "errmsg" ms = [t] ∧ IsNote t m

inductive Reports : Tree → Int → String → Prop
  | object {ms : List (Option (List Char) × Tree)} {n : Int} {m : String} : Tells ms n m → Reports (.object ms) n m
  | code {t : Tree} {n : Int} : IsCode t n → n ≠ 0 → Reports (.list [t]) n ""
  | note {t u : Tree} {n : Int} {m : String} : IsCode t n → n ≠ 0 → IsNote u m → Reports (.list [t, u]) n m

def codeSlot : Slot Draft :=
  ⟨Int, "errcode", false, Json.signed "i64", IsCode, accepts_signed "i64", Draft.code,
    fun v d => { d with code := some v }⟩

def noteSlot : Slot Draft :=
  ⟨String, "errmsg", false, Json.text, IsNote, accepts_text, Draft.text, fun v d => { d with text := some v }⟩

theorem spans_slots : Slot.Spans [codeSlot, noteSlot] where
  distinct := by decide
  get_put := by
    intro slot mem v d
    simp only [List.mem_cons, List.not_mem_nil, or_false] at mem
    rcases mem with rfl | rfl <;> rfl
  get_put_other := by
    intro slot mem other otherMem ne v d
    simp only [List.mem_cons, List.not_mem_nil, or_false] at mem otherMem
    rcases mem with rfl | rfl <;> rcases otherMem with rfl | rfl <;> first | rfl | exact absurd rfl ne
  ext := by
    rintro ⟨code, note⟩ ⟨code', note'⟩ same
    simp only [List.forall_mem_cons] at same
    obtain ⟨rfl, rfl, -⟩ := same
    rfl

variable {ms : List (Option (List Char) × Tree)} {t : Tree} {n : Int} {m : String}

theorem filled_iff {d : Draft} : Slot.Filled [codeSlot, noteSlot] ms d ↔ (∀ member ∈ ms, member.1 ≠ none) ∧
    AtMostOnce IsCode (valuesOf "errcode" ms) d.code ∧ AtMostOnce IsNote (valuesOf "errmsg" ms) d.text := by
  constructor
  · rintro ⟨legible, values, -⟩
    simp only [List.forall_mem_cons] at values
    exact ⟨legible, values.1, values.2.1⟩
  · rintro ⟨legible, code, note⟩
    refine ⟨legible, ?_, ?_⟩
    · simp only [List.forall_mem_cons]
      exact ⟨code, note, nofun⟩
    · simp only [List.forall_mem_cons]
      exact ⟨nofun, nofun, nofun⟩

theorem tells_iff : Tells ms n m ↔ n ≠ 0 ∧ ∃ d, Slot.Filled [codeSlot, noteSlot] ms d ∧
    (⟨d.code.getD 0, d.text.getD ""⟩ : Answer) = ⟨n, m⟩ := by
  simp only [filled_iff, Answer.mk.injEq]
  constructor
  · rintro ⟨legible, code, fails, ⟨notes, rfl⟩ | note⟩
    · exact ⟨fails, ⟨some n, none⟩, ⟨legible, atMostOnce_some_iff.2 code, atMostOnce_none_iff.2 notes⟩, rfl, rfl⟩
    · exact ⟨fails, ⟨some n, some m⟩, ⟨legible, atMostOnce_some_iff.2 code, atMostOnce_some_iff.2 note⟩, rfl, rfl⟩
  · rintro ⟨fails, ⟨code?, note?⟩, ⟨legible, codes, notes⟩, rfl, rfl⟩
    cases code? with
    | none => exact absurd rfl fails
    | some n =>
      refine ⟨legible, atMostOnce_some_iff.1 codes, fails, ?_⟩
      cases note? with
      | none => exact .inl ⟨atMostOnce_none_iff.1 notes, rfl⟩
      | some m => exact .inr (atMostOnce_some_iff.1 notes)

theorem tells_code_iff : Tells [(some "errcode".toList, t)] n m ↔ IsCode t n ∧ n ≠ 0 ∧ m = "" := by
  have codes : valuesOf "errcode" [(some "errcode".toList, t)] = [t] := valuesAt_self "errcode" t
  have notes : valuesOf "errmsg" [(some "errcode".toList, t)] = [] := valuesAt_other (by decide) t
  constructor
  · rintro ⟨-, ⟨u, single, code⟩, fails, ⟨-, empty⟩ | ⟨u, single', -⟩⟩
    · cases codes.symm.trans single
      exact ⟨code, fails, empty⟩
    · cases notes.symm.trans single'
  · rintro ⟨code, fails, empty⟩
    exact ⟨by simp, ⟨t, codes, code⟩, fails, .inl ⟨notes, empty⟩⟩

theorem tells_note_iff {u : Tree} :
    Tells [(some "errcode".toList, t), (some "errmsg".toList, u)] n m ↔ IsCode t n ∧ n ≠ 0 ∧ IsNote u m := by
  have codes : valuesOf "errcode" [(some "errcode".toList, t), (some "errmsg".toList, u)] = [t] :=
    (valuesAt_self "errcode" t).trans (congrArg (t :: ·) (valuesAt_other (by decide) u))
  have notes : valuesOf "errmsg" [(some "errcode".toList, t), (some "errmsg".toList, u)] = [u] :=
    (valuesAt_other (by decide) t).trans (valuesAt_self "errmsg" u)
  constructor
  · rintro ⟨-, ⟨t', single, code⟩, fails, ⟨none_, -⟩ | ⟨u', single', note⟩⟩
    · cases notes.symm.trans none_
    · cases codes.symm.trans single
      cases notes.symm.trans single'
      exact ⟨code, fails, note⟩
  · rintro ⟨code, fails, note⟩
    exact ⟨by simp, ⟨t, codes, code⟩, fails, .inr ⟨u, notes, note⟩⟩

theorem reports_iff_tells : Reports t n m ↔ ∃ ms, Spells ["errcode", "errmsg"] t ms ∧ Tells ms n m := by
  constructor
  · intro reports
    cases reports with
    | object tells => exact ⟨_, .object, tells⟩
    | code code fails => exact ⟨_, .list (Nat.le_succ 1), tells_code_iff.2 ⟨code, fails, rfl⟩⟩
    | note code fails note => exact ⟨_, .list (Nat.le_refl 2), tells_note_iff.2 ⟨code, fails, note⟩⟩
  · rintro ⟨_, spells, tells⟩
    cases spells with
    | object => exact .object tells
    | @list ts short =>
      match ts, short with
      | [], _ =>
        obtain ⟨_, none_, -⟩ := tells.code
        cases none_
      | [t], _ =>
        obtain ⟨code, fails, rfl⟩ := tells_code_iff.1 tells
        exact .code code fails
      | [t, u], _ =>
        obtain ⟨code, fails, note⟩ := tells_note_iff.1 tells
        exact .note code fails note

theorem reports_iff : Reports t n m ↔ n ≠ 0 ∧ ∃ d : Draft,
    (∃ ms, Spells ["errcode", "errmsg"] t ms ∧ Slot.Filled [codeSlot, noteSlot] ms d) ∧
    (⟨d.code.getD 0, d.text.getD ""⟩ : Answer) = ⟨n, m⟩ := by
  simp only [reports_iff_tells, tells_iff]
  constructor
  · rintro ⟨ms, spells, fails, d, filled, is⟩
    exact ⟨fails, d, ⟨ms, spells, filled⟩, is⟩
  · rintro ⟨fails, d, ⟨ms, spells, filled⟩, is⟩
    exact ⟨ms, spells, fails, d, filled, is⟩

theorem answerOf_eq_iff {body : List UInt8} (fails : n ≠ 0) :
    answerOf body = ⟨n, m⟩ ↔ ∃ t, IsText t (answerText body) ∧ Reports t n m := by
  have blank : ∀ slot ∈ [codeSlot, noteSlot], slot.get shape.blank = none := by
    simp only [List.forall_mem_cons, List.not_mem_nil, false_implies, implies_true, and_true]
    exact ⟨rfl, rfl⟩
  have known : (∃ t, IsText t (answerText body) ∧ Reports t n m) ↔
      whole reader (answerText body) = .ok ⟨n, m⟩ := by
    rw [reader, whole_eq_ok_iff (accepts_map (spans_slots.accepts_record rfl blank) _)]
    simp only [reports_iff, fails, ne_eq, not_false_eq_true, true_and]
    rfl
  rw [known, answerOf]
  cases whole reader (answerText body) with
  | ok answer => simp
  | error _ => simp [Ne.symm fails]

theorem judge_eq_error_iff {response : Response} {n : Int} {m : String} :
    judge response = .error (.provider (.code n m)) ↔ n ≠ 0 ∧ answerOf response.body.flatten = ⟨n, m⟩ := by
  unfold judge
  cases answerOf response.body.flatten with
  | mk code text =>
    by_cases none_ : code = 0
    · simp only [none_, if_true, reduceCtorEq, Answer.mk.injEq, false_iff]
      exact fun ⟨fails, is, _⟩ => fails is.symm
    · simp only [if_neg none_, Except.error.injEq, Failure.provider.injEq, Report.code.injEq, Answer.mk.injEq]
      exact ⟨fun is => ⟨is.1 ▸ none_, is⟩, And.right⟩

structure Judges (body : List Char) (verdict : Except Failure Unit) : Prop where
  refuses_iff : ∀ n m, verdict = .error (.provider (.code n m)) ↔ ∃ t, IsText t body ∧ Reports t n m
  accepts_iff : verdict = .ok () ↔ ∀ t n m, IsText t body → ¬ Reports t n m
  object : ∀ ms, IsText (.object ms) body → ∀ n m, verdict = .error (.provider (.code n m)) ↔ Tells ms n m
  noJson : (∀ t, ¬ IsText t body) → verdict = .ok ()
  noCode : ∀ ms, IsText (.object ms) body → (∀ t ∈ valuesOf "errcode" ms, ∀ n, IsCode t n → n = 0) →
    verdict = .ok ()

theorem judges (response : Response) : Judges (answerText response.body.flatten) (judge response) := by
  have refuses (n : Int) (m : String) : judge response = .error (.provider (.code n m)) ↔
      ∃ t, IsText t (answerText response.body.flatten) ∧ Reports t n m := by
    rw [judge_eq_error_iff]
    constructor
    · rintro ⟨fails, is⟩
      exact (answerOf_eq_iff fails).1 is
    · rintro ⟨t, is, reports⟩
      have fails := (reports_iff.1 reports).1
      exact ⟨fails, (answerOf_eq_iff fails).2 ⟨t, is, reports⟩⟩
  have accepts : judge response = .ok () ↔
      ∀ t n m, IsText t (answerText response.body.flatten) → ¬ Reports t n m := by
    constructor
    · intro good t n m is reports
      cases good.symm.trans ((refuses n m).2 ⟨t, is, reports⟩)
    · intro none_
      by_cases zero : (answerOf response.body.flatten).code = 0
      · exact if_pos zero
      · obtain ⟨t, is, reports⟩ := (answerOf_eq_iff zero).1 rfl
        exact absurd reports (none_ t _ _ is)
  have object {ms : List (Option (List Char) × Tree)} {t : Tree} {n : Int} {m : String}
      (there : IsText (.object ms) (answerText response.body.flatten))
      (is : IsText t (answerText response.body.flatten)) (reports : Reports t n m) : Tells ms n m := by
    cases there.unique is
    cases reports with
    | object tells => exact tells
  refine ⟨refuses, accepts, fun ms there n m => ?_, fun nothing => ?_, fun ms there zero => ?_⟩
  · rw [refuses]
    exact ⟨fun ⟨t, is, reports⟩ => object there is reports, fun tells => ⟨_, there, .object tells⟩⟩
  · exact accepts.2 fun t _ _ is => absurd is (nothing t)
  · refine accepts.2 fun t n m is reports => ?_
    obtain ⟨-, ⟨u, values, code⟩, fails, -⟩ := object there is reports
    exact fails (zero u (by rw [values]; exact List.mem_cons_self) n code)

theorem answerText_encode (s : List Char) : answerText (Utf8.encode s) = s := by
  induction s with
  | nil => rfl
  | cons c s ih =>
    have first : Utf8.encode (c :: s) = Utf8.encodeChar c ++ Utf8.encode s := rfl
    rw [first, answerText, Utf8.scan_encodeChar, List.flatMap_cons, ← answerText, ih]
    rfl

/-- The request that an attempt starts with: the guard lets the target pass, there is a text to send, and nothing
keeps the client from sending it. -/
def Posts (client : Client) (world : World) (target : String) (event : Event) (request : Request) : Prop :=
  ∃ u text, Guard.target? target = .ok u ∧ (world.guard u).verdict = .ok () ∧ event.groupText = .ok text ∧
    request = .to .post u "application/json" (message text) ∧ client.ready world [] request = .ok ()

theorem Posts.unique {client : Client} {world : World} {target : String} {event : Event}
    {request other : Request} (one : Posts client world target event request)
    (two : Posts client world target event other) : request = other := by
  obtain ⟨u, text, named, -, made, rfl, -⟩ := one
  obtain ⟨v, words, named', -, made', rfl, -⟩ := two
  cases named.symm.trans named'
  cases made.symm.trans made'
  rfl

theorem holds_cases {s : Sender} {world : World} {target : String} {event : Event} {chains : List Chain}
    {outcome : Result} (holds : (s.dialogue .weCom target event).Holds s.client world [] chains (some outcome)) :
    (chains = [] ∧ ∀ request, ¬ Posts s.client world target event request) ∨
      ∃ request redirects answer, chains = [⟨request, redirects, some answer⟩] ∧
        Posts s.client world target event request ∧
        outcome = .ok (answer.bind fun response => (response.ensureSuccess .weCom).bind judge) := by
  simp only [Sender.dialogue, Sender.address?, Sender.onward] at holds
  cases named : Guard.target? target with
  | error objection =>
    have nothing (request : Request) : ¬ Posts s.client world target event request := by
      rintro ⟨u, text, other, -⟩
      cases named.symm.trans other
    rw [named] at holds
    cases holds
    exact .inl ⟨rfl, nothing⟩
  | ok u =>
    rw [named] at holds
    cases holds with
    | judged holds =>
      cases verdict : (world.guard u).verdict with
      | error failure =>
        have nothing (request : Request) : ¬ Posts s.client world target event request := by
          rintro ⟨v, text, other, passed, -⟩
          cases named.symm.trans other
          cases verdict.symm.trans passed
        rw [verdict] at holds
        cases holds
        exact .inl ⟨rfl, nothing⟩
      | ok _ =>
        rw [verdict] at holds
        dsimp only [onward] at holds
        cases made : event.groupText with
        | error overflow =>
          have nothing (request : Request) : ¬ Posts s.client world target event request := by
            rintro ⟨v, text, -, -, other, -⟩
            cases made.symm.trans other
          rw [made] at holds
          cases holds
          exact .inl ⟨rfl, nothing⟩
        | ok text =>
          rw [made] at holds
          cases holds with
          | unsent refused holds =>
            have nothing (request : Request) : ¬ Posts s.client world target event request := by
              rintro ⟨v, words, other, -, written, is, ready⟩
              cases named.symm.trans other
              cases made.symm.trans written
              rw [is, refused] at ready
              cases ready
            cases holds
            exact .inl ⟨rfl, nothing⟩
          | answered ready _ holds =>
            cases holds
            exact .inr ⟨_, _, _, rfl, ⟨u, text, named, verdict, made, rfl, ready⟩, rfl⟩

end WeCom

namespace Sender

open WeCom

/-- All that an attempt sends to a group is one chain, and a response of success at its end is judged by its text:
only an answer that is well-formed as a whole can report a code. -/
theorem group_answer_judged (s : Sender) (world : World) (target : String) (event : Event) :
    (∃ chains : List Chain,
      Deed.requests ((s.send .weCom target event).course world []).deeds = chains.flatMap Chain.requests ∧
      Chain.InTurn s.client world [] chains ∧
      (∀ request, Posts s.client world target event request →
        ∃ redirects answer, chains = [⟨request, redirects, some answer⟩]) ∧
      ∀ first redirects response, ⟨first, redirects, some (.ok response)⟩ ∈ chains → response.isSuccess = true →
        ∃ verdict, ((s.send .weCom target event).converse world []).result = .ok verdict ∧
          Judges (answerText response.body.flatten) verdict) ∧
    ∀ text, answerText (Utf8.encode text) = text := by
  refine ⟨?_, answerText_encode⟩
  obtain ⟨chains, holds, sent⟩ := Dialogue.exists_holds s.client world [] (s.dialogue .weCom target event)
  rw [s.talk_dialogue] at holds sent
  rw [Talk.result_course] at holds
  refine ⟨chains, sent, holds.inTurn, ?_⟩
  rcases holds_cases holds with ⟨rfl, nothing⟩ | ⟨request, redirects, answer, rfl, posts, outcome⟩
  · exact ⟨fun request posts => absurd posts (nothing request), fun _ _ _ mem => absurd mem List.not_mem_nil⟩
  · refine ⟨fun other otherPosts => ⟨redirects, answer, ?_⟩, fun first more response mem success => ?_⟩
    · rw [otherPosts.unique posts]
    · cases List.mem_singleton.1 mem
      refine ⟨judge response, ?_, judges response⟩
      rw [outcome, Except.bind, response.ensureSuccess_of_true success]
      rfl

example : judge ⟨200, none, [Utf8.encode "\x7b\x22errcode\x22:93000\x7d".toList]⟩ =
    .error (.provider (.code 93000 "")) := by decide +kernel

/-- A code is passed over if its text is null. -/
theorem group_code_passed_over :
    let text := "\x7b\x22errcode\x22:93000,\x22errmsg\x22:null\x7d".toList
    let ms : List (Option (List Char) × Tree) :=
      [(some "errcode".toList, .number "93000".toList), (some "errmsg".toList, .null)]
    let world : World := { guard := fun _ => {}, peer := fun _ _ => some ⟨200, none, [Utf8.encode text]⟩ }
    let event : Event := ⟨.created, { creator := "users/1", content := "hi" }⟩
    IsText (.object ms) text ∧ IsCode (.number "93000".toList) 93000 ∧
      ((({} : Sender).send .weCom "http://[2001:db8::1]/hook" event).converse world []).result = .ok (.ok ()) := by
  intro text ms world event
  have code : KeyAt text.tail (some "errcode".toList) "93000,\x22errmsg\x22:null\x7d".toList :=
    keyAt_some_iff.2 ⟨_, _, rfl, rfl, rfl⟩
  have note : KeyAt "\x22errmsg\x22:null\x7d".toList (some "errmsg".toList) "null\x7d".toList :=
    keyAt_some_iff.2 ⟨_, _, rfl, rfl, rfl⟩
  have number : Numeral "93000,\x22errmsg\x22:null\x7d".toList ",\x22errmsg\x22:null\x7d".toList :=
    .positive (skipNumber_eq_ok_iff.1 rfl)
  have members : Reads (.members ms) text.tail [] :=
    .member code (.number number) rfl (.lastMember note .null rfl)
  exact ⟨⟨[], .object members, rfl⟩, ⟨congrArg _ (by decide), by decide, by decide⟩, by decide +kernel⟩

end Sender

end Herald
