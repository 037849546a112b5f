import Herald.Proofs.Channel.Chains
import Herald.Proofs.Text.Blank
import Herald.Proofs.Text.Truncated

/-! What a failure tells of the body of a response with a bad status. The failure of an attempt is made from the
response to its last request, and shows the start of its body, in place of a character that is cut a replacement. -/
namespace Herald

open Herald.Http Herald.Text

namespace Http

def keptText (bytes : List UInt8) : List Char := Utf8.decodeLossy (bytes.take keptBytes)

def size (s : List Char) : Nat := (Utf8.encode s).length

/-- What is shown of the bytes of a body: its kept text, trimmed, and nothing if that is blank. If the body is text,
then the kept text is a start of it that fits, or one with a replacement for the character that does not fit. -/
structure IsExcerpt (bytes : List UInt8) (shown : Option String) : Prop where
  absent_iff : shown = none ↔ Blank (keptText bytes)
  trimmed : ∀ t, shown = some t → t.toList = trim (keptText bytes)
  bounded : ∀ t, shown = some t → size t.toList ≤ 3 * keptBytes
  ofText : ∀ s, bytes = Utf8.encode s →
    (∃ p q, s = p ++ q ∧ keptText bytes = p ∧ (q = [] ∨ size p = keptBytes) ∧
      ∀ t, shown = some t → size t.toList ≤ keptBytes) ∨
    ∃ p c q, s = p ++ c :: q ∧ keptText bytes = p ++ ['\uFFFD'] ∧ size p < keptBytes ∧
      keptBytes < size (p ++ [c]) ∧ ∀ t, shown = some t → size t.toList ≤ keptBytes + 2

theorem size_trim_le (s : List Char) : size (trim s) ≤ size s := Utf8.length_encode_le_of_sublist (trim_sublist s)

theorem size_append (s t : List Char) : size (s ++ t) = size s + size t := by
  rw [size, Utf8.encode_append, List.length_append, ← size, ← size]

theorem snippet?_eq (body : List (List UInt8)) :
    snippet? body = if trim (keptText body.flatten) = [] then none
      else some (String.ofList (trim (keptText body.flatten))) := by
  rw [snippet?, take_gather, List.nil_append]
  rfl

theorem isExcerpt_snippet? (body : List (List UInt8)) : IsExcerpt body.flatten (snippet? body) := by
  have trimmed : ∀ t, snippet? body = some t → t.toList = trim (keptText body.flatten) := by
    intro t shown
    rw [snippet?_eq] at shown
    split at shown
    · cases shown
    · rw [← Option.some.inj shown, String.toList_ofList]
  have small {n : Nat} (fits : size (keptText body.flatten) ≤ n) :
      ∀ t, snippet? body = some t → size t.toList ≤ n := by
    intro t shown
    rw [trimmed t shown]
    exact (size_trim_le _).trans fits
  refine ⟨?_, trimmed, small ?_, fun s is => ?_⟩
  · rw [snippet?_eq, ← trim_eq_nil_iff]
    split <;> simp_all
  · have all := Utf8.length_encode_decodeLossy_le (body.flatten.take keptBytes)
    have kept : (body.flatten.take keptBytes).length ≤ keptBytes := List.length_take_le _ _
    exact all.trans (Nat.mul_le_mul_left 3 kept)
  · rw [is] at small ⊢
    obtain ⟨p, q, rfl, ⟨whole, within, rest⟩ | ⟨c, r, rfl, part, below, above⟩⟩ :=
      Utf8.decodeLossy_take_encode keptBytes s
    · exact .inl ⟨p, q, rfl, whole, rest, small (by rw [keptText, whole]; exact within)⟩
    · have replacement : size ['\uFFFD'] = 3 := by decide
      refine .inr ⟨p, c, r, rfl, part, below, ?_, small ?_⟩
      · rw [size_append]
        simpa [size, Utf8.encode] using above
      · rw [keptText, part, size_append, replacement]
        have below : size p < keptBytes := below
        omega

theorem IsExcerpt.unique {bytes : List UInt8} {shown other : Option String} (one : IsExcerpt bytes shown)
    (two : IsExcerpt bytes other) : shown = other := by
  cases shown with
  | none => exact ((two.absent_iff.2 (one.absent_iff.1 rfl))).symm
  | some t =>
    cases other with
    | none => exact one.absent_iff.2 (two.absent_iff.1 rfl)
    | some t' =>
      have same : t.toList = t'.toList := (one.trimmed t rfl).trans (two.trimmed t' rfl).symm
      rw [String.toList_inj.1 same]

end Http

def Failure.IsStatus (failure : Failure) : Prop := ∃ channel code body, failure = .status channel code body

theorem ClientError.not_isStatus (e : ClientError) : ¬ e.failure.IsStatus := by
  rintro ⟨channel, code, body, is⟩
  unfold failure at is
  split at is <;> cases is

def Http.Chain.EndsBadly (chains : List Chain) (first : Request) (response : Response) : Prop :=
  response.isSuccess = false ∧ ∃ redirects, chains.getLast? = some ⟨first, redirects, some (.ok response)⟩

def Http.Chain.Calm (channel : Channel) (chains : List Chain) : Prop :=
  ∀ first response, Chain.EndsBadly chains first response → channel = .bark ∧ first.method ≠ .get

namespace Http.Chain

theorem calm_nil {channel : Channel} : Calm channel [] := fun _ _ ⟨_, _, last⟩ => by cases last

theorem calm_posted {channel : Channel} {request : Request} (tried : channel = .bark) (posted : request.method = .post)
    {redirects : List Request} {answer : Option (Except Failure Response)} :
    Calm channel [⟨request, redirects, answer⟩] := by
  rintro _ _ ⟨-, _, last⟩
  cases last
  exact ⟨tried, by rw [posted]; exact nofun⟩

end Http.Chain

/-- A bad status is reported with an excerpt of its body: it is reported if the last chain comes to it, unless this
is a push that is tried first; and nothing else is reported, but for what was said by the guard. -/
structure Accounts (channel : Channel) (said : Failure → Prop) (chains : List Chain) (outcome : Result) : Prop where
  reports : ∀ first response, Chain.EndsBadly chains first response →
    (channel = .bark → first.method = .get) → ∃ shown,
      outcome = .ok (.error (.status channel response.status shown)) ∧ IsExcerpt response.body.flatten shown
  reported : ∀ failure, failure.IsStatus → outcome = .ok (.error failure) →
    said failure ∨ ∃ first response shown, Chain.EndsBadly chains first response ∧
      failure = .status channel response.status shown ∧ IsExcerpt response.body.flatten shown

namespace Dialogue

def Accountable (channel : Channel) (said : Failure → Prop) : List Chain → Dialogue → Prop
  | chains, .done result => Accounts channel said chains (.ok result)
  | chains, .crashed crash => Accounts channel said chains (.error crash)
  | chains, .check _ next => ∀ verdict, (∀ failure, verdict = .error failure → said failure) →
      (next verdict).Accountable channel said chains
  | chains, .ask request next =>
    (∀ failure, ¬ failure.IsStatus → (next (.error failure)).Accountable channel said chains) ∧
      ∀ redirects answer, (∀ failure, answer = .error failure → ¬ failure.IsStatus) →
        (next answer).Accountable channel said (chains ++ [⟨request, redirects, some answer⟩])

variable {channel : Channel} {said : Failure → Prop} {chains : List Chain}

theorem accounts_of_quiet {outcome : Result} (calm : Chain.Calm channel chains)
    (quiet : ∀ failure, failure.IsStatus → outcome = .ok (.error failure) → said failure) :
    Accounts channel said chains outcome := by
  refine ⟨fun first response bad settles => ?_, fun failure is comes => .inl (quiet failure is comes)⟩
  obtain ⟨bark, push⟩ := calm first response bad
  exact absurd (settles bark) push

theorem accounts_of_status {outcome : Result} {first : Request} {response : Response}
    (bad : Chain.EndsBadly chains first response)
    (is : outcome = .ok ((response.ensureSuccess channel).map fun _ => ())) :
    Accounts channel said chains outcome := by
  have fails : outcome = .ok (.error (.status channel response.status (snippet? response.body))) := by
    rw [is, Response.ensureSuccess, bad.1]
    rfl
  refine ⟨fun other r otherBad _ => ?_,
    fun failure _ comes => .inr ⟨first, response, _, bad, ?_, isExcerpt_snippet? _⟩⟩
  · obtain ⟨-, _, last⟩ := bad
    obtain ⟨-, _, otherLast⟩ := otherBad
    cases last.symm.trans otherLast
    exact ⟨_, fails, isExcerpt_snippet? _⟩
  · cases fails.symm.trans comes
    rfl

theorem accountable_ask_done {request : Request} {result : Except Failure Response → Except Failure Unit}
    (calm : Chain.Calm channel chains) (fails : ∀ failure, result (.error failure) = .error failure)
    (bad : ∀ response, response.isSuccess = false →
      result (.ok response) = (response.ensureSuccess channel).map fun _ => ())
    (good : ∀ response, response.isSuccess = true → ∀ failure, failure.IsStatus →
      result (.ok response) ≠ .error failure) :
    (ask request fun answer => .done (result answer)).Accountable channel said chains := by
  refine ⟨fun failure plain => accounts_of_quiet calm fun other is comes => ?_, fun redirects answer plain => ?_⟩
  · rw [fails] at comes
    cases comes
    exact absurd is plain
  · have last (first : Request) (response : Response) : Chain.EndsBadly
        (chains ++ [⟨request, redirects, some answer⟩]) first response ↔
          response.isSuccess = false ∧ request = first ∧ answer = .ok response := by
      simp only [Chain.EndsBadly, List.getLast?_concat, Option.some.injEq, Chain.mk.injEq]
      grind
    cases answer with
    | error failure =>
      refine accounts_of_quiet (fun first response ends => ?_) fun other is comes => ?_
      · cases ((last first response).1 ends).2.2
      · rw [fails] at comes
        cases comes
        exact absurd is (plain failure rfl)
    | ok response =>
      cases success : response.isSuccess with
      | false =>
        exact accounts_of_status ((last request response).2 ⟨success, rfl, rfl⟩) (congrArg _ (bad response success))
      | true =>
        refine accounts_of_quiet (fun first other ends => ?_) fun failure is comes =>
          absurd (Except.ok.inj comes) (good response success failure is)
        obtain ⟨unsuccessful, -, same⟩ := (last first other).1 ends
        rw [← Except.ok.inj same, success] at unsuccessful
        cases unsuccessful

theorem Accountable.of_holds {client : Client} {world : World} {sent : List Request} {d : Dialogue}
    {more : List Chain} {outcome : Result}
    (accountable : d.Accountable channel (fun failure => ∃ u, (world.guard u).verdict = .error failure) chains)
    (holds : d.Holds client world sent more (some outcome)) :
    Accounts channel (fun failure => ∃ u, (world.guard u).verdict = .error failure) (chains ++ more) outcome := by
  generalize comes : some outcome = end_ at holds
  induction holds generalizing chains with
  | done => cases comes; rwa [List.append_nil]
  | crashed => cases comes; rwa [List.append_nil]
  | unjudged => cases comes
  | @judged _ u _ _ _ _ ih => exact ih (accountable _ fun _ said => ⟨u, said⟩) comes
  | unsent refused _ ih =>
    obtain ⟨e, rfl⟩ := Client.exists_error_of_ready refused
    exact ih (accountable.1 _ e.not_isStatus) comes
  | unanswered => cases comes
  | @answered _ _ _ redirects answer _ _ _ follows _ ih =>
    have onward := accountable.2 redirects answer fun failure fails => by
      subst fails
      obtain ⟨e, rfl⟩ := follows.exists_error
      exact e.not_isStatus
    have accounts := ih onward comes
    rwa [List.append_assoc] at accounts

theorem accountable_reviewed {address : Except Failure Url} {next : Url → Dialogue}
    (fails : ∀ failure, address = .error failure → ¬ failure.IsStatus)
    (onward : ∀ u, (next u).Accountable channel said []) : (reviewed address next).Accountable channel said [] := by
  cases address with
  | error failure =>
    refine accounts_of_quiet Chain.calm_nil fun other is comes => ?_
    cases comes
    exact absurd is (fails failure rfl)
  | ok u =>
    intro verdict spoke
    cases verdict with
    | error failure =>
      refine accounts_of_quiet Chain.calm_nil fun other _ comes => ?_
      cases comes
      exact spoke failure rfl
    | ok _ => exact onward u

end Dialogue

variable {said : Failure → Prop}

theorem Raw.accountable_onward (payload : Payload) (u : Url) :
    (onward payload u).Accountable .raw said [] := by
  refine Dialogue.accountable_ask_done Chain.calm_nil (fun _ => rfl) (fun _ _ => rfl)
    fun response success failure _ => ?_
  simp [Except.bind, Except.map, response.ensureSuccess_of_true success]

theorem WeCom.accountable_onward (event : Event) (u : Url) : (onward event u).Accountable .weCom said [] := by
  unfold onward
  split
  · exact Dialogue.accounts_of_quiet Chain.calm_nil nofun
  · refine Dialogue.accountable_ask_done Chain.calm_nil (fun _ => rfl) (fun response bad => ?_)
      fun response success failure is => ?_
    · rw [Except.bind, Response.ensureSuccess, bad]
      rfl
    · obtain ⟨_, _, _, rfl⟩ := is
      simp only [Except.bind, response.ensureSuccess_of_true success, judge]
      split <;> simp

namespace Bark

theorem accountable_askPath {chains : List Chain} (calm : Chain.Calm .bark chains) (u : Url) (title body : List Char) :
    (askPath u title body).Accountable .bark said chains := by
  unfold askPath
  split
  · refine Dialogue.accounts_of_quiet calm ?_
    rintro failure ⟨_, _, _, rfl⟩ is
    cases is
  · refine Dialogue.accountable_ask_done calm (fun _ => rfl) (fun _ _ => rfl) fun response success failure _ => ?_
    simp [Except.bind, Except.map, response.ensureSuccess_of_true success]

theorem accountable_onward (forceGet : Bool) (event : Event) (u : Url) :
    (onward forceGet event u).Accountable .bark said [] := by
  unfold onward
  split
  · exact Dialogue.accounts_of_quiet Chain.calm_nil nofun
  · unfold askPush
    split
    · exact accountable_askPath Chain.calm_nil ..
    · refine ⟨fun _ _ => accountable_askPath Chain.calm_nil .., fun redirects answer _ => ?_⟩
      dsimp only [List.nil_append]
      split
      · exact Dialogue.accounts_of_quiet (Chain.calm_posted rfl (by simp)) nofun
      · exact accountable_askPath (Chain.calm_posted rfl (by simp)) ..

end Bark

namespace Sender

theorem not_isStatus_of_address? {s : Sender} {channel : Channel} {target : String} {event : Event}
    {failure : Failure} (fails : s.address? channel target event = .error failure) : ¬ failure.IsStatus := by
  rintro ⟨c, code, body, rfl⟩
  have refused (text : String) :
      (Guard.target? text).mapError Failure.validation ≠ .error (.status c code body) := by
    cases Guard.target? text <;> exact nofun
  cases channel with
  | raw =>
    rw [address?] at fails
    split at fails
    · cases fails
    · exact refused _ fails
  | weCom => exact refused _ fails
  | bark => exact refused _ fails

theorem accountable_dialogue (s : Sender) (channel : Channel) (target : String) (event : Event) :
    (s.dialogue channel target event).Accountable channel said [] := by
  refine Dialogue.accountable_reviewed (fun _ => not_isStatus_of_address?) fun u => ?_
  cases channel with
  | raw =>
    simp only [onward]
    cases s.converter event target with
    | error fault =>
      refine Dialogue.accounts_of_quiet Chain.calm_nil ?_
      rintro failure ⟨_, _, _, rfl⟩ is
      cases is
    | ok payload => exact Raw.accountable_onward payload u
  | weCom => exact WeCom.accountable_onward event u
  | bark => exact Bark.accountable_onward s.forceGet event u

/-- All that an attempt sends are its chains, and a response with a bad status at the end of the last is reported
with an excerpt of its body, except where it answers a push that is tried first. No other bad status is reported, but
for what the guard said. Of a body there is only one excerpt, in whichever pieces it arrives. -/
theorem status_keeps_excerpt (s : Sender) (world : World) (channel : Channel) (target : String) (event : Event) :
    (∃ chains : List Chain,
      Deed.requests ((s.send channel target event).course world []).deeds = chains.flatMap Chain.requests ∧
      Chain.InTurn s.client world [] chains ∧
      Accounts channel (fun failure => ∃ u, (world.guard u).verdict = .error failure) chains
        ((s.send channel target event).converse world []).result) ∧
    ∀ bytes shown other, IsExcerpt bytes shown → IsExcerpt bytes other → shown = other := by
  refine ⟨?_, fun _ _ _ => IsExcerpt.unique⟩
  obtain ⟨chains, holds, sent⟩ :=
    Dialogue.exists_holds s.client world [] (s.dialogue channel target event)
  rw [s.talk_dialogue] at holds sent
  have accounts := (s.accountable_dialogue channel target event).of_holds holds
  rw [List.nil_append, Talk.result_course] at accounts
  exact ⟨chains, sent, holds.inTurn, accounts⟩

/-- A character that is cut is shown as a replacement, with which the shown text is longer than what is kept. -/
theorem status_shows_replacement :
    let text : List Char := List.replicate 171 '点'
    let shown : List Char := List.replicate 170 '点' ++ ['\uFFFD']
    let world : World := { guard := fun _ => {}, peer := fun _ _ => some ⟨500, none, [Utf8.encode text]⟩ }
    let event : Event := ⟨.created, { creator := "users/1", content := "hi" }⟩
    ((({} : Sender).send .raw "http://[2001:db8::1]/b" event).converse world []).result =
        .ok (.error (.status .raw 500 (some (String.ofList shown)))) ∧
      keptBytes < size shown ∧ '\uFFFD' ∉ text := by
  decide +kernel

end Sender

end Herald
