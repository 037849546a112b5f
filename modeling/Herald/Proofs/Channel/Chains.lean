import Herald.Proofs.Channel.Dialogue

/-! The chains of an attempt. A dialogue that heeds an order of methods asks for one chain after another in
this order, and for none once an answer was accepted; all channels do so, and all their chains start where
the guard was asked about. What is told of a whole attempt holds of any part of it. -/
namespace Herald

open Herald.Http

def Deed.request? : Deed → Option Request
  | .sent request => some request
  | _ => none

def Deed.requests (deeds : List Deed) : List Request := deeds.filterMap Deed.request?

@[simp] theorem Deed.requests_nil : requests [] = [] := rfl

@[simp] theorem Deed.requests_cons (deed : Deed) (deeds : List Deed) :
    requests (deed :: deeds) = deed.request?.toList ++ requests deeds := by
  cases deed <;> rfl

@[simp] theorem Deed.requests_append (a b : List Deed) : requests (a ++ b) = requests a ++ requests b := by
  simp [requests]

@[simp] theorem Deed.requests_map_sent (rs : List Request) : requests (rs.map .sent) = rs := by
  induction rs with
  | nil => rfl
  | cons r rs ih => rw [List.map_cons, requests_cons, ih]; rfl

theorem prefix_append_cases {α : Type} {part a b : List α} (front : part <+: a ++ b) :
    part <+: a ∨ ∃ rest, rest ≠ [] ∧ part = a ++ rest ∧ rest <+: b := by
  obtain ⟨later, whole⟩ := front
  rcases List.append_eq_append_iff.1 whole with ⟨as, rfl, -⟩ | ⟨bs, rfl, rest⟩
  · exact .inl (List.prefix_append _ _)
  · by_cases none_ : bs = []
    · exact .inl (by simp [none_])
    · exact .inr ⟨bs, none_, rfl, later, rest.symm⟩

def Http.Chain.Succeeds (accepts : Response → Bool) (c : Chain) : Prop :=
  ∃ response, c.answer = some (.ok response) ∧ accepts response = true

def Http.Chain.StopAtSuccess (accepts : Response → Bool) (chains : List Chain) : Prop :=
  chains.Pairwise fun earlier _ => ¬ earlier.Succeeds accepts

namespace Dialogue

/-- The chains of a dialogue, given the requests before it, and what it comes to. There is no outcome as long
as a verdict or an answer is waited for. -/
inductive Holds (client : Client) (world : World) :
    List Request → Dialogue → List Chain → Option Result → Prop
  | done {sent : List Request} {result : Except Failure Unit} :
    Holds client world sent (.done result) [] (some (.ok result))
  | crashed {sent : List Request} {crash : Crash} :
    Holds client world sent (.crashed crash) [] (some (.error crash))
  | unjudged {sent : List Request} {u : Url} {next : Except Failure Unit → Dialogue} :
    Holds client world sent (.check u next) [] none
  | judged {sent : List Request} {u : Url} {next : Except Failure Unit → Dialogue}
      {chains : List Chain} {outcome : Option Result} :
    Holds client world sent (next (world.guard u).verdict) chains outcome →
    Holds client world sent (.check u next) chains outcome
  | unsent {sent : List Request} {request : Request} {next : Except Failure Response → Dialogue}
      {failure : Failure} {chains : List Chain} {outcome : Option Result} :
    client.ready world sent request = .error failure →
    Holds client world sent (next (.error failure)) chains outcome →
    Holds client world sent (.ask request next) chains outcome
  | unanswered {sent : List Request} {request : Request}
      {next : Except Failure Response → Dialogue} {redirects : List Request} :
    client.ready world sent request = .ok () →
    client.Follows world [] sent request redirects none →
    Holds client world sent (.ask request next) [⟨request, redirects, none⟩] none
  | answered {sent : List Request} {request : Request} {next : Except Failure Response → Dialogue}
      {redirects : List Request} {answer : Except Failure Response} {chains : List Chain}
      {outcome : Option Result} :
    client.ready world sent request = .ok () →
    client.Follows world [] sent request redirects (some answer) →
    Holds client world ((request :: redirects).reverse ++ sent) (next answer) chains outcome →
    Holds client world sent (.ask request next) (⟨request, redirects, some answer⟩ :: chains) outcome

variable {client : Client} {world : World} {sent : List Request} {d : Dialogue} {chains : List Chain}
  {outcome : Option Result}

theorem Holds.inTurn (holds : d.Holds client world sent chains outcome) :
    Chain.InTurn client world sent chains := by
  induction holds with
  | judged _ ih => exact ih
  | unsent _ _ ih => exact ih
  | unanswered ready follows => exact ⟨ready, follows, by simp, trivial⟩
  | answered ready follows _ ih => exact ⟨ready, follows, fun _ => rfl, ih⟩
  | _ => trivial

theorem Holds.known (holds : d.Holds client world sent chains outcome) (comes : outcome.isSome) :
    ∀ c ∈ chains, c.answer.isSome := by
  induction holds with
  | judged _ ih => exact ih comes
  | unsent _ _ ih => exact ih comes
  | unanswered => cases comes
  | answered _ _ _ ih => exact List.forall_mem_cons.2 ⟨rfl, ih comes⟩
  | _ => simp

/-- A whole attempt makes the requests of its chains and comes to its outcome. -/
theorem exists_holds (client : Client) (world : World) (sent : List Request) (d : Dialogue) :
    ∃ chains, d.Holds client world sent chains
        (some ((d.talk client).course world sent).result) ∧
      Deed.requests ((d.talk client).course world sent).deeds = chains.flatMap Chain.requests := by
  induction d generalizing sent with
  | done result => exact ⟨[], .done, rfl⟩
  | crashed crash => exact ⟨[], .crashed, rfl⟩
  | check u next ih =>
    obtain ⟨chains, holds, made⟩ := ih (world.guard u).verdict sent
    exact ⟨chains, .judged holds, made⟩
  | ask request next ih =>
    rcases client.ready_cases world sent request with ready | ⟨failure, refused⟩
    · obtain ⟨redirects, answer, follows⟩ := client.exists_follows world [] sent request
      obtain ⟨chains, holds, made⟩ := ih answer ((request :: redirects).reverse ++ sent)
      have reaches := follows.reaches ready fun answer => (next answer).talk client
      refine ⟨⟨request, redirects, some answer⟩ :: chains, ?_, ?_⟩
      · have ends : (((ask request next).talk client).course world sent).result = _ := reaches.result
        rw [ends]
        exact .answered ready follows holds
      · have deeds : (((ask request next).talk client).course world sent).deeds = _ := reaches.deeds
        rw [deeds, Deed.requests_append, Deed.requests_map_sent, made]
        rfl
    · obtain ⟨chains, holds, made⟩ := ih (.error failure) sent
      have reaches : ((ask request next).talk client).Reaches world sent [] _ :=
        Client.reaches_of_not_ready refused
      rw [reaches.result, reaches.deeds]
      exact ⟨chains, .unsent refused holds, made⟩

theorem exists_holds_of_part {part : List Deed}
    (front : part <+: ((d.talk client).course world sent).deeds) (begun : part ≠ []) :
    ∃ chains, d.Holds client world sent chains none ∧
      Deed.requests part = chains.flatMap Chain.requests := by
  induction d generalizing sent part with
  | done result => exact absurd (List.prefix_nil.1 front) begun
  | crashed crash => exact absurd (List.prefix_nil.1 front) begun
  | check u next ih =>
    have deeds : (((check u next).talk client).course world sent).deeds = [.asked u, .answered] ++
        (((next (world.guard u).verdict).talk client).course world sent).deeds := rfl
    rw [deeds] at front
    rcases prefix_append_cases front with early | ⟨rest, more, rfl, within⟩
    · refine ⟨[], .unjudged, ?_⟩
      have silent := early.filterMap Deed.request?
      exact List.prefix_nil.1 silent
    · obtain ⟨chains, holds, made⟩ := ih _ within more
      exact ⟨chains, .judged holds, made⟩
  | ask request next ih =>
    rcases client.ready_cases world sent request with ready | ⟨failure, refused⟩
    · obtain ⟨redirects, answer, follows⟩ := client.exists_follows world [] sent request
      have deeds : (((ask request next).talk client).course world sent).deeds = _ :=
        (follows.reaches ready _).deeds
      rw [deeds] at front
      rcases prefix_append_cases front with early | ⟨rest, more, rfl, within⟩
      · obtain ⟨rs, inside, rfl⟩ := List.prefix_map_iff.1 early
        rcases List.prefix_cons_iff.1 inside with rfl | ⟨followed, rfl, within⟩
        · exact absurd rfl begun
        · exact ⟨[⟨request, followed, none⟩], .unanswered ready (follows.cut within),
            by rw [Deed.requests_map_sent]; simp [Chain.requests]⟩
      · obtain ⟨chains, holds, made⟩ := ih answer within more
        refine ⟨⟨request, redirects, some answer⟩ :: chains, .answered ready follows holds, ?_⟩
        rw [Deed.requests_append, Deed.requests_map_sent, made]
        rfl
    · have reaches : ((ask request next).talk client).Reaches world sent [] _ :=
        Client.reaches_of_not_ready refused
      rw [reaches.deeds] at front
      obtain ⟨chains, holds, made⟩ := ih _ front begun
      exact ⟨chains, .unsent refused holds, made⟩

/-- Asks with these methods in their order. The first accepted answer makes it a success, and nothing else
does. -/
def Heeds (accepts : Response → Bool) : Dialogue → List Method → Prop
  | .done result, _ => ∃ failure, result = .error failure
  | .crashed _, _ => True
  | .check _ next, methods => ∀ verdict, (next verdict).Heeds accepts methods
  | .ask request next, methods =>
    ∃ rest, (request.method :: rest).Sublist methods ∧
      (∀ response, accepts response = true → next (.ok response) = .done (.ok ())) ∧
      ∀ answer, (∀ response, answer = .ok response → accepts response = false) →
        (next answer).Heeds accepts rest

variable {accepts : Response → Bool} {methods : List Method}

/-- The chains of a dialogue that heeds an order of methods: none comes after one that succeeds, and the
dialogue is a success if one of them is. -/
structure Serves (accepts : Response → Bool) (methods : List Method) (chains : List Chain)
    (succeeded : Prop) : Prop where
  methods : (chains.map (·.first.method)).Sublist methods
  stops : Chain.StopAtSuccess accepts chains
  success : (∃ c ∈ chains, c.Succeeds accepts) ↔ succeeded

theorem serves_nil {succeeded : Prop} (fails : ¬ succeeded) :
    Serves accepts methods [] succeeded :=
  ⟨List.nil_sublist _, .nil, by simpa using fails⟩

theorem Serves.cons {c : Chain} {rest : List Method} {succeeded : Prop}
    (serves : Serves accepts rest chains succeeded) (fails : ¬ c.Succeeds accepts)
    (order : (c.first.method :: rest).Sublist methods) :
    Serves accepts methods (c :: chains) succeeded := by
  refine ⟨(serves.methods.cons_cons _).trans order, ?_, ?_⟩
  · exact List.pairwise_cons.2 ⟨fun _ _ => fails, serves.stops⟩
  · simpa [fails] using serves.success

theorem serves_of_holds (heeds : d.Heeds accepts methods)
    (holds : d.Holds client world sent chains outcome) :
    Serves accepts methods chains (outcome = some (.ok (.ok ()))) := by
  induction holds generalizing methods with
  | done =>
    obtain ⟨failure, rfl⟩ := heeds
    exact serves_nil (by simp)
  | crashed => exact serves_nil (by simp)
  | unjudged => exact serves_nil (by simp)
  | judged _ ih => exact ih (heeds _)
  | unsent _ _ ih =>
    obtain ⟨rest, order, -, onward⟩ := heeds
    have serves := ih (onward _ (by simp))
    exact ⟨serves.methods.trans ((List.sublist_cons_self _ _).trans order), serves.stops,
      serves.success⟩
  | unanswered =>
    obtain ⟨rest, order, -, -⟩ := heeds
    refine .cons (serves_nil (by simp)) ?_ order
    rintro ⟨response, none_, -⟩
    cases none_
  | @answered _ request next redirects answer chains outcome _ _ holds ih =>
    obtain ⟨rest, order, accepted, onward⟩ := heeds
    by_cases succeeds : ∃ response, answer = .ok response ∧ accepts response = true
    · obtain ⟨response, rfl, good⟩ := succeeds
      rw [accepted response good] at holds
      cases holds
      refine ⟨((List.nil_sublist rest).cons_cons _).trans order, List.pairwise_singleton _ _, ?_⟩
      simpa [Chain.Succeeds] using good
    · refine .cons (ih (onward answer fun response is => ?_)) ?_ order
      · simpa using fun good => succeeds ⟨response, is, good⟩
      · rintro ⟨response, is, good⟩
        exact succeeds ⟨response, Option.some.inj is, good⟩

theorem heeds_ask_done {request : Request} {result : Except Failure Response → Except Failure Unit}
    (order : [request.method].Sublist methods)
    (accepted : ∀ response, accepts response = true → result (.ok response) = .ok ())
    (refused : ∀ response, accepts response = false → ∃ failure, result (.ok response) = .error failure)
    (failed : ∀ failure, result (.error failure) = .error failure) :
    (ask request fun answer => .done (result answer)).Heeds accepts methods := by
  refine ⟨[], order, fun response good => congrArg done (accepted response good),
    fun answer bad => ?_⟩
  cases answer with
  | error failure => exact ⟨failure, failed failure⟩
  | ok response => exact refused response (bad response rfl)

theorem heeds_reviewed {address : Except Failure Url} {next : Url → Dialogue}
    (onward : ∀ u, (next u).Heeds accepts methods) : (reviewed address next).Heeds accepts methods := by
  cases address with
  | error failure => exact ⟨failure, rfl⟩
  | ok u =>
    intro verdict
    cases verdict with
    | error failure => exact ⟨failure, rfl⟩
    | ok _ => exact onward u

end Dialogue

namespace Channel

def methods : Channel → List Method
  | raw => [.post]
  | weCom => [.post]
  | bark => [.post, .get]

def accepts : Channel → Response → Bool
  | weCom, response => response.isSuccess && (WeCom.answerOf response.body.flatten).code == 0
  | _, response => response.isSuccess

end Channel

@[simp] theorem Http.Request.method_to (method : Method) (u : Url) (contentType : Option String)
    (body : List Char) : (Request.to method u contentType body).method = method := by
  unfold Request.to
  split <;> rfl

theorem Http.Response.ensureSuccess_of_true {r : Response} (success : r.isSuccess = true)
    (channel : Channel) : r.ensureSuccess channel = .ok r := if_pos success

theorem Http.Response.ensureSuccess_of_false {r : Response} (fails : r.isSuccess = false)
    (channel : Channel) : ∃ failure, r.ensureSuccess channel = .error failure :=
  ⟨_, if_neg (by simp [fails])⟩

theorem Raw.heeds_onward (payload : Payload) (u : Url) :
    (onward payload u).Heeds Channel.raw.accepts Channel.raw.methods := by
  refine Dialogue.heeds_ask_done (by simp [Channel.methods]) (fun response good => ?_)
    (fun response bad => ?_) fun _ => rfl
  · simp only [Except.bind, response.ensureSuccess_of_true good]
    rfl
  · obtain ⟨failure, fails⟩ := response.ensureSuccess_of_false bad .raw
    exact ⟨failure, by simp only [Except.bind, fails]; rfl⟩

theorem WeCom.heeds_onward (event : Event) (u : Url) :
    (onward event u).Heeds Channel.weCom.accepts Channel.weCom.methods := by
  unfold onward
  split
  · trivial
  · refine Dialogue.heeds_ask_done (by simp [Channel.methods]) (fun response good => ?_)
      (fun response bad => ?_) fun _ => rfl
    · simp only [Channel.accepts, Bool.and_eq_true, beq_iff_eq] at good
      simp [Except.bind, response.ensureSuccess_of_true good.1, judge, good.2]
    · cases success : response.isSuccess with
      | false =>
        obtain ⟨failure, fails⟩ := response.ensureSuccess_of_false success .weCom
        exact ⟨failure, by simp only [Except.bind, fails]⟩
      | true =>
        have refuses : (answerOf response.body.flatten).code ≠ 0 := by
          simpa [Channel.accepts, success] using bad
        simp [Except.bind, response.ensureSuccess_of_true success, judge, refuses]

namespace Bark

theorem heeds_askPath (u : Url) (title body : List Char) {methods : List Method}
    (order : [Method.get].Sublist methods) :
    (askPath u title body).Heeds Channel.bark.accepts methods := by
  unfold askPath
  split
  · exact ⟨_, rfl⟩
  · refine Dialogue.heeds_ask_done (by simpa using order) (fun response good => ?_)
      (fun response bad => ?_) fun _ => rfl
    · simp only [Except.bind, response.ensureSuccess_of_true good]
      rfl
    · obtain ⟨failure, fails⟩ := response.ensureSuccess_of_false bad .bark
      exact ⟨failure, by simp only [Except.bind, fails]; rfl⟩

theorem heeds_onward (forceGet : Bool) (event : Event) (u : Url) :
    (onward forceGet event u).Heeds Channel.bark.accepts Channel.bark.methods := by
  unfold onward
  split
  · trivial
  · unfold askPush
    split
    · exact heeds_askPath _ _ _ (by simp [Channel.methods])
    · refine ⟨[.get], by simp [Channel.methods], fun response good => if_pos good,
        fun answer bad => ?_⟩
      have refused : accepted answer = false := by
        cases answer with
        | error failure => rfl
        | ok response => exact bad response rfl
      simp only [refused, Bool.false_eq_true, if_false]
      exact heeds_askPath _ _ _ (List.Sublist.refl _)

end Bark

/-- Every channel asks in the order of its methods and stops at the first success. -/
theorem Sender.heeds_dialogue (s : Sender) (channel : Channel) (target : String) (event : Event) :
    (s.dialogue channel target event).Heeds channel.accepts channel.methods := by
  refine Dialogue.heeds_reviewed fun u => ?_
  cases channel with
  | raw =>
    simp only [onward]
    cases s.converter event target with
    | error fault => exact ⟨_, rfl⟩
    | ok payload => exact Raw.heeds_onward payload u
  | weCom => exact WeCom.heeds_onward event u
  | bark => exact Bark.heeds_onward s.forceGet event u

end Herald
