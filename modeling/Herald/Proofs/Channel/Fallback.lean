import Herald.Proofs.Channel.Asks
import Herald.Proofs.Channel.Carried
import Herald.Proofs.Channel.Origin
import Herald.Proofs.Json.Composed
import Herald.Proofs.Locator.Rules
import Herald.Proofs.Order.Total

/-! A push and what it falls back to. A notification with a device key asks for a posted push, and unless that succeeds
for the request with the notification in its path, which alone decides how the attempt ends. -/
namespace Herald

open Herald.Http Herald.Text

namespace Http

theorem Request.keeps_to (method : Method) (u : Url) (contentType : Option String) (body : List Char) :
    (Request.to method u contentType body).url.path = u.path ∧
      (Request.to method u contentType body).url.query = u.query ∧
      (Request.to method u contentType body).url.fragment = u.fragment ∧
      (Request.to method u contentType body).body = body := by
  unfold Request.to
  split <;> exact ⟨rfl, rfl, rfl, rfl⟩

theorem isWeb_of_sharesOrigin {u v : Url} (same : u.SharesOrigin v) : isWeb u = isWeb v := by
  rw [isWeb, same.scheme, isWeb]

end Http

namespace Asked

def IsSent (a : Asked) : Prop := a.made.head? = some a.request

def Succeeds (a : Asked) : Prop :=
  ∃ response, a.answer = .ok response ∧ 200 ≤ response.status ∧ response.status < 300

inductive Fails (channel : Channel) (a : Asked) : Failure → Prop
  | unanswered {failure : Failure} : a.answer = .error failure → Fails channel a failure
  | status {response : Response} : a.answer = .ok response → ¬ (200 ≤ response.status ∧ response.status < 300) →
    Fails channel a (.status channel response.status (snippet? response.body))

/-- What becomes of a request to the web: it is sent if the library can write it and there is a connection for it.
One that the library cannot write is not sent and comes to an error. -/
structure IsHandled (client : Client) (world : World) (before : List Request) (a : Asked) : Prop where
  obtains : client.Obtains world before a.request a.made a.answer
  isSent_iff : a.IsSent ↔ client.library.writes a.request.url = true ∧
    client.connect a.request (world.lookUp before a.request) = .ok ()
  unwritten : client.library.writes a.request.url = false →
    a.made = [] ∧ a.answer = .error (.http (.building a.request.url.text))

end Asked

namespace Bark

structure Pushes (u : Url) (key title body : List Char) (request : Request) : Prop where
  method : request.method = .post
  origin : request.url.SharesOrigin u
  path : request.url.path = "/push".toList
  query : request.url.query = none
  fragment : request.url.fragment = none
  body : ∀ t, Json.IsText t request.body ↔ t = .object [(some "device_key".toList, .string (some key)),
    (some "title".toList, .string (some title)), (some "body".toList, .string (some body))]

variable {client : Client} {world : World} {sent : List Request} {u : Url} {title body : List Char}
  {asks : List Asked} {result : Result}

theorem isOpaque_of_isAbsolute (absolute : Url.Path.IsAbsolute u.path) : u.isOpaque = false := by
  have slash : u.path.head? = some '/' := absolute
  simp [Url.isOpaque, slash]

theorem pushes_to (web : u.family = .web) (absolute : Url.Path.IsAbsolute u.path) (key title body : List Char) :
    Pushes u key title body
      (.to .post (pushUrl u) "application/json; charset=utf-8" (message key title body)) := by
  have path : (pushUrl u).path = "/push".toList := by
    simp only [pushUrl, Url.withPath, isOpaque_of_isAbsolute absolute, web, Bool.false_eq_true, if_false]
    decide
  have written := Json.isText_writeObject_iff [("device_key", key), ("title", title), ("body", body)]
  obtain ⟨keeps, query, fragment, content⟩ :=
    Request.keeps_to .post (pushUrl u) "application/json; charset=utf-8" (message key title body)
  refine ⟨Request.method_to .., (Request.sharesOrigin_to ..).trans (sharesOrigin_pushUrl u), keeps.trans path, query,
    fragment, fun t => ?_⟩
  rw [content]
  exact written t

end Bark

namespace Asked

variable {a : Asked}

theorem isHandled {client : Client} {world : World} {before : List Request} {u : Url} (web : isWeb u = true)
    (near : a.request.url.SharesOrigin u) (obtains : client.Obtains world before a.request a.made a.answer) :
    a.IsHandled client world before := by
  have builds : client.library.canBuild a.request.url = client.library.writes a.request.url := by
    rw [Library.canBuild, isWeb_of_sharesOrigin near, web, Bool.true_and]
  refine ⟨obtains, ?_, fun unwritten => obtains.of_not_ready ?_⟩
  · rw [IsSent, obtains.head?_eq_iff, Client.ready_eq_ok_iff, builds]
  · rw [Client.ready, builds, unwritten, if_neg Bool.false_ne_true]

theorem succeeds_iff_accepted : a.Succeeds ↔ Bark.accepted a.answer = true := by
  unfold Succeeds Bark.accepted
  cases a.answer with
  | ok response => simp [isSuccess_iff]
  | error failure => simp

def settled (a : Asked) (channel : Channel) : Except Failure Unit :=
  a.answer.bind fun response => (response.ensureSuccess channel).map fun _ => ()

theorem settled_cases (a : Asked) (channel : Channel) : (a.Succeeds ∧ a.settled channel = .ok ()) ∨
    ¬ a.Succeeds ∧ ∃ failure, a.settled channel = .error failure ∧ a.Fails channel failure := by
  unfold settled
  cases answer : a.answer with
  | error failure => exact .inr ⟨by simp [Succeeds, answer], failure, rfl, .unanswered answer⟩
  | ok response =>
    cases success : response.isSuccess with
    | true => exact .inl ⟨⟨response, answer, (isSuccess_iff response).1 success⟩,
        by simp [Except.bind, Response.ensureSuccess, success, Except.map]⟩
    | false =>
      have bad : ¬ (200 ≤ response.status ∧ response.status < 300) := by
        rw [← isSuccess_iff, success]
        exact Bool.false_ne_true
      refine .inr ⟨?_, _, ?_, .status answer bad⟩
      · rintro ⟨other, same, good⟩
        rw [answer] at same
        exact bad (Except.ok.inj same ▸ good)
      · simp [Except.bind, Response.ensureSuccess, success, Except.map]

theorem settled_eq_ok_iff (a : Asked) (channel : Channel) : a.settled channel = .ok () ↔ a.Succeeds := by
  rcases a.settled_cases channel with ⟨succeeds, ends⟩ | ⟨fails, failure, ends, -⟩
  · exact iff_of_true ends succeeds
  · exact iff_of_false (by simp [ends]) fails

theorem fails_of_settled {channel : Channel} {failure : Failure} (ends : a.settled channel = .error failure) :
    a.Fails channel failure := by
  rcases a.settled_cases channel with ⟨-, good⟩ | ⟨-, own, bad, fails⟩
  · rw [ends] at good
    cases good
  · rw [ends] at bad
    exact Except.error.inj bad ▸ fails

end Asked

namespace Bark

variable {client : Client} {world : World} {sent : List Request} {u : Url} {title body : List Char}
  {asks : List Asked} {result : Result}

theorem runs_askPath (solid : u.isOpaque = false)
    (runs : (askPath u title body).Runs client world sent asks result) : ∃ got : Asked,
      asks = [got] ∧ got.request = .to .get (pathUrl u title body) ∧ result = .ok (got.settled .bark) := by
  rw [askPath, solid] at runs
  obtain ⟨got, rest, rfl, is, ends⟩ := runs.of_ask
  obtain ⟨rfl, rfl⟩ := ends.of_done
  exact ⟨got, rfl, is, rfl⟩

theorem runs_askPush {forceGet : Bool} (solid : u.isOpaque = false)
    (runs : (askPush forceGet u title body).Runs client world sent asks result) :
    ((forceGet = true ∨ Locator.deviceKey? u.path = none) ∧ ∃ got : Asked, asks = [got] ∧
      got.request = .to .get (pathUrl u title body) ∧ result = .ok (got.settled .bark)) ∨
    ∃ key, forceGet = false ∧ Locator.deviceKey? u.path = some key ∧ ∃ posted : Asked,
      posted.request =
        .to .post (pushUrl u) "application/json; charset=utf-8" (message key title body) ∧
      (posted.Succeeds ∧ asks = [posted] ∧ result = .ok (.ok ()) ∨
        ¬ posted.Succeeds ∧ ∃ got : Asked, asks = [posted, got] ∧
          got.request = .to .get (pathUrl u title body) ∧ result = .ok (got.settled .bark)) := by
  rw [askPush] at runs
  cases found : if forceGet then none else Locator.deviceKey? u.path with
  | none =>
    rw [found] at runs
    refine .inl ⟨?_, runs_askPath solid runs⟩
    cases forceGet with
    | true => exact .inl rfl
    | false => exact .inr found
  | some key =>
    rw [found] at runs
    obtain ⟨posted, rest, rfl, is, goes⟩ := runs.of_ask
    have free : forceGet = false := by
      cases forceGet with
      | true => cases found
      | false => rfl
    refine .inr ⟨key, free, by simpa [free] using found, posted, is, ?_⟩
    rw [Asked.succeeds_iff_accepted]
    cases accepts : accepted posted.answer with
    | true =>
      rw [accepts] at goes
      obtain ⟨rfl, rfl⟩ := goes.of_done
      exact .inl ⟨rfl, rfl, rfl⟩
    | false =>
      rw [accepts] at goes
      obtain ⟨got, rfl, asked, ends⟩ := runs_askPath solid goes
      exact .inr ⟨Bool.false_ne_true, got, rfl, asked, ends⟩

theorem sharesOrigin_of_runs {forceGet : Bool} (solid : u.isOpaque = false)
    (runs : (askPush forceGet u title body).Runs client world sent asks result) :
    ∀ a ∈ asks, a.request.url.SharesOrigin u := by
  have get {got : Asked} (asked : got.request = .to .get (pathUrl u title body)) : got.request.url.SharesOrigin u := by
    rw [asked]
    exact (Request.sharesOrigin_to ..).trans (sharesOrigin_pathUrl u title body)
  have post {posted : Asked} {content : Option String} {text : List Char}
      (asked : posted.request = .to .post (pushUrl u) content text) : posted.request.url.SharesOrigin u := by
    rw [asked]
    exact (Request.sharesOrigin_to ..).trans (sharesOrigin_pushUrl u)
  rcases runs_askPush solid runs with ⟨-, got, rfl, asked, -⟩ | ⟨key, -, -, posted, pushes, ends⟩
  · exact List.forall_mem_singleton.2 (get asked)
  · rcases ends with ⟨-, rfl, -⟩ | ⟨-, got, rfl, asked, -⟩
    · exact List.forall_mem_singleton.2 (post pushes)
    · exact List.forall_mem_cons.2 ⟨post pushes, List.forall_mem_singleton.2 (get asked)⟩

end Bark

namespace Sender

open Herald.Locator

theorem runs_askPush (s : Sender) {world : World} {target : String} {event : Event} {u : Url} {text : String}
    {asks : List Asked} {outcome : Result} (named : Guard.target? target = .ok u)
    (passed : (world.guard u).verdict = .ok ()) (made : event.body = .ok text)
    (runs : (s.dialogue .bark target event).Runs s.client world [] asks outcome) :
    (Bark.askPush s.forceGet u (trim event.activity.title.toList) (trim text.toList)).Runs s.client world []
      asks outcome := by
  have address : s.address? .bark target event = .ok u := by simp only [address?, named]; rfl
  rw [dialogue, address, Dialogue.reviewed] at runs
  have onward := runs.of_check
  simp only [passed, Sender.onward, Bark.onward, made] at onward
  exact onward

/-- A push falls back exactly. An attempt whose target the guard lets pass, for an event that has a body, asks for a
push if and only if none is forced to be a plain request and the first part of the path is a device key. The push goes
to the same server; it tells the key, the title and the body, both without blanks around them, and nothing else. The
plain request is asked for if and only if there is no push or the push comes to no success, whatever keeps it from one,
and then after it. The attempt succeeds if and only if the last request that was asked for does, and every failure is
that of the plain request. So it is on every library, whichever addresses this can write. -/
theorem push_falls_back (s : Sender) (world : World) (target : String) (event : Event) {u : Url}
    (named : Guard.target? target = .ok u) (web : isWeb u = true) (passed : (world.guard u).verdict = .ok ())
    (word : Order.sumIn event.memo.content < Order.quantityLimit) :
    ∃ text, event.body = .ok text ∧
      (∃ asks outcome, (s.dialogue .bark target event).Runs s.client world [] asks outcome) ∧
      ∀ asks outcome, (s.dialogue .bark target event).Runs s.client world [] asks outcome →
        let title := trim event.activity.title.toList
        let body := trim text.toList
        (∀ front a back, asks = front ++ a :: back →
          a.IsHandled s.client world (front.flatMap Asked.made).reverse) ∧
        ∃ (posted got : Option Asked) (result : Except Failure Unit),
          asks = posted.toList ++ got.toList ∧
          (s.send .bark target event).converse world [] = ⟨.ok result, (asks.flatMap Asked.made).reverse⟩ ∧
          (posted.isSome = true ↔ s.forceGet = false ∧ ∃ key, (parts u.path).head? = some key ∧ IsKey key) ∧
          (∀ p, posted = some p →
            ∃ key, (parts u.path).head? = some key ∧ Bark.Pushes u key title body p.request) ∧
          (got.isSome = true ↔ ∀ p, posted = some p → ¬ p.Succeeds) ∧
          (∀ g, got = some g → g.request = .to .get (Bark.pathUrl u title body)) ∧
          (result = .ok () ↔ ∃ last, asks.getLast? = some last ∧ last.Succeeds) ∧
          ∀ failure, result = .error failure → ∃ g, got = some g ∧ g.Fails .bark failure := by
  obtain ⟨text, made⟩ : ∃ text, event.body = .ok text := by
    rcases event.body_cases with ⟨-, made⟩ | ⟨large, -⟩
    · exact made
    · exact absurd word (Nat.not_lt.2 large)
  have family : u.family = .web := by
    simp only [isWeb, Bool.or_eq_true, decide_eq_true_eq] at web
    exact Url.family_of_web web
  have absolute := Url.isAbsolute_of_parse (Guard.parse_of_target? named) family
  refine ⟨text, made, Dialogue.exists_runs .., fun asks outcome runs => ?_⟩
  intro title body
  have solid := Bark.isOpaque_of_isAbsolute absolute
  have pushing := s.runs_askPush named passed made runs
  refine ⟨fun front a back split => ?_, ?_⟩
  · have near := Bark.sharesOrigin_of_runs solid pushing a (by rw [split]; simp)
    exact Asked.isHandled web near (by simpa using runs.obtains split)
  have whole := runs.converse
  rw [talk_dialogue, List.append_nil] at whole
  rcases Bark.runs_askPush solid pushing with
    ⟨keyless, got, rfl, asked, rfl⟩ | ⟨key, free, found, posted, pushes, ends⟩
  · have none_ : ¬ (s.forceGet = false ∧ ∃ key, (parts u.path).head? = some key ∧ IsKey key) := by
      rintro ⟨free, key, isKey⟩
      rw [← deviceKey?_eq_some_iff] at isKey
      rcases keyless with forced | keyless
      · rw [free] at forced; cases forced
      · rw [keyless] at isKey; cases isKey
    refine ⟨none, some got, got.settled .bark, rfl, whole, ?_, ?_, ?_, ?_, ?_, ?_⟩
    · exact iff_of_false Bool.false_ne_true none_
    · rintro p ⟨⟩
    · refine iff_of_true rfl ?_
      rintro p ⟨⟩
    · rintro g ⟨⟩
      exact asked
    · rw [got.settled_eq_ok_iff]
      simp
    · exact fun failure fails => ⟨got, rfl, Asked.fails_of_settled fails⟩
  · obtain ⟨opens, isKey⟩ := deviceKey?_eq_some_iff.1 found
    have pushed : Bark.Pushes u key title body posted.request := pushes ▸ Bark.pushes_to family absolute key title body
    have tells (p : Asked) (is : some posted = some p) :
        ∃ key, (parts u.path).head? = some key ∧ Bark.Pushes u key title body p.request := by
      obtain rfl := Option.some.inj is
      exact ⟨key, opens, pushed⟩
    rcases ends with ⟨succeeds, rfl, rfl⟩ | ⟨fails, got, rfl, asked, rfl⟩
    · refine ⟨some posted, none, .ok (), rfl, whole, ?_, tells, ?_, ?_, ?_, ?_⟩
      · exact iff_of_true rfl ⟨free, key, opens, isKey⟩
      · exact iff_of_false Bool.false_ne_true fun all => all posted rfl succeeds
      · rintro g ⟨⟩
      · exact iff_of_true rfl ⟨posted, rfl, succeeds⟩
      · rintro failure ⟨⟩
    · refine ⟨some posted, some got, got.settled .bark, rfl, whole, ?_, tells, ?_, ?_, ?_, ?_⟩
      · exact iff_of_true rfl ⟨free, key, opens, isKey⟩
      · refine iff_of_true rfl ?_
        rintro p ⟨⟩
        exact fails
      · rintro g ⟨⟩
        exact asked
      · rw [got.settled_eq_ok_iff]
        simp
      · exact fun failure ends => ⟨got, rfl, Asked.fails_of_settled ends⟩

/-- The server of a device key is asked for the push first, whatever it makes of it. -/
theorem push_falls_back_of_key :
    let host : Host := .literal (.v6 0x20010db8000000000000000000000001)
    let u : Url := ⟨"http".toList, some { host := some host }, "/a1b2c3d4e5f6g7h8/x".toList, none, none⟩
    let event : Event := ⟨.created, { creator := "users/1", content := " hi " }⟩
    let world : World :=
      { guard := fun _ => {}, peer := fun _ request => some ⟨if request.method = .post then 404 else 200, none, []⟩ }
    Guard.target? "http://[2001:db8::1]/a1b2c3d4e5f6g7h8/x" = .ok u ∧ isWeb u = true ∧
      (world.guard u).verdict = .ok () ∧ Order.sumIn event.memo.content < Order.quantityLimit ∧
      ∃ first rest outcome, (({} : Sender).dialogue .bark "http://[2001:db8::1]/a1b2c3d4e5f6g7h8/x" event).Runs
          .guarded world [] (first :: rest) outcome ∧
        Bark.Pushes u "a1b2c3d4e5f6g7h8".toList "Memo Created".toList "hi".toList first.request := by
  intro host u event world
  have named : Guard.target? "http://[2001:db8::1]/a1b2c3d4e5f6g7h8/x" = .ok u := by decide +kernel
  have web : isWeb u = true := by decide
  have word : Order.sumIn event.memo.content < Order.quantityLimit := by decide +kernel
  have opens : (parts u.path).head? = some "a1b2c3d4e5f6g7h8".toList := by decide
  have isKey : IsKey "a1b2c3d4e5f6g7h8".toList := isDeviceKey_iff.1 (by decide)
  refine ⟨named, web, rfl, word, ?_⟩
  obtain ⟨text, made, ⟨asks, outcome, runs⟩, falls⟩ := push_falls_back {} world _ event named web rfl word
  have told : event.body = .ok " hi " := by decide +kernel
  cases made.symm.trans told
  obtain ⟨-, posted, got, -, rfl, -, pushes, tells, -⟩ := falls asks outcome runs
  obtain ⟨first, rfl⟩ := Option.isSome_iff_exists.1 (pushes.2 ⟨rfl, _, opens, isKey⟩)
  obtain ⟨key, same, told⟩ := tells first rfl
  cases opens.symm.trans same
  have trims : trim event.activity.title.toList = "Memo Created".toList ∧ trim " hi ".toList = "hi".toList := by
    decide +kernel
  rw [trims.1, trims.2] at told
  exact ⟨first, _, outcome, runs, told⟩

end Sender

end Herald
