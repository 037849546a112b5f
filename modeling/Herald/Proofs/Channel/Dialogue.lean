import Herald.Channel.Sender
import Herald.Proofs.Http.Chain

/-! An attempt of a channel as a dialogue, which asks the guard and asks for the answers at the ends of
chains. Whatever the answers are, the chains of a dialogue are sent in turn, and its outcome is known unless
it still waits for an answer. -/
namespace Herald

open Herald.Http Herald.Text

inductive Dialogue
  | done (result : Except Failure Unit)
  | crashed (crash : Crash)
  | check (u : Url) (next : Except Failure Unit → Dialogue)
  | ask (request : Request) (next : Except Failure Response → Dialogue)

namespace Dialogue

def talk (client : Client) : Dialogue → Talk
  | .done result => .done result
  | .crashed crash => .crashed crash
  | .check u next => .check u fun verdict => (next verdict).talk client
  | .ask request next => client.send request fun answer => (next answer).talk client

def reviewed (address : Except Failure Url) (next : Url → Dialogue) : Dialogue :=
  match address with
  | .error failure => .done (.error failure)
  | .ok u =>
    .check u fun verdict =>
      match verdict with
      | .error failure => .done (.error failure)
      | .ok () => next u

end Dialogue

def Raw.onward (payload : Payload) (u : Url) : Dialogue :=
  .ask (.to .post u "application/json" payload.json) fun answer =>
    .done (answer.bind fun response => (response.ensureSuccess .raw).map fun _ => ())

def WeCom.onward (event : Event) (u : Url) : Dialogue :=
  match event.groupText with
  | .error _ => .crashed .quantity
  | .ok text =>
    .ask (.to .post u "application/json" (message text)) fun answer =>
      .done (answer.bind fun response => (response.ensureSuccess .weCom).bind judge)

namespace Bark

def askPath (u : Url) (title body : List Char) : Dialogue :=
  if u.isOpaque then .done (.error (.validation .opaqueTarget))
  else .ask (.to .get (pathUrl u title body)) fun answer =>
    .done (answer.bind fun response => (response.ensureSuccess .bark).map fun _ => ())

def askPush (forceGet : Bool) (u : Url) (title body : List Char) : Dialogue :=
  match if forceGet then none else Locator.deviceKey? u.path with
  | none => askPath u title body
  | some key =>
    .ask (.to .post (pushUrl u) "application/json; charset=utf-8" (message key title body))
      fun answer => if accepted answer then .done (.ok ()) else askPath u title body

def onward (forceGet : Bool) (event : Event) (u : Url) : Dialogue :=
  match event.body with
  | .error _ => .crashed .quantity
  | .ok body => askPush forceGet u (trim event.activity.title.toList) (trim body.toList)

end Bark

namespace Sender

def address? (s : Sender) (channel : Channel) (target : String) (event : Event) :
    Except Failure Url :=
  match channel with
  | .raw =>
    match s.converter event target with
    | .error fault => .error (.conversion fault)
    | .ok payload => (Guard.target? payload.url).mapError .validation
  | _ => (Guard.target? target).mapError .validation

def onward (s : Sender) (channel : Channel) (target : String) (event : Event) : Url → Dialogue :=
  match channel with
  | .raw =>
    match s.converter event target with
    | .error fault => fun _ => .done (.error (.conversion fault))
    | .ok payload => Raw.onward payload
  | .weCom => WeCom.onward event
  | .bark => Bark.onward s.forceGet event

def dialogue (s : Sender) (channel : Channel) (target : String) (event : Event) : Dialogue :=
  .reviewed (s.address? channel target event) (s.onward channel target event)

end Sender

namespace Dialogue

theorem talk_reviewed (client : Client) (address : Except Failure Url) (next : Url → Dialogue) :
    (reviewed address next).talk client = match address with
      | .error failure => .done (.error failure)
      | .ok u =>
        .check u fun verdict =>
          match verdict with
          | .error failure => .done (.error failure)
          | .ok () => (next u).talk client := by
  cases address with
  | error failure => rfl
  | ok u =>
    simp only [reviewed, talk]
    congr 1
    funext verdict
    cases verdict <;> rfl

end Dialogue

theorem Bark.talk_askPath (client : Client) (u : Url) (title body : List Char) :
    (askPath u title body).talk client = pushPath client u title body := by
  unfold askPath pushPath
  split <;> rfl

theorem Bark.talk_askPush (client : Client) (forceGet : Bool) (u : Url) (title body : List Char) :
    (askPush forceGet u title body).talk client = push client forceGet u title body := by
  unfold askPush push
  cases if forceGet then none else Locator.deviceKey? u.path with
  | none => exact talk_askPath client u title body
  | some key =>
    simp only [Dialogue.talk]
    congr 1
    funext answer
    split
    · rfl
    · exact talk_askPath client u title body

theorem Sender.talk_dialogue (s : Sender) (channel : Channel) (target : String) (event : Event) :
    (s.dialogue channel target event).talk s.client = s.send channel target event := by
  rw [dialogue, Dialogue.talk_reviewed]
  cases channel with
  | raw =>
    simp only [address?, onward, send, Raw.deliver]
    cases s.converter event target with
    | error fault => rfl
    | ok payload =>
      simp only [Raw.post]
      cases Guard.target? payload.url <;> rfl
  | weCom =>
    simp only [address?, onward, send, WeCom.deliver, WeCom.onward]
    cases Guard.target? target with
    | error objection => rfl
    | ok u => cases event.groupText <;> rfl
  | bark =>
    simp only [address?, onward, send, Bark.deliver, Bark.onward]
    cases Guard.target? target with
    | error objection => rfl
    | ok u =>
      cases event.body with
      | error _ => rfl
      | ok body => simp only [Bark.talk_askPush]; rfl

end Herald
