import Herald.Channel.Body
import Herald.Http.Snippet
import Herald.Locator
import Herald.Url.Segments

/-! The channel of push notifications. A target with a device key is tried with a posted push first,
which not every server knows; the notification then goes into the path of a request. -/
namespace Herald.Bark

open Herald.Http Herald.Text

def pushUrl (u : Url) : Url := { u.withPath "/push".toList with query := none, fragment := none }

def message (key : List Char) (title body : List Char) : List Char :=
  Json.writeObject [("device_key", Json.writeText key), ("title", Json.writeText title),
    ("body", Json.writeText body)]

def pathUrl (u : Url) (title body : List Char) : Url :=
  (u.popEmptySegment.pushSegment title).pushSegment body

def pushPath (client : Client) (u : Url) (title body : List Char) : Talk :=
  if u.isOpaque then .done (.error (.validation .opaqueTarget))
  else client.send (.to .get (pathUrl u title body)) fun answer =>
    .done (answer.bind fun response => (response.ensureSuccess .bark).map fun _ => ())

def accepted (answer : Except Failure Response) : Bool :=
  match answer with
  | .ok response => response.isSuccess
  | .error _ => false

def push (client : Client) (forceGet : Bool) (u : Url) (title body : List Char) : Talk :=
  match if forceGet then none else Locator.deviceKey? u.path with
  | none => pushPath client u title body
  | some key =>
    client.send (.to .post (pushUrl u) "application/json; charset=utf-8" (message key title body))
      fun answer => if accepted answer then .done (.ok ()) else pushPath client u title body

def deliver (client : Client) (forceGet : Bool) (target : String) (event : Event) : Talk :=
  match Guard.target? target with
  | .error objection => .done (.error (.validation objection))
  | .ok u =>
    .check u fun verdict =>
      match verdict with
      | .error failure => .done (.error failure)
      | .ok () =>
        match event.body with
        | .error _ => .crashed .quantity
        | .ok body => push client forceGet u (trim event.activity.title.toList) (trim body.toList)

end Herald.Bark
