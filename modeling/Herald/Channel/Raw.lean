import Herald.Channel.Payload
import Herald.Http.Snippet

/-! The raw channel: the payload is posted as JSON. -/
namespace Herald.Raw

open Herald.Http

def post (client : Client) (payload : Payload) : Talk :=
  match Guard.target? payload.url with
  | .error objection => .done (.error (.validation objection))
  | .ok u =>
    .check u fun verdict =>
      match verdict with
      | .error failure => .done (.error failure)
      | .ok () =>
        client.send (.to .post u "application/json" payload.json) fun answer =>
          .done (answer.bind fun response => (response.ensureSuccess .raw).map fun _ => ())

def deliver (client : Client) (converter : Converter) (target : String) (event : Event) : Talk :=
  match converter event target with
  | .error fault => .done (.error (.conversion fault))
  | .ok payload => post client payload

end Herald.Raw
