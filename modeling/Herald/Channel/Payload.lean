import Herald.Event
import Herald.Owner

/-! The body of a request to a raw receiver: the event as JSON. The creator is written in its plain
form; an event whose creator is no owner has no payload. -/
namespace Herald

structure Payload where
  url : String
  activity : Activity
  creator : String
  memo : Memo
  deriving DecidableEq, Repr

namespace Payload

def json (p : Payload) : List Char :=
  Json.writeObject [("url", Json.writeString p.url), ("activityType", p.activity.json),
    ("creator", Json.writeString p.creator), ("memo", p.memo.json)]

def ofEvent (e : Event) (target : String) : Except PayloadFault Payload :=
  match Owner.parse e.memo.creator with
  | .ok owner => .ok ⟨target, e.activity, String.ofList (Owner.text owner), e.memo⟩
  | .error fault => .error (.creator fault)

end Payload

abbrev Converter := Event → String → Except PayloadFault Payload

end Herald
