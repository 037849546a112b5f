import Herald.Channel.Bark
import Herald.Channel.Raw
import Herald.Channel.WeCom

/-! Sending an event through any of the channels. A delivery prepares what does not change from attempt
to attempt once: the payload of the raw channel. -/
namespace Herald

structure Sender where
  client : Http.Client := .guarded
  converter : Converter := Payload.ofEvent
  forceGet : Bool := false

namespace Sender

def send (s : Sender) (channel : Channel) (target : String) (event : Event) : Http.Talk :=
  match channel with
  | .raw => Raw.deliver s.client s.converter target event
  | .weCom => WeCom.deliver s.client target event
  | .bark => Bark.deliver s.client s.forceGet target event

/-- The attempt that a delivery makes and repeats, unless there is no payload. -/
def prepare (s : Sender) (channel : Channel) (target : String) (event : Event) :
    Except Failure Http.Talk :=
  match channel with
  | .raw =>
    match s.converter event target with
    | .ok payload => .ok (Raw.post s.client payload)
    | .error fault => .error (.conversion fault)
  | _ => .ok (s.send channel target event)

theorem send_eq_of_prepare {s : Sender} {channel : Channel} {target : String} {event : Event}
    {talk : Http.Talk} (h : s.prepare channel target event = .ok talk) :
    s.send channel target event = talk := by
  cases channel with
  | raw =>
    simp only [prepare] at h
    simp only [send, Raw.deliver]
    split at h
    · cases h; simp [*]
    · cases h
  | weCom => cases h; rfl
  | bark => cases h; rfl

end Sender

end Herald
