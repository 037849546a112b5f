/-! The three kinds of receivers that events are delivered to. -/
namespace Herald

inductive Channel
  | raw
  | weCom
  | bark
  deriving DecidableEq, Repr

namespace Channel

def name : Channel → String
  | raw => "raw"
  | weCom => "wecom"
  | bark => "bark"

def statusName : Channel → String
  | raw => "webhook"
  | weCom => "wecom"
  | bark => "bark"

def ofName? : String → Option Channel
  | "raw" => some raw
  | "wecom" => some weCom
  | "bark" => some bark
  | _ => none

end Channel

end Herald
