import Herald.Event
import Herald.Failure
import Herald.Locator
import Herald.Text.Numeral

/-! What the service announces: that it is ready, and what became of the deliveries of an event. -/
namespace Herald

open Herald.Text

inductive Notice
  | ready (slots : Nat) (forceGet : Bool)
  | noHooks (owner : Int) (activity : Activity)
  | opened (host : String) (cooldownSecs : Nat)
  | dispatched (destination : Destination) (attempts : Nat)
  | failed (destination : Destination) (attempts : Nat) (failure : Failure)
  | skipped (destination : Destination) (failure : Failure)

namespace Notice

inductive Value
  | text (s : String)
  | flag (b : Bool)
  deriving DecidableEq, Repr

def ofNat (n : Nat) : Value := .text (String.ofList (natDigits n))

def ofInt (n : Int) : Value := .text (String.ofList (intDigits n))

def isWarning : Notice → Bool
  | ready .. => false
  | noHooks .. => false
  | dispatched .. => false
  | opened .. => true
  | failed .. => true
  | skipped .. => true

def message : Notice → String
  | ready .. => "Notification service ready"
  | noHooks .. => "No user webhooks to dispatch"
  | opened .. => "Circuit opened"
  | dispatched .. => "Webhook dispatched"
  | failed .. => "Webhook dispatch failed"
  | skipped .. => "Webhook skipped"

def receiver (destination : Destination) : List (String × Value) :=
  [("channel", .text destination.channel.name), ("url", .text destination.target)]

def fields : Notice → List (String × Value)
  | ready slots forceGet => [("max_per_host", ofNat slots), ("bark_force_get", .flag forceGet)]
  | noHooks owner activity => [("creator_id", ofInt owner), ("activity", .text activity.name)]
  | opened host cooldownSecs => [("host", .text host), ("cooldown_secs", ofNat cooldownSecs)]
  | dispatched destination attempts => receiver destination ++ [("attempts", ofNat attempts)]
  | failed destination attempts failure =>
    receiver destination ++ [("attempts", ofNat attempts),
      ("circuit_open", .flag failure.isCircuitOpen), ("error", .text failure.message)]
  | skipped destination failure => receiver destination ++ [("error", .text failure.message)]

end Notice

end Herald
