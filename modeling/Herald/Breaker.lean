/-! A circuit breaker. It counts failures in a row; at the threshold it opens for a cooldown and counts
from zero again, and a success closes it. When the cooldown is over it is closed, without a trial. -/
namespace Herald

/-- The state of one host; times are in milliseconds. -/
structure Breaker where
  failures : Nat := 0
  openUntil : Option Nat := none
  deriving DecidableEq, Repr

namespace Breaker

structure Rule where
  threshold : Nat
  cooldown : Nat
  deriving DecidableEq, Repr

def Rule.limit (rule : Rule) : Nat := max 1 rule.threshold

/-- Later points in time cannot be expressed: their seconds do not fit into a signed word. -/
def endOfTime : Nat := 0x7FFFFFFFFFFFFFFF * 1000

/-- What recording a failure did. The end of the cooldown may not be expressible. -/
inductive Recorded
  | counted
  | opened
  | overflowed
  deriving DecidableEq, Repr

def isOpen (b : Breaker) (now : Nat) : Bool :=
  match b.openUntil with
  | some until_ => now < until_
  | none => false

def openFor (b : Breaker) (now : Nat) : Option Nat := b.openUntil.map (· - now)

def recordFailure (rule : Rule) (now : Nat) (b : Breaker) : Breaker × Recorded :=
  if b.failures + 1 < rule.limit then ({ b with failures := b.failures + 1 }, .counted)
  else if now + rule.cooldown < endOfTime then (⟨0, some (now + rule.cooldown)⟩, .opened)
  else ({ b with failures := b.failures + 1 }, .overflowed)

def recordSuccess (_ : Breaker) : Breaker := {}

end Breaker

end Herald
