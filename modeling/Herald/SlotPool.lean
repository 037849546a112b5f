/-! The slots of one host. Whoever asks for a slot holds one at once if one is free and waits otherwise;
a slot that is given back goes to whoever waits longest. -/
namespace Herald

/-- Tickets name those who ask. -/
structure SlotPool where
  available : Nat
  held : List Nat := []
  waiting : List Nat := []
  deriving DecidableEq, Repr

namespace SlotPool

/-- More slots than this cannot be counted. -/
def maxSlots : Nat := 0x1FFFFFFFFFFFFFFF

def ofSize (slots : Nat) : SlotPool := { available := max 1 slots }

def request (p : SlotPool) (ticket : Nat) : SlotPool :=
  if 0 < p.available then { p with available := p.available - 1, held := p.held ++ [ticket] }
  else { p with waiting := p.waiting ++ [ticket] }

def isHeld (p : SlotPool) (ticket : Nat) : Bool := p.held.contains ticket

/-- Gives a slot back; the first who waits gets it. -/
def release (p : SlotPool) (ticket : Nat) : SlotPool :=
  if ticket ∈ p.held then
    match p.waiting with
    | [] => { p with available := p.available + 1, held := p.held.erase ticket }
    | first :: rest => { p with held := p.held.erase ticket ++ [first], waiting := rest }
  else p

def abandon (p : SlotPool) (ticket : Nat) : SlotPool := { p with waiting := p.waiting.erase ticket }

end SlotPool

end Herald
