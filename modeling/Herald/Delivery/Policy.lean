/-! How often a delivery is attempted and how long it waits before each retry: a step of its own for
every retry, lengthened by up to half of it. -/
namespace Herald

/-- The steps before the retries, in milliseconds. -/
structure Policy where
  backoffs : List Nat
  deriving DecidableEq, Repr

namespace Policy

def maxAttempts (p : Policy) : Nat := p.backoffs.length + 1

def spread (step : Nat) : Nat := step / 2

/-- The delay for a step, given a random draw. A step below two is not lengthened. -/
def lengthened (step draw : Nat) : Nat :=
  if spread step = 0 then step else step + draw % spread step

def step (p : Policy) (retry : Nat) : Nat := p.backoffs.getD retry 0

def delay (p : Policy) (retry draw : Nat) : Nat := lengthened (p.step retry) draw

def plan (p : Policy) (draws : Nat → Nat) : List Nat :=
  p.backoffs.zipIdx.map fun (step, retry) => lengthened step (draws retry)

def delays (step : Nat) : List Nat :=
  if spread step = 0 then [step] else (List.range (spread step)).map (step + ·)

theorem le_lengthened (step draw : Nat) : step ≤ lengthened step draw := by
  unfold lengthened
  split <;> omega

end Policy

end Herald
