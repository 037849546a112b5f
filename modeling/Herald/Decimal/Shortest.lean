import Herald.Decimal.Binary
import Herald.Text.Numeral

/-! The shortest decimal that reads back as a number, the nearest to it among those of that length. It
is written positionally in the middle range of exponents and with an exponent outside of it. -/
namespace Herald.Decimal

open Herald.Text

/-- All values in units of 2⁻¹⁰⁷⁶: the number itself and the bounds of what reads back as it. -/
structure Reach where
  value : Nat
  low : Nat
  high : Nat
  closed : Bool

def reachUnit : Nat := Nat.pow 2 1076

def Reach.of (mantissa exponent : Nat) : Reach :=
  let unit := Nat.pow 2 exponent
  let narrow := mantissa = 0x10000000000000 && 0 < exponent
  ⟨4 * mantissa * unit, (4 * mantissa - (if narrow then 1 else 2)) * unit,
    (4 * mantissa + 2) * unit, mantissa % 2 = 0⟩

/-- The number lies where it reads back; `num / den` is in the unit of the bounds. -/
def Reach.holds (r : Reach) (num den : Nat) : Bool :=
  if r.closed then r.low * den ≤ num && num ≤ r.high * den
  else r.low * den < num && num < r.high * den

def firstPlace (value : Nat) : Nat → Int → Int
  | 0, place => place
  | fuel + 1, place =>
    let below := if 0 ≤ place then value < reachUnit * Nat.pow 10 place.toNat
      else value * Nat.pow 10 (-place).toNat < reachUnit
    if below then firstPlace value fuel (place - 1) else place + 1

def fraction (digits : Nat) (scale : Int) : Nat × Nat :=
  if 0 ≤ scale then (digits * reachUnit * Nat.pow 10 scale.toNat, 1)
  else (digits * reachUnit, Nat.pow 10 (-scale).toNat)

def Reach.digitsAt? (r : Reach) (scale : Int) : Option Nat :=
  let grid := fraction 1 scale
  let lower := r.value * grid.2 / grid.1
  let fits (n : Nat) : Bool := let f := fraction n scale; r.holds f.1 f.2
  let above := (lower + 1) * grid.1 - r.value * grid.2
  let under := r.value * grid.2 - lower * grid.1
  match fits lower, fits (lower + 1) with
  | true, true =>
    some (if under < above || (under = above && lower % 2 = 0) then lower else lower + 1)
  | true, false => some lower
  | false, true => some (lower + 1)
  | false, false => none

def Reach.search (r : Reach) (place : Int) : Nat → Nat → Nat × Int
  | 0, count => (((r.digitsAt? (place - count)).getD 0), place - count)
  | fuel + 1, count =>
    match r.digitsAt? (place - count) with
    | some digits => (digits, place - count)
    | none => r.search place fuel (count + 1)

def stripZeros : Nat → Nat → Int → Nat × Int
  | 0, digits, scale => (digits, scale)
  | fuel + 1, digits, scale =>
    if digits ≠ 0 ∧ digits % 10 = 0 then stripZeros fuel (digits / 10) (scale + 1)
    else (digits, scale)

def shortest (mantissa exponent : Nat) : Nat × Int :=
  let r := Reach.of mantissa exponent
  let found := r.search (firstPlace r.value 700 310) 17 1
  stripZeros 20 found.1 found.2

/-- Positional below ten to the sixteenth and down to five places after the point. -/
def shortestText : Binary → List Char
  | .nan => "NaN".toList
  | .infinite negative => (if negative then ['-'] else []) ++ "inf".toList
  | .finite negative mantissa exponent =>
    let sign := if negative then ['-'] else []
    if mantissa = 0 then sign ++ "0.0".toList
    else
      let (number, scale) := shortest mantissa exponent
      let digits := natDigits number
      let point := (digits.length : Int) + scale
      if 0 ≤ scale ∧ point ≤ 16 then
        sign ++ digits ++ List.replicate scale.toNat '0' ++ ".0".toList
      else if 0 < point ∧ point ≤ 16 then
        sign ++ digits.take point.toNat ++ '.' :: digits.drop point.toNat
      else if -5 < point ∧ point ≤ 0 then
        sign ++ "0.".toList ++ List.replicate (-point).toNat '0' ++ digits
      else
        sign ++ digits.take 1 ++ (if digits.length = 1 then [] else '.' :: digits.drop 1) ++
          'e' :: intDigits (point - 1)

end Herald.Decimal
