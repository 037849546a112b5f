import Herald.Decimal.Binary
import Herald.Text.Numeral

/-! Numbers with a fixed count of decimal places. The exact value is rounded once, a half going to the
even neighbour. -/
namespace Herald.Decimal

open Herald.Text

/-- The nearest natural number to a quotient; a half goes to the even one. -/
def roundDiv (num den : Nat) : Nat :=
  let q := num / den
  let r := num % den
  if 2 * r < den then q
  else if den < 2 * r then q + 1
  else if q % 2 = 0 then q else q + 1

def inUnits (places mantissa exponent : Nat) : Nat :=
  roundDiv (mantissa * Nat.pow 2 exponent * Nat.pow 10 places) (Nat.pow 2 1074)

def toPlaces (places : Nat) : Binary → List Char
  | .nan => "NaN".toList
  | .infinite negative => (if negative then ['-'] else []) ++ "inf".toList
  | .finite negative mantissa exponent =>
    let units := inUnits places mantissa exponent
    let sign := if negative then ['-'] else []
    let whole := natDigits (units / Nat.pow 10 places)
    if places = 0 then sign ++ whole
    else sign ++ whole ++ '.' :: padded places (units % Nat.pow 10 places)

end Herald.Decimal
