/-! Decimal numerals over the ASCII digits: writing a natural number and reading one back. -/
namespace Herald.Text

def isDigit (c : Char) : Bool := '0' ≤ c && c ≤ '9'

def digitValue (c : Char) : Nat := c.toNat - 48

def valueOf (digits : List Char) : Nat :=
  digits.foldl (fun acc c => acc * 10 + digitValue c) 0

def natDigits (n : Nat) : List Char := Nat.toDigits 10 n

def intDigits (n : Int) : List Char :=
  match n with
  | .ofNat n => natDigits n
  | .negSucc n => '-' :: natDigits (n + 1)

def natural? (s : List Char) : Option Nat :=
  if s ≠ [] ∧ s.all isDigit then some (valueOf s) else none

def unsigned? (bound : Nat) (s : List Char) : Option Nat :=
  let digits := match s with
    | '+' :: r => r
    | _ => s
  (natural? digits).bind fun n => if n < bound then some n else none

/-- Digits after an optional sign, with a value in the range of a signed word of that width. -/
def signed? (width : Nat) (s : List Char) : Option Int :=
  let value : Option Int := match s with
    | '-' :: r => (natural? r).map fun n => -(n : Int)
    | '+' :: r => (natural? r).map fun n => (n : Int)
    | _ => (natural? s).map fun n => (n : Int)
  let bound : Int := Nat.pow 2 (width - 1)
  value.bind fun v => if -bound ≤ v ∧ v < bound then some v else none

def padded (width n : Nat) : List Char :=
  let digits := natDigits n
  List.replicate (width - digits.length) '0' ++ digits

end Herald.Text
