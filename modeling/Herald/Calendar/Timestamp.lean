import Herald.Calendar.Date
import Herald.Text.Blank
import Herald.Text.Numeral

/-! Instants in universal time. They are read from date, time and offset with some freedom in blanks
and signs, and written in one way: four-digit years without a sign, fractions in groups of three. -/
namespace Herald.Calendar

open Herald.Text

/-- An instant; the second is 60 in a leap second. -/
structure Timestamp where
  date : Date
  hour : Nat
  minute : Nat
  second : Nat
  nanos : Nat
  deriving DecidableEq, Repr

namespace Timestamp

def isValid (t : Timestamp) : Bool :=
  t.date.isValid && t.hour < 24 && t.minute < 60 && t.second ≤ 60 && t.nanos < 1000000000

def yearText (year : Int) : List Char :=
  if 0 ≤ year ∧ year ≤ 9999 then padded 4 year.natAbs
  else (if year < 0 then '-' else '+') :: padded 4 year.natAbs

def fractionText (nanos : Nat) : List Char :=
  if nanos = 0 then []
  else if nanos % 1000000 = 0 then '.' :: padded 3 (nanos / 1000000)
  else if nanos % 1000 = 0 then '.' :: padded 6 (nanos / 1000)
  else '.' :: padded 9 nanos

def text (t : Timestamp) : List Char :=
  yearText t.date.year ++ '-' :: padded 2 t.date.month ++ '-' :: padded 2 t.date.day ++
    'T' :: padded 2 t.hour ++ ':' :: padded 2 t.minute ++ ':' :: padded 2 t.second ++
    fractionText t.nanos ++ ['Z']

def number? (width : Nat) (s : List Char) : Option (Nat × List Char) :=
  let s := trimStart s
  let digits := (s.take width).takeWhile isDigit
  if digits = [] then none else some (valueOf digits, s.drop digits.length)

/-- A year of up to four digits, or of any length after a sign. -/
def year? (s : List Char) : Option (Int × List Char) :=
  match trimStart s with
  | '-' :: r =>
    let digits := r.takeWhile isDigit
    if digits = [] then none else some (-(valueOf digits : Int), r.drop digits.length)
  | '+' :: r =>
    let digits := r.takeWhile isDigit
    if digits = [] then none else some ((valueOf digits : Int), r.drop digits.length)
  | s => (number? 4 s).map fun read => ((read.1 : Int), read.2)

def separator? (c : Char) (s : List Char) : Option (List Char) :=
  match trimStart s with
  | d :: r => if d = c then some r else none
  | [] => none

/-- Nine digits count; further ones are passed over. -/
def fraction? (s : List Char) : Option (Nat × List Char) :=
  match s with
  | '.' :: r =>
    let digits := r.takeWhile isDigit
    if digits = [] then none
    else
      let kept := digits.take 9
      some (valueOf kept * Nat.pow 10 (9 - kept.length), r.drop digits.length)
  | _ => some (0, s)

def pair? (s : List Char) : Option (Nat × List Char) :=
  match s with
  | a :: b :: r => if isDigit a && isDigit b then some (valueOf [a, b], r) else none
  | _ => none

def offset? (s : List Char) : Option (Int × List Char) :=
  match s with
  | [] => none
  | c :: r =>
    if c == 'Z' || c == 'z' then some (0, r)
    else if lower (s.take 3) = "utc".toList then some (0, s.drop 3)
    else if c == '+' || c == '-' || c == '−' then
      match pair? r with
      | none => none
      | some (hours, r) =>
        match pair? (r.dropWhile fun d => d == ':' || isBlank d) with
        | none => none
        | some (minutes, r) =>
          let distance : Int := hours * 60 + minutes
          if minutes < 60 ∧ distance < 1440 then
            some (if c == '+' then distance else -distance, r)
          else none
    else none

/-- A local time moved to universal time; the offset is less than a day. -/
def shifted (t : Timestamp) (offset : Int) : Timestamp :=
  let minutes : Int := t.hour * 60 + t.minute - offset
  let date := if minutes < 0 then t.date.previous else if 1440 ≤ minutes then t.date.next else t.date
  let inDay := (minutes % 1440).toNat
  { t with date := date, hour := inDay / 60, minute := inDay % 60 }

def local? (s : List Char) : Option (Timestamp × List Char) := do
  let (year, s) ← year? s
  let (month, s) ← number? 2 (← separator? '-' s)
  let (day, s) ← number? 2 (← separator? '-' s)
  let s ← match s with
    | c :: r => if c == 'T' || c == 't' || c == ' ' then some r else none
    | [] => none
  let (hour, s) ← number? 2 s
  let (minute, s) ← number? 2 (← separator? ':' s)
  let (second, s) ← number? 2 (← separator? ':' s)
  let (nanos, s) ← fraction? s
  return (⟨⟨year, month, day⟩, hour, minute, second, nanos⟩, trimStart s)

def parse? (s : List Char) : Option Timestamp := do
  let (time, s) ← local? s
  let (offset, s) ← offset? s
  let instant := time.shifted offset
  if s.all isBlank && time.isValid && instant.date.isValid then some instant else none

theorem shifted_zero {t : Timestamp} (h : t.hour < 24) (m : t.minute < 60) : t.shifted 0 = t := by
  have day : ¬ ((t.hour : Int) * 60 + t.minute - 0 < 0) := by omega
  have short : ¬ (1440 ≤ (t.hour : Int) * 60 + t.minute - 0) := by omega
  have same : (((t.hour : Int) * 60 + t.minute - 0) % 1440).toNat = t.hour * 60 + t.minute := by omega
  simp only [shifted, day, short, same, if_false]
  have hours : (t.hour * 60 + t.minute) / 60 = t.hour := by omega
  have minutes : (t.hour * 60 + t.minute) % 60 = t.minute := by omega
  rw [hours, minutes]

end Timestamp

end Herald.Calendar
