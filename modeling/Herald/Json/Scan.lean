import Herald.Json.Fault
import Herald.Text.Percent

/-! The small parts of JSON: blanks, words, strings and numbers. Each reader takes the text from where
it stands and gives what it read and the text that is left. -/
namespace Herald.Json

open Herald.Text

abbrev Reader (α : Type) := List Char → Except Fault (α × List Char)

def isSpace (c : Char) : Bool := c == ' ' || c == '\n' || c == '\t' || c.toNat == 13

def skipSpace (s : List Char) : List Char := s.dropWhile isSpace

def word : List Char → List Char → Except Fault (List Char)
  | [], s => .ok s
  | _ :: _, [] => .error (.here .endInValue [])
  | a :: r, b :: s => if a = b then word r s else .error (.next .badWord (b :: s))

/-- The four hexadecimal digits of an escape. Four bytes are read before they are looked at. -/
def hexQuad (s : List Char) : Except Fault (Nat × List Char) :=
  if (Utf8.encode (s.take 4)).length < 4 then .error (.here .endInString [])
  else match s with
    | a :: b :: c :: d :: r =>
      match Percent.hexValue? a, Percent.hexValue? b, Percent.hexValue? c, Percent.hexValue? d with
      | some a, some b, some c, some d => .ok (((a * 16 + b) * 16 + c) * 16 + d, r)
      | _, _, _, _ => .error ⟨.badEscape, s, 4, true⟩
    | _ => .error ⟨.badEscape, s, 4, true⟩

/-- An escaped code point, after the letter u. A high surrogate needs a low one right after it. -/
def codePoint (s : List Char) : Except Fault (Char × List Char) := do
  let (n, r) ← hexQuad s
  if 0xDC00 ≤ n ∧ n ≤ 0xDFFF then throw (.here .loneSurrogate r)
  if n < 0xD800 ∨ 0xDBFF < n then return (Char.ofNat n, r)
  match r with
  | [] => throw (.here .endInString [])
  | '\\' :: 'u' :: t =>
    let (low, r) ← hexQuad t
    if low < 0xDC00 ∨ 0xDFFF < low then throw (.here .loneSurrogate r)
    return (Char.ofNat ((n - 0xD800) * 1024 + (low - 0xDC00) + 0x10000), r)
  | ['\\'] => throw (.here .endInString [])
  | '\\' :: t => throw (.next .brokenEscape t)
  | _ => throw (.next .brokenEscape r)

def escape : Reader Char
  | [] => .error (.here .endInString [])
  | c :: r =>
    match c with
    | '\x22' => .ok (c, r)
    | '\\' => .ok (c, r)
    | '/' => .ok (c, r)
    | 'b' => .ok (Char.ofNat 8, r)
    | 'f' => .ok (Char.ofNat 12, r)
    | 'n' => .ok ('\n', r)
    | 'r' => .ok (Char.ofNat 13, r)
    | 't' => .ok ('\t', r)
    | 'u' => codePoint r
    | _ => .error (.next .badEscape (c :: r))

/-- A string after its opening quote; the fuel is at least the number of characters. -/
def stringWith : Nat → Reader (List Char)
  | 0, s => .error (.here .endInString s)
  | fuel + 1, s =>
    match s with
    | [] => .error (.here .endInString [])
    | '\x22' :: r => .ok ([], r)
    | '\\' :: r => do
      let (c, r) ← escape r
      let (cs, r) ← stringWith fuel r
      return (c :: cs, r)
    | c :: r =>
      if c.toNat < 0x20 then .error (.here .controlCharacter r)
      else do
        let (cs, r) ← stringWith fuel r
        return (c :: cs, r)

def string : Reader (List Char) := fun s => stringWith (s.length + 1) s

/-- Whole numbers of at most 64 bits stay whole; all others, and minus zero, are approximate. -/
inductive Number
  | natural (value : Nat)
  | negative (size : Nat)
  | fractional (value : Float)

def Number.found : Number → Found
  | .natural value => .natural value
  | .negative size => .negative size
  | .fractional value => .fractional value

/-- A decimal being read: what fits into 64 bits, the scale, and whether digits had to be left out. -/
structure Significand where
  value : Nat := 0
  scale : Int := 0
  full : Bool := false

/-- Once a digit before the point does not fit, the digits left before it only count for the scale. -/
def Significand.addWhole (m : Significand) (c : Char) : Significand :=
  let value := m.value * 10 + digitValue c
  if m.full || 0x10000000000000000 ≤ value then { m with scale := m.scale + 1, full := true }
  else { m with value := value }

def Significand.addFraction (m : Significand) (c : Char) : Significand :=
  let value := m.value * 10 + digitValue c
  if m.full || 0x10000000000000000 ≤ value then { m with full := true }
  else { m with value := value, scale := m.scale - 1 }

def scaled? : Nat → Float → Int → Option Float
  | 0, f, _ => some f
  | fuel + 1, f, scale =>
    if scale.natAbs ≤ 308 then
      let power := Float.ofScientific 1 false scale.natAbs
      if 0 ≤ scale then (if (f * power).isInf then none else some (f * power)) else some (f / power)
    else if f == 0 then some f
    else if 0 ≤ scale then none
    else scaled? fuel (f / Float.ofScientific 1 false 308) (scale + 308)

def Significand.number (m : Significand) (positive : Bool) (rest : List Char) :
    Except Fault (Number × List Char) :=
  match scaled? 8 (Float.ofNat m.value) m.scale with
  | none => .error (.here .numberRange rest)
  | some f => .ok (.fractional (if positive then f else -f), rest)

/-- Adds the digits of an exponent; none with the text left once they leave the 32-bit range. -/
def exponentDigits : Nat → List Char → Except (List Char) (Nat × List Char)
  | n, [] => .ok (n, [])
  | n, c :: r =>
    if isDigit c then
      let next := n * 10 + digitValue c
      if 0x80000000 ≤ next then .error r else exponentDigits next r
    else .ok (n, c :: r)

def exponent (m : Significand) (positive : Bool) (s : List Char) :
    Except Fault (Number × List Char) :=
  let up := s.head? != some '-'
  let s := match s with
    | '+' :: r => r
    | '-' :: r => r
    | _ => s
  match s with
  | [] => .error (.here .endInValue [])
  | c :: r =>
    if isDigit c then
      match exponentDigits (digitValue c) r with
      | .ok (n, r) => { m with scale := if up then m.scale + n else m.scale - n }.number positive r
      | .error r =>
        if m.value ≠ 0 ∧ up then .error (.here .numberRange r)
        else .ok (.fractional (if positive then 0 else -0), r.dropWhile isDigit)
    else .error (.next .badNumber s)

def numberTail (m : Significand) (positive : Bool) (s : List Char) :
    Except Fault (Number × List Char) :=
  match s with
  | '.' :: r =>
    let digits := r.takeWhile isDigit
    let rest := r.dropWhile isDigit
    if digits = [] then .error (.next (if rest = [] then .endInValue else .badNumber) rest)
    else
      let m := digits.foldl Significand.addFraction { m with full := false }
      match rest with
      | 'e' :: r => exponent m positive r
      | 'E' :: r => exponent m positive r
      | _ => m.number positive rest
  | 'e' :: r => exponent m positive r
  | 'E' :: r => exponent m positive r
  | _ =>
    if m.full then m.number positive s
    else if positive then .ok (.natural m.value, s)
    else if m.value = 0 ∨ 0x8000000000000000 < m.value then .ok (.fractional (-Float.ofNat m.value), s)
    else .ok (.negative m.value, s)

def number (positive : Bool) (s : List Char) : Except Fault (Number × List Char) :=
  match s with
  | [] => .error (.here .endInValue [])
  | '0' :: r =>
    if (r.head?.map isDigit).getD false then .error (.next .badNumber r)
    else numberTail {} positive r
  | c :: _ =>
    if isDigit c then
      numberTail ((s.takeWhile isDigit).foldl Significand.addWhole {}) positive (s.dropWhile isDigit)
    else .error (.next .badNumber s)

theorem skipSpace_of_head {c : Char} {r : List Char} (h : isSpace c = false) :
    skipSpace (c :: r) = c :: r := by
  simp [skipSpace, h]

end Herald.Json
