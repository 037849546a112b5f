/-! Punycode: a label with characters outside ASCII as a row of ASCII letters, digits and hyphens. The
ASCII characters come first, then the positions of the others as differences in a variable base. -/
namespace Herald.Net.Punycode

def digitChar (d : Nat) : Char :=
  if d < 26 then Char.ofNat (97 + d) else Char.ofNat (22 + d)

def digitValue (c : Char) : Option Nat :=
  if 'a' ≤ c ∧ c ≤ 'z' then some (c.toNat - 97)
  else if 'A' ≤ c ∧ c ≤ 'Z' then some (c.toNat - 65)
  else if '0' ≤ c ∧ c ≤ '9' then some (c.toNat - 22)
  else none

/-- The digit values below the threshold end a number. -/
def threshold (place bias : Nat) : Nat :=
  if place ≤ bias + 1 then 1 else if bias + 26 ≤ place then 26 else place - bias

def shrink : Nat → Nat → Nat → Nat
  | 0, _, place => place
  | fuel + 1, delta, place =>
    if 455 < delta then shrink fuel (delta / 35) (place + 36) else place + 36 * delta / (delta + 38)

def adapt (delta count : Nat) (isFirst : Bool) : Nat :=
  let halved := if isFirst then delta / 700 else delta / 2
  shrink 64 (halved + halved / count) 0

def encodeNumber (bias : Nat) : Nat → Nat → Nat → List Char
  | 0, _, _ => []
  | fuel + 1, place, q =>
    let t := threshold place bias
    if q < t then [digitChar q]
    else digitChar (t + (q - t) % (36 - t)) :: encodeNumber bias fuel (place + 36) ((q - t) / (36 - t))

structure Writer where
  out : List Char
  delta : Nat
  bias : Nat
  handled : Nat

def Writer.visit (basic m : Nat) (w : Writer) (c : Char) : Writer :=
  if c.toNat < m then { w with delta := w.delta + 1 }
  else if c.toNat = m then
    ⟨w.out ++ encodeNumber w.bias 64 36 w.delta, 0,
      adapt w.delta (w.handled + 1) (w.handled = basic), w.handled + 1⟩
  else w

/-- Writes the code points of an ascending list, the last one written being below `next`. -/
def Writer.run (label : List Char) (basic : Nat) : List Nat → Nat → Writer → Writer
  | [], _, w => w
  | m :: rest, next, w =>
    let moved := { w with delta := w.delta + (m - next) * (w.handled + 1) }
    let passed := label.foldl (Writer.visit basic m) moved
    Writer.run label basic rest (m + 1) { passed with delta := passed.delta + 1 }

def insertUnique (n : Nat) : List Nat → List Nat
  | [] => [n]
  | m :: r => if n < m then n :: m :: r else if n = m then m :: r else m :: insertUnique n r

def encode (label : List Char) : List Char :=
  let basic := label.filter fun c => c.toNat < 128
  let others := (label.filter fun c => 128 ≤ c.toNat).foldr (fun c l => insertUnique c.toNat l) []
  let written := Writer.run label basic.length others 128 ⟨[], 0, 72, basic.length⟩
  basic ++ (if basic = [] then [] else ['-']) ++ written.out

def decodeNumber (bias : Nat) : List Char → Nat → Nat → Nat → Option (Nat × List Char)
  | [], _, _, _ => none
  | c :: r, place, weight, i =>
    match digitValue c with
    | none => none
    | some d =>
      let t := threshold place bias
      if d < t then some (i + d * weight, r)
      else decodeNumber bias r (place + 36) (weight * (36 - t)) (i + d * weight)

/-- Reads differences until the text ends; the fuel is the length of the text. -/
def decodeRest : Nat → List Char → Nat → Nat → Nat → List Char → Option (List Char)
  | _, [], _, _, _, out => some out
  | 0, _ :: _, _, _, _, _ => none
  | fuel + 1, text, bias, next, i, out =>
    match decodeNumber bias text 36 1 i with
    | none => none
    | some (j, rest) =>
      let count := out.length + 1
      let point := next + j / count
      if point < 0xD800 ∨ (0xDFFF < point ∧ point < 0x110000) then
        decodeRest fuel rest (adapt (j - i) count (i = 0)) point (j % count + 1)
          (out.insertIdx (j % count) (Char.ofNat point))
      else none

def decode? (text : List Char) : Option (List Char) :=
  let reversed := text.reverse
  let tail := (reversed.takeWhile (· != '-')).reverse
  let basic := (reversed.dropWhile (· != '-')).drop 1 |>.reverse
  if text.all fun c => c.toNat < 128 then decodeRest tail.length tail 72 128 0 basic else none

end Herald.Net.Punycode
