import Herald.Json.Scan
import Herald.Proofs.Text.Blank

/-! The grammar of JSON. A part of a text is read from where it stands and leaves the text behind it, so each rule
relates two texts. Rows of digits are as long as possible. A number stays as it is written; the pieces of a string
stand for a text unless a surrogate is alone; and the members of an object stay in their order. No text is read in
two ways. -/
namespace Herald.Json

open Herald.Text

def letter? (c : Char) : Option Char :=
  match c with
  | '\x22' => some c
  | '\\' => some c
  | '/' => some c
  | 'b' => some (Char.ofNat 8)
  | 'f' => some (Char.ofNat 12)
  | 'n' => some '\n'
  | 'r' => some (Char.ofNat 13)
  | 't' => some '\t'
  | _ => none

def quad? (a b c d : Char) : Option Nat :=
  match Percent.hexValue? a, Percent.hexValue? b, Percent.hexValue? c, Percent.hexValue? d with
  | some a, some b, some c, some d => some (((a * 16 + b) * 16 + c) * 16 + d)
  | _, _, _, _ => none

/-- A piece of a string: a character, or a unit of sixteen bits that is given by its number. -/
inductive Piece
  | char (c : Char)
  | unit (n : Nat)
  deriving DecidableEq, Repr

def IsSurrogate (n : Nat) : Prop := 0xD800 ≤ n ∧ n ≤ 0xDFFF

/-- Two surrogates, a high one and a low one, that stand for one character. -/
def IsPair (high low : Nat) : Prop := high ≤ 0xDBFF ∧ 0xDC00 ≤ low ∧ low ≤ 0xDFFF

def pairValue (high low : Nat) : Char := Char.ofNat ((high - 0xD800) * 1024 + (low - 0xDC00) + 0x10000)

instance (n : Nat) : Decidable (IsSurrogate n) := inferInstanceAs (Decidable (_ ∧ _))

instance (high low : Nat) : Decidable (IsPair high low) := inferInstanceAs (Decidable (_ ∧ _))

def textOf : List Piece → Option (List Char)
  | [] => some []
  | .char c :: rest => (textOf rest).map (c :: ·)
  | .unit n :: rest =>
    if ¬ IsSurrogate n then (textOf rest).map (Char.ofNat n :: ·)
    else
      match rest with
      | .unit low :: rest => if IsPair n low then (textOf rest).map (pairValue n low :: ·) else none
      | _ => none

theorem textOf_unit {n : Nat} (plain : ¬ IsSurrogate n) (rest : List Piece) :
    textOf (.unit n :: rest) = (textOf rest).map (Char.ofNat n :: ·) := by
  rw [textOf.eq_def]
  simp [plain]

theorem textOf_pair {n low : Nat} (surrogate : IsSurrogate n) (pair : IsPair n low) (rest : List Piece) :
    textOf (.unit n :: .unit low :: rest) = (textOf rest).map (pairValue n low :: ·) := by
  rw [textOf.eq_def]
  simp [surrogate, pair]

inductive Quoted : List Char → List Piece → List Char → Prop
  | close {r : List Char} : Quoted ('\x22' :: r) [] r
  | plain {c : Char} {s r : List Char} {pieces : List Piece} : c ≠ '\x22' → c ≠ '\\' → 0x20 ≤ c.toNat →
    Quoted s pieces r → Quoted (c :: s) (.char c :: pieces) r
  | letter {c d : Char} {s r : List Char} {pieces : List Piece} : letter? c = some d →
    Quoted s pieces r → Quoted ('\\' :: c :: s) (.char d :: pieces) r
  | unit {a b c d : Char} {n : Nat} {s r : List Char} {pieces : List Piece} : quad? a b c d = some n →
    Quoted s pieces r → Quoted ('\\' :: 'u' :: a :: b :: c :: d :: s) (.unit n :: pieces) r

/-- A row of digits, as long as possible. -/
def Digits (s r : List Char) : Prop :=
  ∃ row, s = row ++ r ∧ row ≠ [] ∧ (∀ c ∈ row, isDigit c = true) ∧ Stops isDigit r

inductive Whole : List Char → List Char → Prop
  | zero {r : List Char} : Stops isDigit r → Whole ('0' :: r) r
  | row {s r : List Char} : s.head? ≠ some '0' → Digits s r → Whole s r

inductive Fraction : List Char → List Char → Prop
  | none {s : List Char} : s.head? ≠ some '.' → Fraction s s
  | some {s r : List Char} : Digits s r → Fraction ('.' :: s) r

inductive Exponent : List Char → List Char → Prop
  | none {s : List Char} : s.head? ≠ some 'e' → s.head? ≠ some 'E' → Exponent s s
  | plain {e : Char} {s r : List Char} : e = 'e' ∨ e = 'E' → Digits s r → Exponent (e :: s) r
  | signed {e sign : Char} {s r : List Char} : e = 'e' ∨ e = 'E' → sign = '+' ∨ sign = '-' → Digits s r →
    Exponent (e :: sign :: s) r

def Unsigned (s r : List Char) : Prop := ∃ f e, Whole s f ∧ Fraction f e ∧ Exponent e r

inductive Numeral : List Char → List Char → Prop
  | positive {s r : List Char} : Unsigned s r → Numeral s r
  | negative {s r : List Char} : Unsigned s r → Numeral ('-' :: s) r

/-- A value. The keys of an object are strings; so a key that stands for no text has none. -/
inductive Tree
  | null
  | boolean (value : Bool)
  | number (written : List Char)
  | string (text : Option (List Char))
  | list (elements : List Tree)
  | object (members : List (Option (List Char) × Tree))

def KeyAt (s : List Char) (key : Option (List Char)) (r : List Char) : Prop :=
  ∃ inside behind pieces, skipSpace s = '\x22' :: inside ∧ Quoted inside pieces behind ∧
    skipSpace behind = ':' :: r ∧ key = textOf pieces

/-- A part of a text: a value, or the elements of a list or the members of an object up to the bracket that closes
it, of which there is one at least. -/
inductive Part
  | value (t : Tree)
  | elements (ts : List Tree)
  | members (ms : List (Option (List Char) × Tree))

inductive Reads : Part → List Char → List Char → Prop
  | null {r : List Char} : Reads (.value .null) ("null".toList ++ r) r
  | isFalse {r : List Char} : Reads (.value (.boolean false)) ("false".toList ++ r) r
  | isTrue {r : List Char} : Reads (.value (.boolean true)) ("true".toList ++ r) r
  | number {w r : List Char} : Numeral (w ++ r) r → Reads (.value (.number w)) (w ++ r) r
  | string {s r : List Char} {pieces : List Piece} : Quoted s pieces r →
    Reads (.value (.string (textOf pieces))) ('\x22' :: s) r
  | emptyList {s r : List Char} : skipSpace s = ']' :: r → Reads (.value (.list [])) ('[' :: s) r
  | list {ts : List Tree} {s r : List Char} : Reads (.elements ts) s r → Reads (.value (.list ts)) ('[' :: s) r
  | emptyObject {s r : List Char} : skipSpace s = '\x7d' :: r → Reads (.value (.object [])) ('\x7b' :: s) r
  | object {ms : List (Option (List Char) × Tree)} {s r : List Char} : Reads (.members ms) s r →
    Reads (.value (.object ms)) ('\x7b' :: s) r
  | lastElement {t : Tree} {s u r : List Char} : Reads (.value t) (skipSpace s) u → skipSpace u = ']' :: r →
    Reads (.elements [t]) s r
  | element {t : Tree} {ts : List Tree} {s u v r : List Char} : Reads (.value t) (skipSpace s) u →
    skipSpace u = ',' :: v → Reads (.elements ts) v r → Reads (.elements (t :: ts)) s r
  | lastMember {key : Option (List Char)} {t : Tree} {s k u r : List Char} : KeyAt s key k →
    Reads (.value t) (skipSpace k) u → skipSpace u = '\x7d' :: r → Reads (.members [(key, t)]) s r
  | member {key : Option (List Char)} {t : Tree} {ms : List (Option (List Char) × Tree)} {s k u v r : List Char} :
    KeyAt s key k → Reads (.value t) (skipSpace k) u → skipSpace u = ',' :: v → Reads (.members ms) v r →
    Reads (.members ((key, t) :: ms)) s r

def IsText (t : Tree) (s : List Char) : Prop := ∃ r, Reads (.value t) (skipSpace s) r ∧ skipSpace r = []

end Herald.Json
