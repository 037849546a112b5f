import Herald.Text.Utf8

/-! Percent encoding. What is encoded is a set of ASCII characters, which every use names for itself;
bytes outside ASCII are always encoded. -/
namespace Herald.Text.Percent

def hexDigit (d : Nat) : Char :=
  if d < 10 then Char.ofNat (48 + d) else Char.ofNat (55 + d)

def hexValue? (c : Char) : Option Nat :=
  if '0' ≤ c ∧ c ≤ '9' then some (c.toNat - 48)
  else if 'a' ≤ c ∧ c ≤ 'f' then some (c.toNat - 87)
  else if 'A' ≤ c ∧ c ≤ 'F' then some (c.toNat - 55)
  else none

def encodeByte (b : UInt8) : List Char := ['%', hexDigit (b.toNat / 16), hexDigit (b.toNat % 16)]

def encodeChar (reserved : Char → Bool) (c : Char) : List Char :=
  if 0x80 ≤ c.toNat || reserved c then (Utf8.encodeChar c).flatMap encodeByte else [c]

def encode (reserved : Char → Bool) (s : List Char) : List Char := s.flatMap (encodeChar reserved)

def decode : List Char → List UInt8
  | [] => []
  | '%' :: a :: b :: r =>
    match hexValue? a, hexValue? b with
    | some x, some y => UInt8.ofNat (16 * x + y) :: decode r
    | _, _ => UInt8.ofNat 37 :: decode (a :: b :: r)
  | c :: r => Utf8.encodeChar c ++ decode r

def isControl (c : Char) : Bool := c.toNat < 0x20 || c.toNat == 0x7F

def withControls (members : String) (c : Char) : Bool := isControl c || members.toList.contains c

end Herald.Text.Percent
