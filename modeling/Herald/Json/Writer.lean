import Herald.Text.Numeral
import Herald.Text.Percent

/-! JSON without blanks. A string is written with escapes for the quote, the backslash and the control
characters of ASCII below the space; all other characters stand for themselves. -/
namespace Herald.Json

open Herald.Text

def writeChar (c : Char) : List Char :=
  match c.toNat with
  | 8 => ['\\', 'b']
  | 9 => ['\\', 't']
  | 10 => ['\\', 'n']
  | 12 => ['\\', 'f']
  | 13 => ['\\', 'r']
  | 34 => ['\\', c]
  | 92 => ['\\', c]
  | n => if n < 0x20 then "\\u00".toList ++ [Nat.digitChar (n / 16), Nat.digitChar (n % 16)] else [c]

def writeText (s : List Char) : List Char := '\x22' :: s.flatMap writeChar ++ ['\x22']

def writeString (s : String) : List Char := writeText s.toList

def writeBool (b : Bool) : List Char := (if b then "true" else "false").toList

def writeNat (n : Nat) : List Char := natDigits n

def commas : List (List Char) → List Char
  | [] => []
  | [part] => part
  | part :: rest => part ++ ',' :: commas rest

def writeList (values : List (List Char)) : List Char := '[' :: commas values ++ [']']

def writeObject (members : List (String × List Char)) : List Char :=
  '\x7b' :: commas (members.map fun m => writeString m.1 ++ ':' :: m.2) ++ ['\x7d']

end Herald.Json
