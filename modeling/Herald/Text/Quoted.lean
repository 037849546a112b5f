import Herald.Text.Blank
import Herald.Unicode.Hidden

/-! A text in double quotes for messages. The quote, the backslash and characters without a picture are
written as escapes, all else as it is. -/
namespace Herald.Text

def quotedChar (c : Char) : List Char :=
  match c.toNat with
  | 0 => ['\\', '0']
  | 9 => ['\\', 't']
  | 10 => ['\\', 'n']
  | 13 => ['\\', 'r']
  | 34 => ['\\', c]
  | 92 => ['\\', c]
  | n => if Unicode.isHidden c then "\\u\x7b".toList ++ Nat.toDigits 16 n ++ ['\x7d'] else [c]

def quoted (s : List Char) : List Char := '\x22' :: s.flatMap quotedChar ++ ['\x22']

end Herald.Text
