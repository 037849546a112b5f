import Herald.Text.Blank
import Herald.Text.Numeral
import Herald.Unicode.DecimalDigit

/-! One line of an order. A line names an item in one of two forms, or it is a header with the customer
or the time. Where a line can be cut in several ways, the cuts are tried in a fixed order: with the
bullet before without it, with more leading blanks before fewer, and with a shorter name first. -/
namespace Herald.Order

open Herald.Text Herald.Unicode

/-- An item as written: its name with any blanks around it, and the digits of quantity and price. -/
structure Written where
  name : List Char
  quantity : List Char
  price : Option (List Char)
  deriving DecidableEq, Repr

def isBullet (c : Char) : Bool := c == '-' || c == '•' || c == '*'

def isTimes (c : Char) : Bool := c == '×' || c == 'x' || c == 'X' || c == '*'

def isCurrency (c : Char) : Bool := c == '¥' || c == '￥'

def skipBlanks (s : List Char) : List Char := s.dropWhile isBlank

def digits? (s : List Char) : Option (List Char × List Char) :=
  let row := s.takeWhile isDecimalDigit
  if row = [] then none else some (row, s.dropWhile isDecimalDigit)

def amount? (s : List Char) : Option (List Char) :=
  match digits? s with
  | none => none
  | some (whole, '.' :: r) =>
    match digits? r with
    | some (fraction, _) => some (whole ++ '.' :: fraction)
    | none => some whole
  | some (whole, _) => some whole

def times? (s : List Char) : Option (List Char) :=
  match skipBlanks s with
  | c :: r => if isTimes c then some (skipBlanks r) else none
  | [] => none

def freePrice? (s : List Char) : Option (List Char) :=
  (times? s).bind fun r =>
    match r with
    | c :: rest => if isCurrency c then amount? rest else amount? r
    | [] => none

def freeTail? (s : List Char) : Option (List Char × Option (List Char)) :=
  match (times? s).bind digits? with
  | some (quantity, rest) => some (quantity, freePrice? rest)
  | none => none

/-- The shortest non-empty name that such a tail follows. -/
def freeFrom? : List Char → Option Written
  | [] => none
  | c :: r =>
    match freeTail? r with
    | some (quantity, price) => some ⟨[c], quantity, price⟩
    | none => (freeFrom? r).map fun w => { w with name := c :: w.name }

def afterBlanks : List Char → List (List Char)
  | [] => [[]]
  | c :: r => if isBlank c then afterBlanks r ++ [c :: r] else [c :: r]

/-- The places where a name may start, in the order in which they are tried. -/
def starts (line : List Char) : List (List Char) :=
  (match line with
    | c :: r => if isBullet c then afterBlanks r else []
    | [] => []) ++ afterBlanks line

def free? (line : List Char) : Option Written := (starts line).findSome? freeFrom?

def labelledPrice? (s : List Char) : Option (List Char) :=
  match s with
  | c :: _ =>
    if isBlank c then (dropLead "price:".toList (skipBlanks s)).bind amount? else none
  | [] => none

def labelled? (line : List Char) : Option Written := do
  let body := match line with
    | c :: r => if isBullet c then skipBlanks r else line
    | [] => []
  let quoted ← dropLead "name:\x22".toList body
  let name := quoted.takeWhile (· != '\x22')
  let after ← dropLead ['\x22'] (quoted.dropWhile (· != '\x22'))
  if name = [] ∨ !((after.head?.map isBlank).getD false) then none
  else
    let tail ← dropLead "qty:".toList (skipBlanks after)
    let (quantity, rest) ← digits? tail
    some ⟨name, quantity, labelledPrice? rest⟩

/-- The value of a header with one of the labels; a header without a value is none. -/
def headerValue? (labels : List (List Char)) (line : List Char) : Option (List Char) :=
  labels.findSome? fun label =>
    (dropLead label line).bind fun r =>
      match skipBlanks r with
      | c :: rest =>
        let value := trim rest
        if (c == ':' || c == '：') && value != [] then some value else none
      | [] => none

def customerLabels : List (List Char) :=
  ["点菜人".toList, "顾客".toList, "Customer".toList, "customer".toList]

def timeLabels : List (List Char) := ["时间".toList, "Time".toList, "time".toList]

end Herald.Order
