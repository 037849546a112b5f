import Herald.Decimal.Places
import Herald.Order.Basic

/-! The totals of an order and its two summaries: a compact one that starts with the menu, and a
detailed one that starts with customer and time. The total quantity is a word of 32 bits; an order that
does not fit has no total and no summary. -/
namespace Herald.Order

open Herald.Text

inductive Style
  | compact
  | detailed
  deriving DecidableEq, Repr

def Style.itemLimit : Style → Nat
  | .compact => 10
  | .detailed => 20

structure Overflow where
  deriving DecidableEq, Repr

def Overflow.message (_ : Overflow) : String := "attempt to add with overflow"

def addWord (total quantity : Nat) : Except Overflow Nat :=
  if total + quantity < quantityLimit then .ok (total + quantity) else .error {}

def totalQuantity (o : Order) : Except Overflow Nat :=
  o.items.foldlM (fun total item => addWord total item.quantity) 0

def totalAmount (o : Order) : Option Float :=
  if o.items.all fun item => item.price.isNone then none
  else some ((o.items.filterMap fun item =>
    item.price.map fun price => price * Float.ofNat item.quantity).foldl (· + ·) 0)

def amountText (amount : Float) : List Char := Decimal.toPlaces 2 (.ofFloat amount)

def headText (o : Order) : Style → List Char
  | .compact =>
    match o.menu with
    | some menu => "📋 Menu: ".toList ++ menu.toList ++ ['\n']
    | none => []
  | .detailed =>
    (match o.customer with
      | some customer => "Customer: ".toList ++ customer.toList ++ ['\n']
      | none => []) ++
    (match o.orderedAt with
      | some at_ => "Time: ".toList ++ at_.toList ++ ['\n']
      | none => [])

def itemText (item : OrderItem) : List Char :=
  "- ".toList ++ item.name.toList ++ " × ".toList ++ natDigits item.quantity ++
    (match item.price with
      | some price => " × ¥".toList ++ amountText price
      | none => []) ++ ['\n']

def omittedText (omitted : Nat) : List Char :=
  if omitted = 0 then [] else "... ".toList ++ natDigits omitted ++ " more\n".toList

def totalText (quantity : Nat) (amount : Option Float) : List Char :=
  "Total: ".toList ++ natDigits quantity ++ (if quantity = 1 then " item" else " items").toList ++
    (match amount with
      | some sum => ", amount: ¥".toList ++ amountText sum
      | none => [])

def renderText (o : Order) (style : Style) : Except Overflow (List Char) :=
  o.totalQuantity.map fun quantity =>
    o.headText style ++ (o.items.take style.itemLimit).flatMap itemText ++
      omittedText (o.items.length - style.itemLimit) ++ totalText quantity o.totalAmount

def render (o : Order) (style : Style) : Except Overflow String :=
  (o.renderText style).map String.ofList

def summarize? (style : Style) (content : String) : Option (Except Overflow String) :=
  (Order.parse content).map fun o => o.render style

end Herald.Order
