import Herald.Order.Line

/-! An order read from a memo: the items, and the menu, customer and time if they are given. A memo is
an order if it carries the tag and at least one of its lines names an item. -/
namespace Herald

open Herald.Text

structure OrderItem where
  name : String
  quantity : Nat
  price : Option Float

structure Order where
  menu : Option String := none
  customer : Option String := none
  orderedAt : Option String := none
  items : List OrderItem := []

namespace Order

def tag : List Char := "#order".toList

def quantityLimit : Nat := 0x100000000

/-- The number that digits with an optional fraction spell, if they are ASCII digits. -/
def priceOf (digits : List Char) : Option Float :=
  let whole := digits.takeWhile (· != '.')
  let fraction := (digits.dropWhile (· != '.')).drop 1
  if (whole ++ fraction).all isDigit then
    some (Float.ofScientific (valueOf (whole ++ fraction)) true fraction.length)
  else none

/-- The item a written form stands for, unless its name is blank or its quantity is no word. -/
def Written.item? (w : Written) : Option OrderItem :=
  let name := trim w.name
  if name = [] then none
  else (natural? w.quantity).bind fun n =>
    if n < quantityLimit then some ⟨String.ofList name, n, w.price.bind priceOf⟩ else none

def item? (line : List Char) : Option OrderItem :=
  ((labelled? line).bind Written.item?) <|> ((free? line).bind Written.item?)

/-- Adds what a trimmed line says. The first header of a kind counts; a later one is read as an item. -/
def addLine (o : Order) (line : List Char) : Order :=
  if line = [] then o
  else
    match if o.customer.isNone then headerValue? customerLabels line else none with
    | some value => { o with customer := some (String.ofList value) }
    | none =>
      match if o.orderedAt.isNone then headerValue? timeLabels line else none with
      | some value => { o with orderedAt := some (String.ofList value) }
      | none =>
        match item? line with
        | some item => { o with items := o.items ++ [item] }
        | none => o

def isMenuChar (c : Char) : Bool := c.isAlphanum || c == '_' || c == '-'

def menu? : List Char → Option (List Char)
  | [] => none
  | c :: r =>
    let id := ((dropLead "#menu:".toList (c :: r)).getD []).takeWhile isMenuChar
    if id = [] then menu? r else some id

def trimmedLines (content : List Char) : List (List Char) := (splitAt '\n' content).map trim

def parseText (content : List Char) : Option Order :=
  if contains tag content then
    let o := (trimmedLines content).foldl addLine { menu := (menu? content).map String.ofList }
    if o.items.isEmpty then none else some o
  else none

def parse (content : String) : Option Order := parseText content.toList

theorem addLine_nil (o : Order) : o.addLine [] = o := rfl

end Order

end Herald
