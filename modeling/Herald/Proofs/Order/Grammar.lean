import Herald.Order.Basic
import Herald.Proofs.Text.Blank
import Herald.Proofs.Unicode.DecimalDigit

/-! The grammar of the lines of an order, told by the ways in which a line can be cut. A labelled item is cut in
one way only. A free item may be cut out of its line in several ways, and the first of them counts. The digits
of an item are the longest row, and its price the longest amount, that stand there. -/
namespace Herald.Order

open Herald.Text Herald.Unicode

def AtMostOne (kind : Char → Bool) (s : List Char) : Prop := s = [] ∨ ∃ c, s = [c] ∧ kind c = true

structure Longest (kind : List Char → Prop) (part text : List Char) : Prop where
  front : part <+: text
  holds : kind part
  longest : ∀ other, other <+: text → kind other → other.length ≤ part.length

structure IsRow (s : List Char) : Prop where
  some_ : s ≠ []
  digits : ∀ c ∈ s, isDecimalDigit c = true

inductive IsAmount : List Char → Prop
  | whole {row : List Char} : IsRow row → IsAmount row
  | fraction {row more : List Char} : IsRow row → IsRow more → IsAmount (row ++ '.' :: more)

def LabelledPrice (rest price : List Char) : Prop :=
  ∃ gap tail, rest = gap ++ ("price:".toList ++ tail) ∧ gap ≠ [] ∧ Blank gap ∧
    Longest IsAmount price tail

/-- The one way to cut a labelled item out of a line. -/
structure LabelledForm (line : List Char) (w : Written) : Prop where
  cut : ∃ edge bullet lead gap rest,
    line = edge ++ (bullet ++ (lead ++ ("name:\x22".toList ++ (w.name ++ ('\x22' :: (gap ++
      ("qty:".toList ++ (w.quantity ++ rest)))))))) ∧
    Blank edge ∧ AtMostOne isBullet bullet ∧ Blank lead ∧ gap ≠ [] ∧ Blank gap ∧
    Longest IsRow w.quantity (w.quantity ++ rest) ∧
    ∀ price, w.price = some price ↔ LabelledPrice rest price
  named : w.name ≠ []
  unquoted : '\x22' ∉ w.name

def FreePrice (rest price : List Char) : Prop :=
  ∃ before sign after currency tail, rest = before ++ sign :: (after ++ (currency ++ tail)) ∧
    Blank before ∧ isTimes sign = true ∧ Blank after ∧ AtMostOne isCurrency currency ∧
    Longest IsAmount price tail

/-- A line in parts: a bullet, blanks, a name, a multiplication sign between blanks, a quantity, and what
follows it. -/
structure Cut where
  bullet : List Char
  lead : List Char
  name : List Char
  before : List Char
  sign : Char
  after : List Char
  quantity : List Char
  rest : List Char

namespace Cut

def tail (c : Cut) : List Char := c.before ++ c.sign :: (c.after ++ (c.quantity ++ c.rest))

def start (c : Cut) : List Char := c.name ++ c.tail

def text (c : Cut) : List Char := c.bullet ++ (c.lead ++ c.start)

structure IsOf (line : List Char) (c : Cut) : Prop where
  text : c.text = line
  bullet : AtMostOne isBullet c.bullet
  lead : Blank c.lead
  name : c.name ≠ []
  before : Blank c.before
  sign : isTimes c.sign = true
  after : Blank c.after
  quantity : IsRow c.quantity

/-- The order in which the cuts of a line are tried: with a bullet before without, with more blanks before
fewer, with a shorter name first, and with more digits before fewer. -/
def Precedes (c d : Cut) : Prop :=
  d.bullet.length < c.bullet.length ∨ d.bullet.length = c.bullet.length ∧
    (d.lead.length < c.lead.length ∨ d.lead.length = c.lead.length ∧
      (c.name.length < d.name.length ∨ c.name.length = d.name.length ∧
        d.quantity.length < c.quantity.length))

structure IsFirst (line : List Char) (c : Cut) : Prop where
  cut : c.IsOf line
  first : ∀ d, IsOf line d → ¬ d.Precedes c

end Cut

def FreeForm (line : List Char) (w : Written) : Prop :=
  ∃ c : Cut, c.IsFirst line ∧ w.name = c.name ∧ w.quantity = c.quantity ∧
    ∀ price, w.price = some price ↔ FreePrice c.rest price

/-- An item that is written somewhere: its name is not blank, its quantity is a word in ASCII digits, and it has
a price if one is written in ASCII digits. -/
structure Written.Means (w : Written) (item : OrderItem) : Prop where
  named : trim w.name ≠ []
  name : item.name = String.ofList (trim w.name)
  ascii : ∀ c ∈ w.quantity, c.toNat < 0x80
  word : valueOf w.quantity < quantityLimit
  quantity : item.quantity = valueOf w.quantity
  priced : item.price.isSome = true ↔ ∃ price, w.price = some price ∧ ∀ c ∈ price, c.toNat < 0x80
  price : item.price = w.price.bind priceOf

/-- The item of a line: a labelled one, or else a free one. -/
def Names (line : List Char) (item : OrderItem) : Prop :=
  (∃ w, LabelledForm line w ∧ w.Means item) ∨
    (∀ w other, LabelledForm line w → ¬ w.Means other) ∧ ∃ w, FreeForm line w ∧ w.Means item

/-! ### Characters -/

theorem isBlank_of_isDecimalDigit {c : Char} (digit : isDecimalDigit c = true) : isBlank c = false :=
  Bool.eq_false_iff.2 fun blank => by
    rw [isDecimalDigit_of_isBlank blank] at digit
    cases digit

theorem isBlank_of_isTimes {c : Char} (times : isTimes c = true) : isBlank c = false := by
  simp only [isTimes, Bool.or_eq_true, beq_iff_eq] at times
  rcases times with ((rfl | rfl) | rfl) | rfl <;> decide

theorem isBlank_of_isCurrency {c : Char} (currency : isCurrency c = true) : isBlank c = false := by
  simp only [isCurrency, Bool.or_eq_true, beq_iff_eq] at currency
  rcases currency with rfl | rfl <;> decide

theorem isBlank_of_isBullet {c : Char} (bullet : isBullet c = true) : isBlank c = false := by
  simp only [isBullet, Bool.or_eq_true, beq_iff_eq] at bullet
  rcases bullet with (rfl | rfl) | rfl <;> decide

theorem isCurrency_of_isDecimalDigit {c : Char} (digit : isDecimalDigit c = true) :
    isCurrency c = false := by
  refine Bool.eq_false_iff.2 fun currency => ?_
  simp only [isCurrency, Bool.or_eq_true, beq_iff_eq] at currency
  rcases currency with rfl | rfl
  · rw [isDecimalDigit_eq_false (by decide) (by decide)] at digit
    cases digit
  · rw [isDecimalDigit_eq_false (by decide) (by decide)] at digit
    cases digit

theorem isDecimalDigit_point : isDecimalDigit '.' = false := by
  rw [isDecimalDigit_ascii (by decide)]
  decide

/-! ### Longest parts -/

variable {kind : List Char → Prop} {part text row rest line s price : List Char} {w : Written}

theorem Longest.unique {other : List Char} (a : Longest kind part text) (b : Longest kind other text) :
    part = other :=
  (List.prefix_of_prefix_length_le a.front b.front (b.longest _ a.front a.holds)).eq_of_length_le
    (a.longest _ b.front b.holds)

theorem IsRow.stops_isBlank (isRow : IsRow row) (rest : List Char) : Stops isBlank (row ++ rest) := by
  obtain ⟨c, row, rfl⟩ := List.exists_cons_of_ne_nil isRow.some_
  exact stops_cons.2 (isBlank_of_isDecimalDigit (isRow.digits c List.mem_cons_self))

theorem longest_isRow_iff :
    Longest IsRow row (row ++ rest) ↔ IsRow row ∧ Stops isDecimalDigit rest := by
  constructor
  · rintro ⟨-, isRow, longest⟩
    refine ⟨isRow, fun c first => Bool.eq_false_iff.2 fun digit => ?_⟩
    obtain ⟨more, rfl⟩ := List.head?_eq_some_iff.1 first
    have longer := longest (row ++ [c]) ⟨more, by simp⟩
      ⟨by simp, by simpa using fun d mem => mem.elim (isRow.digits d) fun is => is ▸ digit⟩
    rw [List.length_append, List.length_singleton] at longer
    exact Nat.not_succ_le_self _ longer
  · rintro ⟨isRow, stops⟩
    refine ⟨List.prefix_append _ _, isRow, fun other front isOther => ?_⟩
    obtain ⟨more, whole⟩ := front
    have taken := (span_append isRow.digits stops).1
    rw [← whole, List.takeWhile_append_of_pos isOther.digits] at taken
    rw [← taken, List.length_append]
    exact Nat.le_add_right _ _

theorem digits?_append (isRow : IsRow row) (stops : Stops isDecimalDigit rest) :
    digits? (row ++ rest) = some (row, rest) := by
  obtain ⟨taken, left⟩ := span_append isRow.digits stops
  simp [digits?, taken, left, isRow.some_]

theorem digits?_eq_some_iff :
    digits? s = some (row, rest) ↔ s = row ++ rest ∧ Longest IsRow row (row ++ rest) := by
  constructor
  · intro found
    simp only [digits?] at found
    split at found
    · cases found
    · next some_ =>
      cases found
      refine ⟨List.takeWhile_append_dropWhile.symm, longest_isRow_iff.2 ⟨⟨some_, fun _ => List.mem_takeWhile_imp⟩, ?_⟩⟩
      exact stops_dropWhile _ s
  · rintro ⟨rfl, longest⟩
    obtain ⟨isRow, stops⟩ := longest_isRow_iff.1 longest
    exact digits?_append isRow stops

theorem exists_of_isRow (isRow : IsRow row) (front : row <+: s) :
    ∃ quantity more, digits? s = some (quantity, more) := by
  obtain ⟨rest, rfl⟩ := front
  have some_ : (row ++ rest).takeWhile isDecimalDigit ≠ [] := by
    rw [List.takeWhile_append_of_pos isRow.digits]
    exact List.append_ne_nil_of_left_ne_nil isRow.some_ _
  exact ⟨_, _, if_neg some_⟩

theorem IsAmount.exists_isRow (amount : IsAmount price) : ∃ row, IsRow row ∧ row <+: price := by
  cases amount with
  | whole isRow => exact ⟨_, isRow, List.prefix_rfl⟩
  | fraction isRow _ => exact ⟨_, isRow, List.prefix_append _ _⟩

theorem Longest.exists_digit (longest : Longest IsAmount price s) :
    ∃ c more, s = c :: more ∧ isDecimalDigit c = true := by
  obtain ⟨row, isRow, front⟩ := longest.holds.exists_isRow
  obtain ⟨more, rfl⟩ := front.trans longest.front
  obtain ⟨c, row, rfl⟩ := List.exists_cons_of_ne_nil isRow.some_
  exact ⟨c, row ++ more, rfl, isRow.digits c List.mem_cons_self⟩

theorem digits?_point (isRow : IsRow row) (s : List Char) :
    digits? (row ++ '.' :: s) = some (row, '.' :: s) :=
  digits?_append isRow (stops_cons.2 isDecimalDigit_point)

theorem digits?_of_fraction {row more : List Char} (isRow : IsRow row) (front : row ++ '.' :: more <+: s) :
    ∃ tail, digits? s = some (row, '.' :: tail) ∧ more <+: tail := by
  obtain ⟨rest, rfl⟩ := front
  refine ⟨more ++ rest, ?_, List.prefix_append _ _⟩
  simpa using digits?_point isRow (more ++ rest)

theorem longest_of_digits? {row rest : List Char} (cut : digits? s = some (row, rest))
    (noFraction : ∀ tail fraction, rest = '.' :: tail → fraction <+: tail → ¬ IsRow fraction) :
    Longest IsAmount row s := by
  obtain ⟨rfl, longest⟩ := digits?_eq_some_iff.1 cut
  refine ⟨longest.front, .whole longest.holds, fun other frontOther amount => ?_⟩
  cases amount with
  | whole isOther => exact longest.longest _ frontOther isOther
  | fraction isOther isMore =>
    obtain ⟨tail, cutOther, frontMore⟩ := digits?_of_fraction isOther frontOther
    obtain ⟨rfl, rfl⟩ : row = _ ∧ rest = '.' :: tail := by simpa [cut] using cutOther
    exact absurd isMore (noFraction tail _ rfl frontMore)

theorem longest_of_amount? (found : amount? s = some price) : Longest IsAmount price s := by
  simp only [amount?] at found
  split at found
  · cases found
  · next whole tail cut =>
    split at found
    · next fraction rest cutTail =>
      cases found
      obtain ⟨rfl, longest⟩ := digits?_eq_some_iff.1 cut
      obtain ⟨rfl, longestTail⟩ := digits?_eq_some_iff.1 cutTail
      refine ⟨⟨rest, by simp⟩, .fraction longest.holds longestTail.holds, fun other frontOther amount => ?_⟩
      cases amount with
      | whole isOther =>
        have short := longest.longest _ frontOther isOther
        rw [List.length_append]
        exact short.trans (Nat.le_add_right _ _)
      | fraction isOther isMore =>
        obtain ⟨tail, cutOther, frontMore⟩ := digits?_of_fraction isOther frontOther
        obtain ⟨rfl, rfl⟩ : whole = _ ∧ fraction ++ rest = tail := by simpa [cut] using cutOther
        have short := longestTail.longest _ frontMore isMore
        simpa using short
    · next none_ =>
      cases found
      refine longest_of_digits? cut fun tail' fraction eq front isRow => ?_
      obtain ⟨_, _, read⟩ := exists_of_isRow isRow front
      rw [← (List.cons.inj eq).2, none_] at read
      cases read
  · next whole rest noPoint cut =>
    cases found
    exact longest_of_digits? cut fun tail _ eq _ _ => noPoint tail eq

theorem amount?_eq_some_iff : amount? s = some price ↔ Longest IsAmount price s := by
  refine ⟨longest_of_amount?, fun longest => ?_⟩
  obtain ⟨row, isRow, front⟩ := longest.holds.exists_isRow
  obtain ⟨quantity, more, cut⟩ := exists_of_isRow isRow (front.trans longest.front)
  obtain ⟨other, found⟩ : ∃ other, amount? s = some other := by
    simp only [amount?, cut]
    split
    · next same => cases same
    · split <;> exact ⟨_, rfl⟩
    · exact ⟨_, rfl⟩
  rw [found, longest.unique (longest_of_amount? found)]

end Herald.Order
