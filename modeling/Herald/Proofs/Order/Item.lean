import Herald.Proofs.Order.Forms
import Mathlib.Data.Option.Basic

/-! The item of a line. A trimmed line that no header takes adds the item that the grammar gives it, or nothing
if the grammar gives it none. -/
namespace Herald.Order

open Herald.Text Herald.Unicode

variable {line s price : List Char} {w : Written} {item : OrderItem}

/-! ### What a written item means -/

theorem isDigit_iff {c : Char} (digit : isDecimalDigit c = true) : isDigit c = true ↔ c.toNat < 0x80 := by
  constructor
  · intro ascii
    simp only [isDigit, Bool.and_eq_true, decide_eq_true_eq] at ascii
    exact Nat.lt_of_le_of_lt ascii.2 (by decide)
  · intro ascii
    rwa [isDecimalDigit_ascii ascii] at digit

theorem IsRow.all_isDigit_iff (isRow : IsRow s) : s.all isDigit = true ↔ ∀ c ∈ s, c.toNat < 0x80 := by
  rw [List.all_eq_true]
  exact forall₂_congr fun c mem => isDigit_iff (isRow.digits c mem)

theorem IsRow.natural?_eq_some_iff (isRow : IsRow s) {n : Nat} :
    natural? s = some n ↔ (∀ c ∈ s, c.toNat < 0x80) ∧ n = valueOf s := by
  rw [← isRow.all_isDigit_iff, natural?]
  simp only [isRow.some_, ne_eq, not_false_eq_true, true_and]
  split
  · next ascii => exact ⟨fun eq => ⟨ascii, (Option.some.inj eq).symm⟩, fun value => by rw [value.2]⟩
  · next other => exact ⟨fun eq => (Option.some_ne_none _ eq.symm).elim, fun value => absurd value.1 other⟩

theorem IsAmount.exists_parts (amount : IsAmount price) : ∃ whole fraction,
    price.takeWhile (· != '.') = whole ∧ (price.dropWhile (· != '.')).drop 1 = fraction ∧
      IsRow whole ∧ (fraction = [] ∨ IsRow fraction) ∧
      ((∀ c ∈ price, c.toNat < 0x80) ↔ (∀ c ∈ whole, c.toNat < 0x80) ∧ ∀ c ∈ fraction, c.toNat < 0x80) := by
  have plain {row : List Char} (isRow : IsRow row) : ∀ c ∈ row, (c != '.') = true := fun c mem =>
    bne_iff_ne.2 fun is => by
      have digit := isRow.digits c mem
      rw [is, isDecimalDigit_point] at digit
      cases digit
  cases amount with
  | whole isRow =>
    have cut := span_append (plain isRow) (stops_nil _)
    rw [List.append_nil] at cut
    exact ⟨price, [], cut.1, by rw [cut.2]; rfl, isRow, .inl rfl, by simp⟩
  | @fraction row more isRow isMore =>
    have cut := span_append_cons (plain isRow) (bne_self_eq_false '.') more
    refine ⟨row, more, cut.1, by rw [cut.2]; rfl, isRow, .inr isMore, ?_⟩
    simp only [List.forall_mem_append, List.forall_mem_cons]
    exact and_congr_right fun _ => and_iff_right (by decide)

theorem IsAmount.priceOf_isSome_iff (amount : IsAmount price) :
    (priceOf price).isSome = true ↔ ∀ c ∈ price, c.toNat < 0x80 := by
  obtain ⟨whole, fraction, front, back, isRow, isFraction, ascii⟩ := amount.exists_parts
  have ofFraction : fraction.all isDigit = true ↔ ∀ c ∈ fraction, c.toNat < 0x80 := by
    rcases isFraction with rfl | isFraction
    · simp
    · exact isFraction.all_isDigit_iff
  rw [ascii, ← isRow.all_isDigit_iff, ← ofFraction, ← Bool.and_eq_true, ← List.all_append]
  simp only [priceOf, front, back]
  split <;> simp_all

theorem item?_eq_some_iff (isRow : IsRow w.quantity) (amount : ∀ price, w.price = some price → IsAmount price) :
    w.item? = some item ↔ w.Means item := by
  have priced : (w.price.bind priceOf).isSome = true ↔
      ∃ price, w.price = some price ∧ ∀ c ∈ price, c.toNat < 0x80 := by
    cases found : w.price with
    | none => simp
    | some price => simpa using (amount price found).priceOf_isSome_iff
  constructor
  · intro found
    simp only [Written.item?] at found
    split at found
    · cases found
    · next named =>
      obtain ⟨n, number, found⟩ := Option.bind_eq_some_iff.1 found
      obtain ⟨ascii, rfl⟩ := isRow.natural?_eq_some_iff.1 number
      split at found
      · next word =>
        cases found
        exact ⟨named, rfl, ascii, word, rfl, priced, rfl⟩
      · cases found
  · rintro ⟨named, name, ascii, word, quantity, -, price⟩
    have number := isRow.natural?_eq_some_iff.2 ⟨ascii, rfl⟩
    simp only [Written.item?, named, number, word, if_false, if_true, Option.bind_some, Option.some.injEq]
    cases item
    simp_all

theorem LabelledForm.means_iff (form : LabelledForm line w) : w.item? = some item ↔ w.Means item := by
  obtain ⟨⟨_, _, _, _, _, _, _, _, _, _, _, longest, priced⟩, -, -⟩ := form
  refine item?_eq_some_iff longest.holds fun price found => ?_
  obtain ⟨_, _, _, _, _, longestPrice⟩ := (priced price).1 found
  exact longestPrice.holds

theorem FreeForm.means_iff (form : FreeForm line w) : w.item? = some item ↔ w.Means item := by
  obtain ⟨c, first, -, quantity, priced⟩ := form
  refine item?_eq_some_iff (quantity ▸ first.cut.quantity) fun price found => ?_
  obtain ⟨_, _, _, _, _, _, _, _, _, _, longest⟩ := (priced price).1 found
  exact longest.holds

theorem line_item?_eq_some_iff (ink : Stops isBlank line) : item? line = some item ↔ Names line item := by
  have labelled_ {other : OrderItem} : (labelled? line).bind Written.item? = some other ↔
      ∃ w, LabelledForm line w ∧ w.Means other := by
    rw [Option.bind_eq_some_iff]
    refine exists_congr fun w => ?_
    rw [labelled?_eq_some_iff ink]
    exact and_congr_right fun form => form.means_iff
  have free_ : (free? line).bind Written.item? = some item ↔ ∃ w, FreeForm line w ∧ w.Means item := by
    rw [Option.bind_eq_some_iff]
    refine exists_congr fun w => ?_
    rw [free?_eq_some_iff]
    exact and_congr_right fun form => form.means_iff
  have none_ : (labelled? line).bind Written.item? = none ↔ ∀ w other, LabelledForm line w → ¬ w.Means other := by
    rw [Option.eq_none_iff_forall_ne_some]
    constructor
    · exact fun none_ w other form means => none_ other (labelled_.2 ⟨w, form, means⟩)
    · intro none_ other found
      obtain ⟨w, form, means⟩ := labelled_.1 found
      exact none_ w other form means
  rw [item?, Option.orElse_eq_some, labelled_, free_, none_]
  rfl

/-! ### Headers -/

/-- A label, a colon after any blanks, and a value that is not blank. -/
def IsHeader (labels : List (List Char)) (line : List Char) : Prop :=
  ∃ label ∈ labels, ∃ gap mark value, line = label ++ (gap ++ mark :: value) ∧ Blank gap ∧
    (mark = ':' ∨ mark = '：') ∧ trim value ≠ []

theorem exists_of_headerValue? {labels : List (List Char)} {value : List Char}
    (found : headerValue? labels line = some value) : ∃ label ∈ labels, ∃ gap mark rest,
      line = label ++ (gap ++ mark :: rest) ∧ Blank gap ∧ (mark = ':' ∨ mark = '：') ∧ trim rest = value ∧
        value ≠ [] := by
  obtain ⟨label, mem, found⟩ := List.exists_of_findSome?_eq_some found
  obtain ⟨r, front, found⟩ := Option.bind_eq_some_iff.1 found
  rw [dropLead_eq_some_iff] at front
  split at found
  · next mark rest cut =>
    simp only [Option.ite_none_right_eq_some, Bool.and_eq_true, Bool.or_eq_true, beq_iff_eq, bne_iff_ne,
      Option.some.injEq] at found
    obtain ⟨⟨isMark, some_⟩, rfl⟩ := found
    refine ⟨label, mem, r.takeWhile isBlank, mark, rest, ?_, fun _ => List.mem_takeWhile_imp, isMark, rfl, some_⟩
    rw [← cut, skipBlanks, List.takeWhile_append_dropWhile, front]
  · cases found

theorem headerValue?_isSome_iff {labels : List (List Char)} :
    (headerValue? labels line).isSome = true ↔ IsHeader labels line := by
  constructor
  · intro found
    obtain ⟨value, found⟩ := Option.isSome_iff_exists.1 found
    obtain ⟨label, mem, gap, mark, rest, whole, blank, isMark, rfl, some_⟩ := exists_of_headerValue? found
    exact ⟨label, mem, gap, mark, rest, whole, blank, isMark, some_⟩
  · rintro ⟨label, mem, gap, mark, value, rfl, blank, isMark, named⟩
    have ink : isBlank mark = false := by rcases isMark with rfl | rfl <;> decide
    have left := (span_append_cons blank ink value).2
    have valid : ((mark == ':' || mark == '：') && trim value != []) = true := by simp [isMark, named]
    refine List.findSome?_isSome_iff.2 ⟨label, mem, ?_⟩
    rw [dropLead_eq_some_iff.2 rfl, Option.bind_some, skipBlanks, left]
    simp only [valid, if_true, Option.isSome_some]

/-- The line is read as a header, since the order has none of its kind so far. -/
def Consumes (o : Order) (line : List Char) : Prop :=
  (o.customer = none ∧ IsHeader customerLabels line) ∨ (o.orderedAt = none ∧ IsHeader timeLabels line)

theorem consumes_iff {o : Order} : o.Consumes line ↔
    (o.customer.isNone && (headerValue? customerLabels line).isSome ||
      o.orderedAt.isNone && (headerValue? timeLabels line).isSome) = true := by
  rw [Consumes, ← headerValue?_isSome_iff, ← headerValue?_isSome_iff]
  simp only [Bool.or_eq_true, Bool.and_eq_true, Option.isNone_iff_eq_none]

instance (o : Order) (line : List Char) : Decidable (o.Consumes line) := decidable_of_iff _ consumes_iff.symm

theorem headerValue?_nil (labels : List (List Char)) (some_ : [] ∉ labels) : headerValue? labels [] = none := by
  refine List.findSome?_eq_none_iff.2 fun label mem => ?_
  cases label with
  | nil => exact absurd mem some_
  | cons c label => rfl

theorem addLine_of_customer {o : Order} {value : List Char} (unset : o.customer = none)
    (found : headerValue? customerLabels line = some value) :
    o.addLine line = { o with customer := some (String.ofList value) } := by
  have some_ : line ≠ [] := by
    rintro rfl
    rw [headerValue?_nil _ (by decide)] at found
    cases found
  simp [addLine, some_, unset, found]

theorem addLine_of_time {o : Order} {value : List Char}
    (other : o.customer = none → headerValue? customerLabels line = none) (unset : o.orderedAt = none)
    (found : headerValue? timeLabels line = some value) :
    o.addLine line = { o with orderedAt := some (String.ofList value) } := by
  have some_ : line ≠ [] := by
    rintro rfl
    rw [headerValue?_nil _ (by decide)] at found
    cases found
  have noCustomer : (if o.customer.isNone then headerValue? customerLabels line else none) = none := by
    simpa using other
  rw [addLine, if_neg some_, noCustomer]
  simp [unset, found]

theorem addLine_of_not_consumes {o : Order} (free : ¬ o.Consumes line) :
    o.addLine line = { o with items := o.items ++ (item? line).toList } := by
  by_cases some_ : line = []
  · have none_ : item? [] = none := by decide
    simp [some_, addLine, none_]
  · rw [consumes_iff] at free
    simp only [Bool.or_eq_true, Bool.and_eq_true, not_or, not_and, Bool.not_eq_true, Option.isSome_eq_false_iff,
      Option.isNone_iff_eq_none] at free
    have noCustomer : (if o.customer.isNone then headerValue? customerLabels line else none) = none := by
      simpa using free.1
    have noTime : (if o.orderedAt.isNone then headerValue? timeLabels line else none) = none := by
      simpa using free.2
    rw [addLine, if_neg some_, noCustomer, noTime]
    cases item? line <;> simp

theorem addLine_cases (o : Order) (line : List Char) :
    (o.customer = none ∧ ∃ value, headerValue? customerLabels line = some value ∧
      o.addLine line = { o with customer := some (String.ofList value) }) ∨
    ((o.customer = none → headerValue? customerLabels line = none) ∧ o.orderedAt = none ∧
      ∃ value, headerValue? timeLabels line = some value ∧
        o.addLine line = { o with orderedAt := some (String.ofList value) }) ∨
    ¬ o.Consumes line ∧ o.addLine line = { o with items := o.items ++ (item? line).toList } := by
  by_cases customer : o.customer = none ∧ (headerValue? customerLabels line).isSome = true
  · obtain ⟨value, found⟩ := Option.isSome_iff_exists.1 customer.2
    exact .inl ⟨customer.1, value, found, addLine_of_customer customer.1 found⟩
  · have other : o.customer = none → headerValue? customerLabels line = none := by simpa using customer
    by_cases time : o.orderedAt = none ∧ (headerValue? timeLabels line).isSome = true
    · obtain ⟨value, found⟩ := Option.isSome_iff_exists.1 time.2
      exact .inr (.inl ⟨other, time.1, value, found, addLine_of_time other time.1 found⟩)
    · have free : ¬ o.Consumes line := by
        rw [Consumes, ← headerValue?_isSome_iff, ← headerValue?_isSome_iff]
        exact not_or.2 ⟨customer, time⟩
      exact .inr (.inr ⟨free, addLine_of_not_consumes free⟩)

/-- A trimmed line that no header takes adds the one item that the grammar gives it, and nothing else. -/
theorem addLine_names {o : Order} (trimmed : trim line = line) (free : ¬ o.Consumes line) :
    ∃ found : Option OrderItem, o.addLine line = { o with items := o.items ++ found.toList } ∧
      ∀ item, found = some item ↔ Names line item :=
  ⟨item? line, addLine_of_not_consumes free, fun _ =>
    line_item?_eq_some_iff ((trim_eq_self_iff line).1 trimmed).1⟩

/-- The bullet and the letter are signs as well: the item is cut at the shortest name behind the bullet. -/
theorem addLine_names_bullet : ∃ found : Option OrderItem,
    addLine { customer := some "A" } "* Taxi x2 X 3".toList = ⟨none, some "A", none, found.toList⟩ ∧
      ∀ item, found = some item ↔ Names "* Taxi x2 X 3".toList item :=
  @addLine_names _ { customer := some "A" } (by decide) (by decide)

end Herald.Order
