import Herald.Order.Summary
import Herald.Proofs.Decimal.Unsigned
import Herald.Proofs.Order.Item
import Herald.Proofs.Text.Numeral

/-! The line of an item in a summary is read as that item. The name of a free item begins and ends with ink, and
no number stands behind a multiplication sign in it: behind the bullet of a summary the first cut is at the whole
name again. -/
namespace Herald.Order

open Herald.Text Herald.Unicode Herald.Decimal

variable {name tail line : List Char} {w : Written} {item : OrderItem}

structure IsName (name : List Char) : Prop where
  some_ : name ≠ []
  begins : Stops isBlank name
  ends : EndsInInk name
  uncounted : ∀ front sign gap digit back, name = front ++ sign :: (gap ++ digit :: back) → isTimes sign = true →
    Blank gap → isDecimalDigit digit = true → front = []

/-! ### Names of first cuts -/

theorem Cut.IsFirst.isName {c : Cut} (first : c.IsFirst line) (named : trim c.name ≠ []) : IsName c.name := by
  obtain ⟨ofC, first⟩ := first
  have blank_ {b : Char} (blank : isBlank b = true) : c.name ≠ [b] := by
    intro eq
    rw [eq] at named
    simp [trim, trimStart, trimEnd, blank] at named
  -- with a blank around the name, or a number in it, another cut of the line would go first
  refine ⟨ofC.name, fun b head => Bool.eq_false_iff.2 fun blank => ?_,
    fun b last => Bool.eq_false_iff.2 fun blank => ?_, fun front sign gap digit back whole times blankGap decimal => ?_⟩
  · obtain ⟨name, eq⟩ := List.head?_eq_some_iff.1 head
    have shorter : name ≠ [] := by
      rintro rfl
      exact blank_ blank eq
    have ofD : Cut.IsOf line { c with lead := c.lead ++ [b], name := name } :=
      ⟨by rw [← ofC.text]; simp [Cut.text, Cut.start, Cut.tail, eq], ofC.bullet,
        List.forall_mem_append.2 ⟨ofC.lead, by simp [blank]⟩, shorter, ofC.before, ofC.sign, ofC.after, ofC.quantity⟩
    exact first _ ofD (.inr ⟨rfl, .inl (by simp)⟩)
  · obtain ⟨name, eq⟩ := List.getLast?_eq_some_iff.1 last
    have shorter : name ≠ [] := by
      rintro rfl
      exact blank_ blank eq
    have ofD : Cut.IsOf line { c with name := name, before := b :: c.before } :=
      ⟨by rw [← ofC.text]; simp [Cut.text, Cut.start, Cut.tail, eq], ofC.bullet, ofC.lead, shorter,
        List.forall_mem_cons.2 ⟨blank, ofC.before⟩, ofC.sign, ofC.after, ofC.quantity⟩
    exact first _ ofD (.inr ⟨rfl, .inr ⟨rfl, .inl (by simp [eq])⟩⟩)
  · by_contra some_
    have ofD : Cut.IsOf line { c with name := front, before := [], sign := sign, after := gap, quantity := [digit],
                                      rest := back ++ c.tail } :=
      ⟨by rw [← ofC.text]; simp [Cut.text, Cut.start, Cut.tail, whole], ofC.bullet, ofC.lead, some_, blank_nil, times,
        blankGap, ⟨by simp, by simpa using decimal⟩⟩
    exact first _ ofD (.inr ⟨rfl, .inr ⟨rfl, .inl (by simp [whole])⟩⟩)

/-! ### The first cut behind the bullet of a summary -/

def printed (name quantity rest : List Char) : Cut := ⟨['-'], [' '], name, [' '], '×', [' '], quantity, rest⟩

theorem isOf_printed {quantity rest : List Char} (some_ : name ≠ []) (isRow : IsRow quantity) :
    Cut.IsOf (printed name quantity rest).text (printed name quantity rest) :=
  ⟨rfl, .inr ⟨'-', rfl, rfl⟩, by simp [printed, Blank, isBlank], some_, by simp [printed, Blank, isBlank], rfl,
    by simp [printed, Blank, isBlank], isRow⟩

theorem not_later {quantity rest : List Char} {d : Cut} (isName : IsName name)
    (ofD : d.IsOf (printed name quantity rest).text) :
    ¬ d.start.length < (printed name quantity rest).start.length := by
  intro later
  have whole : d.bullet ++ (d.lead ++ d.start) = '-' :: ' ' :: (printed name quantity rest).start := ofD.text
  rcases ofD.bullet with plain | ⟨b, bullet, -⟩
  · rw [plain, List.nil_append] at whole
    have lead : d.lead = [] := ofD.lead.eq_nil_of_stops (whole ▸ stops_cons.2 rfl)
    rw [lead, List.nil_append] at whole
    simp only [whole, List.length_cons] at later
    omega
  · rw [bullet, List.singleton_append] at whole
    have behind := (List.cons.inj whole).2
    rcases leadEq : d.lead with _ | ⟨e, lead⟩
    · rw [leadEq, List.nil_append] at behind
      simp only [behind, List.length_cons] at later
      omega
    · rw [leadEq, List.cons_append] at behind
      have start := (List.cons.inj behind).2
      have blank : Blank lead := (List.forall_mem_cons.1 (leadEq ▸ ofD.lead)).2
      have ink : Stops isBlank (printed name quantity rest).start := isName.begins.append isName.some_ _
      have none_ : lead = [] := blank.eq_nil_of_stops (start ▸ ink)
      rw [none_, List.nil_append] at start
      rw [start] at later
      exact Nat.lt_irrefl _ later

theorem IsName.not_counted {front back more before after rest : List Char} {sign digit : Char}
    (isName : IsName (front ++ back)) (someFront : front ≠ []) (someBack : back ≠ []) (blankBefore : Blank before)
    (times : isTimes sign = true) (blankAfter : Blank after) (decimal : isDecimalDigit digit = true) :
    back ++ ' ' :: '×' :: more ≠ before ++ sign :: (after ++ digit :: rest) := by
  intro whole
  have notBlank : digit ≠ ' ' := by
    rintro rfl
    exact absurd decimal (by decide)
  rcases List.append_eq_append_iff.1 whole with ⟨gap, eq, -⟩ | ⟨later, eq, tail⟩
  · -- the name would end in a blank
    obtain ⟨init, b, rfl⟩ := List.eq_nil_or_concat back |>.resolve_left someBack
    have blank := blankBefore b (by simp [eq])
    rw [isName.ends b (by simp)] at blank
    cases blank
  · rcases later with _ | ⟨e, later⟩
    · rw [(List.cons.inj tail).1] at times
      cases times
    · -- the sign stands in the name, but its digit neither there nor behind it
      obtain ⟨rfl, behind⟩ := List.cons.inj tail
      rcases List.append_eq_append_iff.1 behind with ⟨inside, eqLater, digits⟩ | ⟨gap, eqAfter, blanks⟩
      · rcases inside with _ | ⟨d, inside⟩
        · exact notBlank (List.cons.inj digits).1
        · obtain ⟨rfl, -⟩ := List.cons.inj digits
          have none_ := isName.uncounted (front ++ before) sign after digit inside (by simp [eq, eqLater]) times
            blankAfter decimal
          exact someFront (List.append_eq_nil_iff.1 none_).1
      · rcases gap with _ | ⟨b, _ | ⟨b', gap⟩⟩
        · exact notBlank (List.cons.inj blanks).1.symm
        · have is := (List.cons.inj (List.cons.inj blanks).2).1
          rw [← is, isDecimalDigit_eq_false (by decide) (by decide)] at decimal
          cases decimal
        · have is := (List.cons.inj (List.cons.inj blanks).2).1
          have blank := blankAfter b' (by simp [eqAfter])
          rw [← is] at blank
          cases blank

theorem not_shorter {quantity rest : List Char} {d : Cut} (isName : IsName name) (ofD : d.IsOf line)
    (same : d.start = (printed name quantity rest).start) : ¬ d.name.length < name.length := by
  intro shorter
  have whole : d.name ++ d.tail = name ++ (printed name quantity rest).tail := same
  rcases List.append_eq_append_iff.1 whole with ⟨back, rfl, tail⟩ | ⟨more, eq, -⟩
  · have someBack : back ≠ [] := by
      rintro rfl
      simp at shorter
    obtain ⟨digit, row, eq⟩ := List.exists_cons_of_ne_nil ofD.quantity.some_
    have counted : back ++ ' ' :: '×' :: ' ' :: (quantity ++ rest) =
        d.before ++ d.sign :: (d.after ++ digit :: (row ++ d.rest)) := by
      rw [Cut.tail, eq] at tail
      exact tail.symm
    exact isName.not_counted ofD.name someBack ofD.before ofD.sign ofD.after
      (ofD.quantity.digits digit (by simp [eq])) counted
  · rw [eq, List.length_append] at shorter
    omega

/-- The first cut of a printed item is at its name. -/
theorem isFirst_printed {quantity rest : List Char} (isName : IsName name)
    (longest : Longest IsRow quantity (quantity ++ rest)) :
    (printed name quantity rest).IsFirst (printed name quantity rest).text := by
  have ofC : Cut.IsOf (printed name quantity rest).text (printed name quantity rest) :=
    isOf_printed isName.some_ longest.holds
  refine ⟨ofC, fun d ofD precedes => ?_⟩
  rcases (Cut.precedes_iff ofC ofD).1 precedes with later | ⟨sameLength, shorter | ⟨sameName, longer⟩⟩
  · exact not_later isName ofD later
  · exact not_shorter isName ofD (ofC.start_eq ofD sameLength) shorter
  · obtain ⟨-, sameTail⟩ := List.append_inj (ofC.start_eq ofD sameLength) sameName
    exact Nat.not_le.2 longer (longest.longest _ (ofC.quantity_prefix ofD sameTail) ofD.quantity)

/-! ### No labelled item appears -/

theorem isDecimalDigit_of_isTimes {c : Char} (times : isTimes c = true) : isDecimalDigit c = false := by
  simp only [isTimes, Bool.or_eq_true, beq_iff_eq] at times
  rcases times with ((rfl | rfl) | rfl) | rfl
  · exact isDecimalDigit_eq_false (by decide) (by decide)
  · decide
  · decide
  · decide

theorem Cut.IsOf.stops_tail {c : Cut} (ofC : c.IsOf line) : Stops isDecimalDigit c.tail := by
  rw [tail]
  rcases eq : c.before with _ | ⟨b, before⟩
  · exact stops_cons.2 (isDecimalDigit_of_isTimes ofC.sign)
  · exact stops_cons.2 (isDecimalDigit_of_isBlank (ofC.before b (by simp [eq])))

theorem LabelledCut.transfer {tail tail' label quantity rest : List Char}
    (cut : LabelledCut (name ++ tail) label quantity rest) (plain : ':' ∉ tail)
    (stops : Stops isDecimalDigit tail) (stops' : Stops isDecimalDigit tail') :
    ∃ rest', LabelledCut (name ++ tail') label quantity rest' := by
  obtain ⟨⟨gap, whole, someGap, blankGap⟩, longest, named, unquoted⟩ := cut
  obtain ⟨isRow, stopsRest⟩ := longest_isRow_iff.1 longest
  let front := "name:\x22".toList ++ (label ++ ('\x22' :: (gap ++ "qty".toList)))
  have atColon : name ++ tail = (front ++ [':']) ++ (quantity ++ rest) := by
    rw [whole]
    simp [front]
  -- the label ends in the name, for the rest has no colon
  obtain ⟨inside, rfl, digits⟩ : ∃ inside, name = (front ++ [':']) ++ inside ∧ quantity ++ rest = inside ++ tail := by
    rcases List.append_eq_append_iff.1 atColon with ⟨more, eq, eqTail⟩ | found
    · rcases List.eq_nil_or_concat more with rfl | ⟨init, b, rfl⟩
      · exact ⟨[], by simpa using eq.symm, by simpa using eqTail.symm⟩
      · rw [List.concat_eq_append, ← List.append_assoc] at eq
        have is := (List.append_inj' eq rfl).2
        refine absurd ?_ plain
        rw [eqTail, List.concat_eq_append, ← is]
        simp
    · exact found
  -- its digits end there as well, for the rest starts with none
  obtain ⟨later, rfl, rfl⟩ : ∃ later, inside = quantity ++ later ∧ rest = later ++ tail := by
    rcases List.append_eq_append_iff.1 digits with found | ⟨more, eq, eqTail⟩
    · exact found
    · rcases more with _ | ⟨d, more⟩
      · exact ⟨[], by simpa using eq.symm, by simpa using eqTail.symm⟩
      · have stop : isDecimalDigit d = false := by
          rw [eqTail] at stops
          exact stops_cons.1 stops
        rw [isRow.digits d (by simp [eq])] at stop
        cases stop
  have stopsLater : Stops isDecimalDigit (later ++ tail') := by
    rcases later with _ | ⟨d, later⟩
    · exact stops'
    · exact stops_cons.2 (stops_cons.1 stopsRest)
  exact ⟨later ++ tail', ⟨gap, by simp [front], someGap, blankGap⟩, longest_isRow_iff.2 ⟨isRow, stopsLater⟩, named,
    unquoted⟩

theorem body_printed {quantity rest : List Char} (isName : IsName name) :
    body (printed name quantity rest).text = (printed name quantity rest).start := by
  have ink : Stops isBlank (printed name quantity rest).start := isName.begins.append isName.some_ _
  exact ink.span.2

theorem item?_isSome_congr {v : Written} (name : w.name = v.name) (quantity : w.quantity = v.quantity) :
    w.item?.isSome = v.item?.isSome := by
  simp only [Written.item?, name, quantity]
  split
  · rfl
  · cases natural? v.quantity with
    | none => rfl
    | some n =>
      simp only [Option.bind_some]
      split <;> rfl

theorem Cut.IsFirst.labelled?_printed {c : Cut} (first : c.IsFirst line) (ink : Stops isBlank line)
    (isName : IsName c.name) {quantity rest : List Char} (plain : ':' ∉ quantity ++ rest)
    (found : labelled? (printed c.name quantity rest).text = some w) :
    ∃ v, labelled? line = some v ∧ v.name = w.name ∧ v.quantity = w.quantity := by
  obtain ⟨behind, cut, -⟩ := cut_of_labelled? found
  rw [body_printed isName] at cut
  obtain ⟨e, name, eq⟩ := List.exists_cons_of_ne_nil isName.some_
  obtain rfl : e = 'n' := by
    obtain ⟨gap, whole, -⟩ := cut.cut
    change c.name ++ _ = _ at whole
    rw [eq] at whole
    exact (List.cons.inj whole).1
  have body_eq : body line = c.start := by
    have whole : line = [] ++ (c.bullet ++ (c.lead ++ 'n' :: (name ++ c.tail))) := by
      rw [← first.cut.text, Cut.text, Cut.start, eq]
      rfl
    rw [body_of_cut ink whole blank_nil first.cut.bullet first.cut.lead rfl rfl, Cut.start, eq]
    rfl
  have plainTail : ':' ∉ (printed c.name quantity rest).tail := by
    simpa [Cut.tail, printed] using plain
  have stops : Stops isDecimalDigit (printed c.name quantity rest).tail := stops_cons.2 (by decide)
  obtain ⟨rest', again⟩ := LabelledCut.transfer cut plainTail stops first.cut.stops_tail
  change LabelledCut c.start w.name w.quantity rest' at again
  rw [← body_eq] at again
  exact ⟨⟨w.name, w.quantity, labelledPrice? rest'⟩, labelled?_of_cut again rfl, rfl, rfl⟩

/-! ### The line of an item -/

def priceText (item : OrderItem) : List Char :=
  match item.price with
  | some price => " × ¥".toList ++ amountText price
  | none => []

def itemLine (item : OrderItem) : List Char :=
  (printed item.name.toList (natDigits item.quantity) (priceText item)).text

theorem itemText_eq (item : OrderItem) : itemText item = itemLine item ++ ['\n'] := by
  rcases item with ⟨name, quantity, _ | price⟩ <;>
    simp [itemText, itemLine, priceText, printed, Cut.text, Cut.start, Cut.tail]

theorem isRow_natDigits (n : Nat) : IsRow (natDigits n) := by
  refine ⟨natDigits_ne_nil n, fun c mem => ?_⟩
  have digit := isDigit_of_mem_natDigits mem
  rw [isDecimalDigit, ← isDigit, digit]
  rfl

structure IsPriceText (text : List Char) : Prop where
  amount : IsAmount text
  ascii : ∀ c ∈ text, c.toNat < 0x80
  plain : ':' ∉ text

theorem isPriceText_amountText {price : Float} (unsigned : IsUnsigned price) (finite : price.isFinite = true) :
    IsPriceText (amountText price) := by
  obtain ⟨whole, part, eq⟩ := exists_toPlaces unsigned finite (show 2 ≠ 0 by decide)
  have isRow : IsRow (padded 2 part) := by
    refine ⟨padded_ne_nil 2 part, fun c mem => ?_⟩
    rw [isDecimalDigit, ← isDigit, isDigit_of_mem_padded mem]
    rfl
  have digit {c : Char} (digit : isDigit c = true) : c.toNat < 0x80 ∧ c ≠ ':' := by
    simp only [isDigit, Bool.and_eq_true, decide_eq_true_eq] at digit
    refine ⟨Nat.lt_of_le_of_lt digit.2 (by decide), ?_⟩
    rintro rfl
    exact absurd digit.2 (by decide)
  have each : ∀ c ∈ amountText price, c.toNat < 0x80 ∧ c ≠ ':' := by
    rw [amountText, eq]
    refine List.forall_mem_append.2 ⟨fun c mem => digit (isDigit_of_mem_natDigits mem),
      List.forall_mem_cons.2 ⟨by decide, fun c mem => digit (isDigit_of_mem_padded mem)⟩⟩
  refine ⟨?_, fun c mem => (each c mem).1, fun mem => (each ':' mem).2 rfl⟩
  rw [amountText, eq]
  exact .fraction (isRow_natDigits whole) isRow

/-- The price of an item is a finite number without a sign, if it has one. -/
structure IsPriced (item : OrderItem) : Prop where
  unsigned : ∀ price, item.price = some price → IsUnsigned price
  finite : ∀ price, item.price = some price → price.isFinite = true

theorem IsPriced.isPriceText {price : Float} (priced : IsPriced item) (found : item.price = some price) :
    IsPriceText (amountText price) :=
  isPriceText_amountText (priced.unsigned price found) (priced.finite price found)

theorem freePrice?_priceText (priced : IsPriced item) :
    freePrice? (priceText item) = item.price.map amountText := by
  rw [priceText]
  cases found : item.price with
  | none => rfl
  | some price =>
    have amount := (priced.isPriceText found).amount
    refine freePrice?_eq_some_iff.2 ⟨[' '], '×', [' '], ['¥'], amountText price, rfl, by simp [Blank, isBlank], rfl,
      by simp [Blank, isBlank], .inr ⟨'¥', rfl, rfl⟩, List.prefix_rfl, amount, fun other front _ => front.length_le⟩

theorem plain_priceText (priced : IsPriced item) : ':' ∉ natDigits item.quantity ++ priceText item := by
  have number : ':' ∉ natDigits item.quantity := fun mem => by
    have digit := isDigit_of_mem_natDigits mem
    cases digit
  rw [List.mem_append, not_or, priceText]
  refine ⟨number, ?_⟩
  cases found : item.price with
  | none => exact List.not_mem_nil
  | some price => simpa using (priced.isPriceText found).plain

theorem longest_natDigits (item : OrderItem) :
    Longest IsRow (natDigits item.quantity) (natDigits item.quantity ++ priceText item) := by
  refine longest_isRow_iff.2 ⟨isRow_natDigits _, ?_⟩
  rw [priceText]
  split
  · exact stops_cons.2 (by decide)
  · exact stops_nil _

theorem free?_itemLine (isName : IsName item.name.toList) (priced : IsPriced item) :
    free? (itemLine item) = some ⟨item.name.toList, natDigits item.quantity, item.price.map amountText⟩ :=
  free?_eq_some_iff.2 ⟨_, isFirst_printed isName (longest_natDigits item), rfl, rfl, fun price => by
    rw [← freePrice?_eq_some_iff]
    change _ ↔ freePrice? (priceText item) = some price
    rw [freePrice?_priceText priced]⟩

theorem item?_printed (isName : IsName item.name.toList) (word : item.quantity < quantityLimit)
    (price : Option (List Char)) :
    (Written.mk item.name.toList (natDigits item.quantity) price).item? =
      some ⟨item.name, item.quantity, price.bind priceOf⟩ := by
  have trimmed : trim item.name.toList = item.name.toList := (trim_eq_self_iff _).2 ⟨isName.begins, isName.ends⟩
  have number : natural? (natDigits item.quantity) = some item.quantity := by
    have digits : (natDigits item.quantity).all isDigit = true :=
      List.all_eq_true.2 fun c mem => isDigit_of_mem_natDigits mem
    rw [natural?, if_pos ⟨natDigits_ne_nil _, digits⟩, valueOf_natDigits]
  simp only [Written.item?, trimmed, isName.some_, if_false, number, Option.bind_some, word, if_true,
    String.ofList_toList]

/-! ### An item read again -/

/-- A line names an item in the free form, and none in the labelled form. -/
structure NamesFree (line : List Char) (item : OrderItem) : Prop where
  ink : Stops isBlank line
  unlabelled : ∀ w other, LabelledForm line w → ¬ w.Means other
  named : ∃ w, FreeForm line w ∧ w.Means item

theorem isUnsigned_priceOf {digits : List Char} {price : Float} (found : priceOf digits = some price) :
    IsUnsigned price := by
  simp only [priceOf] at found
  split at found
  · cases found
    exact isUnsigned_ofScientific _ _
  · cases found

theorem NamesFree.unsigned (names : NamesFree line item) {price : Float} (found : item.price = some price) :
    IsUnsigned price := by
  obtain ⟨w, -, means⟩ := names.named
  rw [means.price] at found
  obtain ⟨digits, -, read⟩ := Option.bind_eq_some_iff.1 found
  exact isUnsigned_priceOf read

theorem NamesFree.exists_printed (names : NamesFree line item)
    (finite : ∀ price, item.price = some price → price.isFinite = true) :
    ∃ again, item? (itemLine item) = some again ∧ again.name = item.name ∧ again.quantity = item.quantity ∧
      again.price.isSome = item.price.isSome := by
  obtain ⟨w, ⟨c, first, name, -⟩, means⟩ := names.named
  have isName : IsName c.name := first.isName (name ▸ means.named)
  have nameEq : item.name.toList = c.name := by
    rw [means.name, name, (trim_eq_self_iff _).2 ⟨isName.begins, isName.ends⟩, String.toList_ofList]
  have isItemName : IsName item.name.toList := nameEq ▸ isName
  have priced : IsPriced item := ⟨fun _ found => names.unsigned found, finite⟩
  -- a labelled item of the printed line would lie in the name, and thus in the line before
  have unlabelled : (labelled? (itemLine item)).bind Written.item? = none := by
    refine Option.eq_none_iff_forall_ne_some.2 fun other found => ?_
    obtain ⟨v, labelled_, read⟩ := Option.bind_eq_some_iff.1 found
    rw [itemLine, nameEq] at labelled_
    obtain ⟨u, before, sameName, sameQuantity⟩ :=
      first.labelled?_printed names.ink isName (plain_priceText priced) labelled_
    have some_ : u.item?.isSome = true := by
      rw [item?_isSome_congr sameName sameQuantity, read]
      rfl
    obtain ⟨was, readBefore⟩ := Option.isSome_iff_exists.1 some_
    have form := (labelled?_eq_some_iff names.ink).1 before
    exact names.unlabelled u was form (form.means_iff.1 readBefore)
  have free_ : (free? (itemLine item)).bind Written.item? =
      some ⟨item.name, item.quantity, (item.price.map amountText).bind priceOf⟩ := by
    rw [free?_itemLine isItemName priced, Option.bind_some, item?_printed isItemName]
    rw [means.quantity]
    exact means.word
  refine ⟨⟨item.name, item.quantity, (item.price.map amountText).bind priceOf⟩,
    (Option.orElse_eq_some _ _ _).2 (.inr ⟨unlabelled, free_⟩), rfl, rfl, ?_⟩
  cases found : item.price with
  | none => rfl
  | some price =>
    have text := priced.isPriceText found
    exact text.amount.priceOf_isSome_iff.2 text.ascii

end Herald.Order
