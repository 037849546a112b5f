import Herald.Proofs.Order.Metadata
import Herald.Proofs.Order.Reprint
import Herald.Proofs.Order.Total

/-! The detailed summary of an order is read as that order again, if its items were written in the free form. Each
line of the summary plays the part of the line that it was made from: the headers are taken once more, the items
add items, and the tag and the total add nothing. -/
namespace Herald.Order

open Herald.Text Herald.Unicode Herald.Decimal

variable {o : Order} {item : OrderItem} {line value content : List Char}

structure IsValue (value : List Char) : Prop where
  some_ : value ≠ []
  trimmed : trim value = value
  line : '\n' ∉ value

/-- An order from lines that name their items in the free form. -/
structure FromFree (o : Order) : Prop where
  customer : ∀ value, o.customer = some value → IsValue value.toList
  orderedAt : ∀ value, o.orderedAt = some value → IsValue value.toList
  items : ∀ item ∈ o.items, '\n' ∉ item.name.toList ∧ ∃ line, NamesFree line item

/-! ### What the lines of a memo leave -/

theorem isValue_of_headerValue? {labels : List (List Char)} (found : headerValue? labels line = some value)
    (noBreak : '\n' ∉ line) : IsValue value := by
  obtain ⟨label, -, gap, mark, rest, rfl, -, -, rfl, some_⟩ := exists_of_headerValue? found
  refine ⟨some_, trim_trim rest, fun mem => noBreak ?_⟩
  simp [(trim_sublist rest).subset mem]

theorem namesFree_of_item? (ink : Stops isBlank line) (unlabelled : ∀ w other, LabelledForm line w → ¬ w.Means other)
    (found : item? line = some item) : NamesFree line item := by
  rcases (line_item?_eq_some_iff ink).1 found with ⟨w, form, means⟩ | ⟨-, named⟩
  · exact absurd means (unlabelled w item form)
  · exact ⟨ink, unlabelled, named⟩

theorem NamesFree.noBreak (names : NamesFree line item) (noBreak : '\n' ∉ line) : '\n' ∉ item.name.toList := by
  obtain ⟨w, ⟨c, first, name, -⟩, means⟩ := names.named
  intro mem
  rw [means.name, String.toList_ofList, name] at mem
  refine noBreak ?_
  rw [← first.cut.text]
  simp [Cut.text, Cut.start, (trim_sublist c.name).subset mem]

theorem FromFree.addLine (free : FromFree o) (ink : Stops isBlank line) (noBreak : '\n' ∉ line)
    (unlabelled : ∀ w other, LabelledForm line w → ¬ w.Means other) : FromFree (o.addLine line) := by
  rcases addLine_cases o line with ⟨-, value, found, eq⟩ | ⟨-, -, value, found, eq⟩ | ⟨-, eq⟩
  · rw [eq]
    refine ⟨fun v is => ?_, free.orderedAt, free.items⟩
    rw [← Option.some.inj is, String.toList_ofList]
    exact isValue_of_headerValue? found noBreak
  · rw [eq]
    refine ⟨free.customer, fun v is => ?_, free.items⟩
    rw [← Option.some.inj is, String.toList_ofList]
    exact isValue_of_headerValue? found noBreak
  · rw [eq]
    refine ⟨free.customer, free.orderedAt, List.forall_mem_append.2 ⟨free.items, fun item mem => ?_⟩⟩
    rw [Option.mem_toList] at mem
    have names := namesFree_of_item? ink unlabelled mem
    exact ⟨names.noBreak noBreak, line, names⟩

theorem FromFree.foldl {lines : List (List Char)} (free : FromFree o) (ink : ∀ line ∈ lines, Stops isBlank line)
    (noBreak : ∀ line ∈ lines, '\n' ∉ line)
    (unlabelled : ∀ line ∈ lines, ∀ w other, LabelledForm line w → ¬ w.Means other) :
    FromFree (lines.foldl Order.addLine o) := by
  induction lines generalizing o with
  | nil => exact free
  | cons line lines ih =>
    simp only [List.forall_mem_cons] at ink noBreak unlabelled
    exact ih (free.addLine ink.1 noBreak.1 unlabelled.1) ink.2 noBreak.2 unlabelled.2

theorem noBreak_of_mem_trimmedLines (mem : line ∈ trimmedLines content) : '\n' ∉ line := by
  obtain ⟨piece, isPiece, rfl⟩ := List.mem_map.1 mem
  exact fun found => not_mem_of_mem_splitAt isPiece ((trim_sublist piece).subset found)

theorem fromFree_of_parseText (parsed : parseText content = some o)
    (unlabelled : ∀ line ∈ trimmedLines content, ∀ w other, LabelledForm line w → ¬ w.Means other) :
    FromFree o ∧ o.items ≠ [] := by
  simp only [parseText] at parsed
  split at parsed
  · split at parsed
    · cases parsed
    · next some_ =>
      cases parsed
      have start : FromFree { menu := (menu? content).map String.ofList } := ⟨by simp, by simp, by simp⟩
      refine ⟨start.foldl (fun _ mem => stops_of_mem_trimmedLines mem) (fun _ mem => noBreak_of_mem_trimmedLines mem)
        unlabelled, fun none_ => some_ ?_⟩
      rw [none_]
      rfl
  · cases parsed

/-! ### The lines of a summary -/

def headLines (o : Order) : List (List Char) :=
  (o.customer.map fun value => "Customer: ".toList ++ value.toList).toList ++
    (o.orderedAt.map fun value => "Time: ".toList ++ value.toList).toList

def printedLines (o : Order) : List (List Char) := tag :: (headLines o ++ o.items.map itemLine)

theorem headText_eq (o : Order) : o.headText .detailed = (headLines o).flatMap (· ++ ['\n']) := by
  rcases o with ⟨_, _ | customer, _ | orderedAt, _⟩ <;> simp [headText, headLines]

theorem renderText_eq (few : o.items.length ≤ Style.itemLimit .detailed) (word : sumOf o.items < quantityLimit) :
    ∃ text, o.renderText .detailed = .ok text ∧
      "#order\n".toList ++ text =
        (printedLines o).flatMap (· ++ ['\n']) ++ totalText (sumOf o.items) o.totalAmount := by
  have total : o.totalQuantity = .ok (sumOf o.items) := by rw [totalQuantity_eq, if_pos word]
  refine ⟨_, by rw [renderText, total]; rfl, ?_⟩
  have none_ : o.items.length - Style.itemLimit .detailed = 0 := Nat.sub_eq_zero_of_le few
  have lines : o.items.flatMap itemText = (o.items.map itemLine).flatMap (· ++ ['\n']) := by
    rw [List.flatMap_map, ← funext itemText_eq]
  have start : "#order\n".toList = tag ++ ['\n'] := by decide
  rw [List.take_of_length_le few, none_, headText_eq, lines, start, printedLines, List.flatMap_cons,
    List.flatMap_append, omittedText, if_pos rfl]
  simp only [List.append_assoc, List.nil_append]

/-! ### Characters of a summary -/

def IsNumberChar (c : Char) : Prop := isDigit c = true ∨ c ∈ ['-', '.', 'i', 'n', 'f', 'N', 'a']

theorem IsNumberChar.plain {c : Char} (number : IsNumberChar c) : isBlank c = false ∧ isTimes c = false := by
  rcases number with digit | mem
  · have decimal : isDecimalDigit c = true := by
      rw [isDecimalDigit, ← isDigit, digit]
      rfl
    refine ⟨isBlank_of_isDecimalDigit decimal, Bool.eq_false_iff.2 fun times => ?_⟩
    rw [isDecimalDigit_of_isTimes times] at decimal
    cases decimal
  · have each : ['-', '.', 'i', 'n', 'f', 'N', 'a'].all (fun d => !isBlank d && !isTimes d) = true := by decide
    simpa using List.all_eq_true.1 each c mem

theorem IsNumberChar.ne_newline {c : Char} (number : IsNumberChar c) : c ≠ '\n' := by
  rintro rfl
  exact absurd number.plain.1 (by decide)

theorem isNumberChar_of_mem_natDigits {n : Nat} : ∀ c ∈ natDigits n, IsNumberChar c :=
  fun _ mem => .inl (isDigit_of_mem_natDigits mem)

theorem isNumberChar_of_mem_toPlaces {places : Nat} {b : Binary} : ∀ c ∈ toPlaces places b, IsNumberChar c := by
  have sign {negative : Bool} : ∀ c ∈ if negative then ['-'] else [], IsNumberChar c := by
    cases negative <;> simp [IsNumberChar]
  cases b with
  | nan => simp [toPlaces, IsNumberChar]
  | infinite negative => exact List.forall_mem_append.2 ⟨sign, by simp [IsNumberChar]⟩
  | finite negative mantissa exponent =>
    simp only [toPlaces]
    split
    · exact List.forall_mem_append.2 ⟨sign, isNumberChar_of_mem_natDigits⟩
    · have point : IsNumberChar '.' := .inr (by simp)
      exact List.forall_mem_append.2 ⟨List.forall_mem_append.2 ⟨sign, isNumberChar_of_mem_natDigits⟩,
        List.forall_mem_cons.2 ⟨point, fun c mem => .inl (isDigit_of_mem_padded mem)⟩⟩

theorem toPlaces_ne_nil (places : Nat) (b : Binary) : toPlaces places b ≠ [] := by
  cases b with
  | nan => exact List.cons_ne_nil _ _
  | infinite negative => exact List.append_ne_nil_of_right_ne_nil _ (List.cons_ne_nil _ _)
  | finite negative mantissa exponent =>
    simp only [toPlaces]
    split
    · exact List.append_ne_nil_of_right_ne_nil _ (natDigits_ne_nil _)
    · exact List.append_ne_nil_of_right_ne_nil _ (List.cons_ne_nil _ _)

theorem endsInInk_of_all {s : List Char} (all : ∀ c ∈ s, isBlank c = false) : EndsInInk s :=
  fun c last => all c (List.mem_of_getLast? last)

theorem endsInInk_amountText (amount : Float) : EndsInInk (amountText amount) :=
  endsInInk_of_all fun c mem => (isNumberChar_of_mem_toPlaces c mem).plain.1

theorem plain_totalText (quantity : Nat) (amount : Option Float) :
    ∀ c ∈ totalText quantity amount, isTimes c = false ∧ c ≠ '\n' := by
  have number {c : Char} (number : IsNumberChar c) : isTimes c = false ∧ c ≠ '\n' :=
    ⟨number.plain.2, number.ne_newline⟩
  have words {s : List Char} (all : s.all (fun c => !isTimes c && c != '\n') = true) :
      ∀ c ∈ s, isTimes c = false ∧ c ≠ '\n' := fun c mem => by simpa using List.all_eq_true.1 all c mem
  unfold totalText
  refine List.forall_mem_append.2 ⟨List.forall_mem_append.2 ⟨List.forall_mem_append.2 ⟨words (by decide),
    fun c mem => number (isNumberChar_of_mem_natDigits c mem)⟩, ?_⟩, ?_⟩
  · split <;> exact words (by decide)
  · cases amount with
    | none => simp
    | some sum =>
      exact List.forall_mem_append.2 ⟨words (by decide), fun c mem => number (isNumberChar_of_mem_toPlaces c mem)⟩

theorem trim_totalText (quantity : Nat) (amount : Option Float) :
    trim (totalText quantity amount) = totalText quantity amount := by
  refine (trim_eq_self_iff _).2 ⟨stops_cons.2 (by decide), ?_⟩
  unfold totalText
  cases amount with
  | none =>
    rw [List.append_nil]
    refine EndsInInk.append ?_ ?_
    · split
      · exact fun c last => by
          cases last
          decide
      · exact fun c last => by
          cases last
          decide
    · split <;> decide
  | some sum =>
    have ends : EndsInInk (", amount: ¥".toList ++ amountText sum) :=
      (endsInInk_amountText sum).append (toPlaces_ne_nil _ _)
    exact ends.append (List.cons_ne_nil _ _)

structure IsLine (line : List Char) : Prop where
  trimmed : trim line = line
  noBreak : '\n' ∉ line

theorem isLine_tag : IsLine tag := ⟨by decide, by decide⟩

theorem isLine_totalText (quantity : Nat) (amount : Option Float) : IsLine (totalText quantity amount) :=
  ⟨trim_totalText quantity amount, fun mem => (plain_totalText _ _ _ mem).2 rfl⟩

theorem IsValue.isLine {label : List Char} (isValue : IsValue value) (begins : Stops isBlank label)
    (some_ : label ≠ []) (noBreak : '\n' ∉ label) : IsLine (label ++ value) := by
  obtain ⟨-, ends⟩ := (trim_eq_self_iff value).1 isValue.trimmed
  refine ⟨(trim_eq_self_iff _).2 ⟨begins.append some_ _, ends.append isValue.some_⟩, ?_⟩
  rw [List.mem_append, not_or]
  exact ⟨noBreak, isValue.line⟩

theorem isLine_of_mem_headLines (free : FromFree o) : ∀ line ∈ headLines o, IsLine line := by
  refine List.forall_mem_append.2 ⟨fun line mem => ?_, fun line mem => ?_⟩
  · obtain ⟨value, found, rfl⟩ := Option.map_eq_some_iff.1 (Option.mem_toList.1 mem)
    exact (free.customer value found).isLine (stops_cons.2 (by decide)) (by decide) (by decide)
  · obtain ⟨value, found, rfl⟩ := Option.map_eq_some_iff.1 (Option.mem_toList.1 mem)
    exact (free.orderedAt value found).isLine (stops_cons.2 (by decide)) (by decide) (by decide)

theorem isLine_itemLine (noBreak : '\n' ∉ item.name.toList) : IsLine (itemLine item) := by
  have ends : EndsInInk (natDigits item.quantity ++ priceText item) := by
    rw [priceText]
    split
    · next price _ =>
      have digits : EndsInInk (" × ¥".toList ++ amountText price) :=
        (endsInInk_amountText price).append (toPlaces_ne_nil _ _)
      exact digits.append (List.append_ne_nil_of_left_ne_nil (by decide) _)
    · rw [List.append_nil]
      exact endsInInk_of_all fun c mem => (isNumberChar_of_mem_natDigits c mem).plain.1
  have whole : itemLine item =
      ("- ".toList ++ item.name.toList ++ " × ".toList) ++ (natDigits item.quantity ++ priceText item) := by
    simp [itemLine, printed, Cut.text, Cut.start, Cut.tail]
  refine ⟨(trim_eq_self_iff _).2 ⟨stops_cons.2 (by decide), ?_⟩, ?_⟩
  · rw [whole]
    exact ends.append (List.append_ne_nil_of_left_ne_nil (natDigits_ne_nil _) _)
  · have digits : '\n' ∉ natDigits item.quantity := fun mem => (isNumberChar_of_mem_natDigits _ mem).ne_newline rfl
    have price : '\n' ∉ priceText item := by
      rw [priceText]
      split
      · simpa [amountText] using fun mem => (isNumberChar_of_mem_toPlaces _ mem).ne_newline rfl
      · exact List.not_mem_nil
    rw [whole]
    simp [noBreak, digits, price]

/-! ### The summary read again -/

theorem headerValue?_of_head {labels : List (List Char)} {c : Char} {r : List Char}
    (other : ∀ label ∈ labels, ∃ d l, label = d :: l ∧ d ≠ c) : headerValue? labels (c :: r) = none := by
  refine List.findSome?_eq_none_iff.2 fun label mem => ?_
  obtain ⟨d, l, rfl, ne⟩ := other label mem
  simp [dropLead, ne]

theorem not_consumes_of_none (customer : headerValue? customerLabels line = none)
    (time : headerValue? timeLabels line = none) : ¬ o.Consumes line := by
  simp [consumes_iff, customer, time]

theorem FreeForm.exists_sign {w : Written} (form : FreeForm line w) : ∃ sign ∈ line, isTimes sign = true := by
  obtain ⟨c, ⟨ofC, -⟩, -⟩ := form
  exact ⟨c.sign, by simp [← ofC.text, Cut.text, Cut.start, Cut.tail], ofC.sign⟩

theorem item?_eq_none_of_plain {c : Char} {r : List Char} (notBullet : isBullet c = false) (other : c ≠ 'n')
    (plain : ∀ d ∈ c :: r, isTimes d = false) : item? (c :: r) = none := by
  have free_ : free? (c :: r) = none := by
    refine Option.eq_none_iff_forall_ne_some.2 fun w found => ?_
    obtain ⟨sign, mem, times⟩ := (freeForm_of_free? found).exists_sign
    rw [plain sign mem] at times
    cases times
  rw [item?, labelled?_of_other notBullet other, free_]
  rfl

theorem addLine_tag (o : Order) : o.addLine tag = o := by
  have shape : tag = '#' :: "order".toList := by decide
  have none_ : item? tag = none := by
    rw [shape]
    have plain : tag.all (fun c => !isTimes c) = true := by decide
    exact item?_eq_none_of_plain (by decide) (by decide) (by simpa [shape] using plain)
  have free : ¬ o.Consumes tag := by
    rw [shape]
    exact not_consumes_of_none (headerValue?_of_head (by simp [customerLabels]))
      (headerValue?_of_head (by simp [timeLabels]))
  simp [addLine_of_not_consumes free, none_]

theorem addLine_totalText (o : Order) (quantity : Nat) (amount : Option Float) :
    o.addLine (totalText quantity amount) = o := by
  obtain ⟨more, shape⟩ : ∃ more, totalText quantity amount = 'T' :: 'o' :: more := ⟨_, rfl⟩
  have none_ : item? (totalText quantity amount) = none := by
    have plain := plain_totalText quantity amount
    rw [shape] at plain ⊢
    exact item?_eq_none_of_plain (by decide) (by decide) fun d mem => (plain d mem).1
  have free : ¬ o.Consumes (totalText quantity amount) := by
    rw [shape]
    exact not_consumes_of_none (headerValue?_of_head (by simp [customerLabels]))
      (by simp [headerValue?, timeLabels, dropLead])
  simp [addLine_of_not_consumes free, none_]

theorem IsValue.headerValue? (front back : List (List Char)) {c : Char} {label : List Char} (isValue : IsValue value)
    (other : ∀ label ∈ front, ∃ d l, label = d :: l ∧ d ≠ c) :
    Order.headerValue? (front ++ (c :: label) :: back) ((c :: label) ++ ':' :: ' ' :: value) = some value := by
  have none_ := headerValue?_of_head (r := label ++ ':' :: ' ' :: value) other
  have kept : trim (' ' :: value) = value := by
    have gap : Blank [' '] := by simp [Blank, isBlank]
    have trimmed := gap.trim_append blank_nil value
    rw [List.append_nil, isValue.trimmed] at trimmed
    exact trimmed
  rw [Order.headerValue?] at none_ ⊢
  rw [List.findSome?_append, List.cons_append, none_, Option.none_or, List.findSome?_cons,
    dropLead_eq_some_iff.2 (List.cons_append ..).symm, Option.bind_some]
  simp [skipBlanks, isBlank, kept, isValue.some_]

theorem foldl_headLines (free : FromFree o) (menu : Option String) :
    (headLines o).foldl Order.addLine { menu := menu } =
      { menu := menu, customer := o.customer, orderedAt := o.orderedAt } := by
  have customer : (o.customer.map fun value => "Customer: ".toList ++ value.toList).toList.foldl Order.addLine
      { menu := menu } = { menu := menu, customer := o.customer } := by
    cases found : o.customer with
    | none => rfl
    | some value =>
      have read : headerValue? customerLabels ("Customer: ".toList ++ value.toList) = some value.toList :=
        (free.customer value found).headerValue? (c := 'C') ["点菜人".toList, "顾客".toList] ["customer".toList] (by simp)
      have unset : ({ menu := menu } : Order).customer = none := rfl
      simpa using addLine_of_customer unset read
  have time (o' : Order) (unset : o'.orderedAt = none) :
      (o.orderedAt.map fun value => "Time: ".toList ++ value.toList).toList.foldl Order.addLine o' =
        { o' with orderedAt := o.orderedAt } := by
    cases found : o.orderedAt with
    | none =>
      obtain ⟨menu, customer, orderedAt, items⟩ := o'
      obtain rfl : orderedAt = none := unset
      rfl
    | some value =>
      have read : headerValue? timeLabels ("Time: ".toList ++ value.toList) = some value.toList :=
        (free.orderedAt value found).headerValue? (c := 'T') ["时间".toList] ["time".toList] (by simp)
      have other : headerValue? customerLabels ("Time: ".toList ++ value.toList) = none :=
        headerValue?_of_head (c := 'T') (by simp [customerLabels])
      simpa using addLine_of_time (fun _ => other) unset read
  rw [headLines, List.foldl_append, customer, time _ rfl]

def told (item : OrderItem) : String × Nat × Bool := (item.name, item.quantity, item.price.isSome)

theorem addLine_itemLine {again : OrderItem} (o : Order) (found : item? (itemLine item) = some again) :
    o.addLine (itemLine item) = { o with items := o.items ++ [again] } := by
  have free : ¬ o.Consumes (itemLine item) := by
    obtain ⟨more, shape⟩ : ∃ more, itemLine item = '-' :: more := ⟨_, rfl⟩
    rw [shape]
    exact not_consumes_of_none (headerValue?_of_head (by simp [customerLabels]))
      (headerValue?_of_head (by simp [timeLabels]))
  rw [addLine_of_not_consumes free, found]
  rfl

theorem foldl_itemLines {items : List OrderItem} (names : ∀ item ∈ items, ∃ line, NamesFree line item)
    (finite : ∀ item ∈ items, ∀ price, item.price = some price → price.isFinite = true) (o : Order) :
    ∃ again, (items.map itemLine).foldl Order.addLine o = { o with items := o.items ++ again } ∧
      again.map told = items.map told := by
  induction items generalizing o with
  | nil => exact ⟨[], by simp, rfl⟩
  | cons item items ih =>
    simp only [List.forall_mem_cons] at names finite
    obtain ⟨line, named⟩ := names.1
    obtain ⟨first, found, name, quantity, price⟩ := named.exists_printed finite.1
    obtain ⟨later, eq, same⟩ := ih names.2 finite.2 { o with items := o.items ++ [first] }
    refine ⟨first :: later, ?_, by simp [told, name, quantity, price, same]⟩
    rw [List.map_cons, List.foldl_cons, addLine_itemLine o found, eq]
    simp

theorem trimmedLines_printed (free : FromFree o) (quantity : Nat) (amount : Option Float) :
    trimmedLines ((printedLines o).flatMap (· ++ ['\n']) ++ totalText quantity amount) =
      printedLines o ++ [totalText quantity amount] := by
  have each : ∀ line ∈ printedLines o ++ [totalText quantity amount], IsLine line := by
    refine List.forall_mem_append.2 ⟨List.forall_mem_cons.2 ⟨isLine_tag, List.forall_mem_append.2
      ⟨isLine_of_mem_headLines free, List.forall_mem_map.2 fun item mem => ?_⟩⟩, by simpa using isLine_totalText _ _⟩
    exact isLine_itemLine (free.items item mem).1
  rw [trimmedLines, splitAt_flatMap (fun line mem => (each line (by simp [mem])).noBreak)
    (isLine_totalText quantity amount).noBreak]
  exact (List.map_congr_left fun line mem => (each line mem).trimmed).trans (List.map_id' _)

theorem contains_tag (s : List Char) : contains tag (tag ++ s) = true := by
  have lead : dropLead tag (tag ++ s) = some s := dropLead_eq_some_iff.2 rfl
  have shape : tag ++ s = '#' :: ("order".toList ++ s) := rfl
  rw [shape] at lead ⊢
  rw [contains, cutAt, lead]
  rfl

/-- The lines of a summary make up an order that tells the same. -/
theorem parseText_printed (free : FromFree o) (some_ : o.items ≠ [])
    (finite : ∀ item ∈ o.items, ∀ price, item.price = some price → price.isFinite = true) (quantity : Nat)
    (amount : Option Float) :
    ∃ again, parseText ((printedLines o).flatMap (· ++ ['\n']) ++ totalText quantity amount) = some again ∧
      again.customer = o.customer ∧ again.orderedAt = o.orderedAt ∧ again.items.map told = o.items.map told := by
  obtain ⟨rest, tagged⟩ : ∃ rest,
      (printedLines o).flatMap (· ++ ['\n']) ++ totalText quantity amount = tag ++ rest := by
    rw [printedLines, List.flatMap_cons, List.append_assoc, List.append_assoc]
    exact ⟨_, rfl⟩
  generalize menu : (menu? ((printedLines o).flatMap (· ++ ['\n']) ++ totalText quantity amount)).map String.ofList = m
  obtain ⟨again, items, same⟩ := foldl_itemLines (fun item mem => (free.items item mem).2) finite
    { menu := m, customer := o.customer, orderedAt := o.orderedAt }
  have read : (printedLines o ++ [totalText quantity amount]).foldl Order.addLine { menu := m } =
      ⟨m, o.customer, o.orderedAt, again⟩ := by
    simp only [printedLines, List.cons_append, List.foldl_cons, List.foldl_append, List.foldl_nil, addLine_tag,
      foldl_headLines free, items, addLine_totalText, List.nil_append]
  have someAgain : again ≠ [] := by
    rintro rfl
    exact some_ (List.map_eq_nil_iff.1 same.symm)
  refine ⟨⟨m, o.customer, o.orderedAt, again⟩, ?_, rfl, rfl, same⟩
  rw [parseText, menu, trimmedLines_printed free, read, tagged, contains_tag, if_pos rfl]
  simp [someAgain]

/-- The detailed summary of an order that was written in the free form, with a tag before it, is an order with the
same customer and time, whose items have the same names and quantities in the same order, and prices at the same
places. An order is written in the free form if none of its lines names a labelled item; a header never does. -/
theorem parse_render_detailed {content : String} (parsed : parse content = some o)
    (few : o.items.length ≤ Style.itemLimit .detailed)
    (unlabelled : ∀ line ∈ trimmedLines content.toList, ∀ w other, LabelledForm line w → ¬ w.Means other)
    (finite : ∀ item ∈ o.items, ∀ price, item.price = some price → price.isFinite = true)
    (word : sumOf o.items < quantityLimit) :
    ∃ text again, o.render .detailed = .ok text ∧ parse ("#order\n" ++ text) = some again ∧
      again.customer = o.customer ∧ again.orderedAt = o.orderedAt ∧ again.items.map told = o.items.map told := by
  obtain ⟨free, some_⟩ := fromFree_of_parseText parsed unlabelled
  obtain ⟨text, rendered, whole⟩ := renderText_eq few word
  obtain ⟨again, read, customer, orderedAt, same⟩ := parseText_printed free some_ finite (sumOf o.items) o.totalAmount
  refine ⟨String.ofList text, again, by rw [render, rendered]; rfl, ?_, customer, orderedAt, same⟩
  rw [parse, String.toList_append, @String.toList_ofList text, whole, read]

/-- A price and a name with a multiplication sign in it. -/
theorem parse_render_detailed_of_taxi : ∃ text again,
    render ⟨none, some "A", none, [⟨"Taxi", 2, some (Float.ofScientific 35 true 1)⟩]⟩ .detailed = .ok text ∧
      parse ("#order\n" ++ text) = some again ∧ again.customer = some "A" ∧ again.orderedAt = none ∧
      again.items.map told = [("Taxi", 2, true)] := by
  have none_ : ∀ line ∈ trimmedLines "#order\nCustomer: A\nTaxi x 2 x 3.5".toList, labelled? line = none := by
    decide
  have unlabelled : ∀ line ∈ trimmedLines "#order\nCustomer: A\nTaxi x 2 x 3.5".toList, ∀ w other,
      LabelledForm line w → ¬ w.Means other := by
    intro line mem w other form
    rw [← labelled?_eq_some_iff (stops_of_mem_trimmedLines mem), none_ line mem] at form
    cases form
  have finite : (Float.ofScientific 35 true 1).isFinite = true := by decide +kernel
  exact @parse_render_detailed _ "#order\nCustomer: A\nTaxi x 2 x 3.5" rfl (by decide) unlabelled
    (by simpa using finite) (by decide)

end Herald.Order
