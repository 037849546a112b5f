import Herald.Proofs.Order.Item

/-! Lines that say something about an order, and not what is ordered: tags and headers. A header that is taken adds
no item. Any other such line is tried as a free item, so that it adds one if a number stands behind a multiplication
sign in it, be it a letter of an identifier or of a name. -/
namespace Herald.Order

open Herald.Text Herald.Unicode

variable {o o' : Order} {line content : List Char} {item : OrderItem}

inductive TagLine : List Char → Prop
  | nil : TagLine []
  | blank {c : Char} {s : List Char} : isBlank c = true → TagLine s → TagLine (c :: s)
  | order {s : List Char} : TagLine s → TagLine (tag ++ s)
  | menu {id s : List Char} : (∀ c ∈ id, isMenuChar c = true) → TagLine s → TagLine ("#menu:".toList ++ (id ++ s))

inductive IsMetadata (line : List Char) : Prop
  | tags : TagLine line → IsMetadata line
  | customer : IsHeader customerLabels line → IsMetadata line
  | time : IsHeader timeLabels line → IsMetadata line

def ofLines (lines : List (List Char)) : Order := lines.foldl addLine {}

def itemsOf (content : List Char) : List OrderItem := ((parseText content).map items).getD []

/-- A line of metadata that is not taken as a header after the lines before it. -/
structure Ignored (before : List (List Char)) (line : List Char) : Prop where
  metadata : IsMetadata line
  free : ¬ (ofLines before).Consumes line

/-! ### One line -/

theorem IsMetadata.exists_cons (metadata : IsMetadata line) (ink : Stops isBlank line) (some_ : line ≠ []) :
    ∃ c r, line = c :: r ∧ isBullet c = false ∧ c ≠ 'n' := by
  have ofHeader {labels : List (List Char)} (header : IsHeader labels line)
      (plain : ∀ label ∈ labels, ∃ c r, label = c :: r ∧ isBullet c = false ∧ c ≠ 'n') :
      ∃ c r, line = c :: r ∧ isBullet c = false ∧ c ≠ 'n' := by
    obtain ⟨label, mem, gap, mark, value, rfl, -⟩ := header
    obtain ⟨c, r, rfl, notBullet, other⟩ := plain label mem
    exact ⟨c, r ++ (gap ++ mark :: value), rfl, notBullet, other⟩
  cases metadata with
  | tags tags =>
    cases tags with
    | nil => exact absurd rfl some_
    | @blank c s blank _ =>
      rw [stops_cons.1 ink] at blank
      cases blank
    | order _ => exact ⟨'#', _, rfl, by decide, by decide⟩
    | menu _ _ => exact ⟨'#', _, rfl, by decide, by decide⟩
  | customer header =>
    refine ofHeader header fun label mem => ?_
    simp only [customerLabels, List.mem_cons, List.not_mem_nil, or_false] at mem
    rcases mem with rfl | rfl | rfl | rfl <;> exact ⟨_, _, rfl, by decide, by decide⟩
  | time header =>
    refine ofHeader header fun label mem => ?_
    simp only [timeLabels, List.mem_cons, List.not_mem_nil, or_false] at mem
    rcases mem with rfl | rfl | rfl <;> exact ⟨_, _, rfl, by decide, by decide⟩

theorem labelled?_of_other {c : Char} {r : List Char} (notBullet : isBullet c = false) (other : c ≠ 'n') :
    labelled? (c :: r) = none := by
  have lead : dropLead "name:\x22".toList (c :: r) = none := by
    rw [Option.eq_none_iff_forall_ne_some]
    intro rest found
    rw [dropLead_eq_some_iff] at found
    exact other (List.cons.inj found).1
  simp only [labelled?, notBullet, Bool.false_eq_true, if_false, lead]
  rfl

theorem IsMetadata.item?_eq_some_iff (metadata : IsMetadata line) (ink : Stops isBlank line) :
    item? line = some item ↔ ∃ w, FreeForm line w ∧ w.Means item := by
  have labelled_ : labelled? line = none := by
    by_cases some_ : line = []
    · rw [some_]
      decide
    · obtain ⟨c, r, rfl, notBullet, other⟩ := metadata.exists_cons ink some_
      exact labelled?_of_other notBullet other
  rw [item?, labelled_, Option.orElse_eq_some, Option.bind_none, Option.bind_eq_some_iff]
  simp only [reduceCtorEq, true_and, false_or]
  refine exists_congr fun w => ?_
  rw [free?_eq_some_iff]
  exact and_congr_right fun form => form.means_iff

/-! ### What comes before and after -/

structure Alike (o o' : Order) : Prop where
  customer : o.customer.isNone = o'.customer.isNone
  orderedAt : o.orderedAt.isNone = o'.orderedAt.isNone

theorem Alike.refl (o : Order) : Alike o o := ⟨rfl, rfl⟩

theorem Alike.consumes (alike : Alike o o') : o.Consumes line ↔ o'.Consumes line := by
  rw [consumes_iff, consumes_iff, alike.customer, alike.orderedAt]

theorem customer_isNone_addLine (o : Order) (line : List Char) : (o.addLine line).customer.isNone =
    (o.customer.isNone && (headerValue? customerLabels line).isNone) := by
  rcases addLine_cases o line with ⟨unset, value, found, eq⟩ | ⟨other, unset, value, found, eq⟩ | ⟨free, eq⟩
  · simp [eq, found]
  · rw [eq]
    cases set : o.customer <;> simp_all
  · rw [eq]
    cases set : o.customer
    · simp_all [consumes_iff]
    · rfl

theorem orderedAt_isNone_addLine (o : Order) (line : List Char) : (o.addLine line).orderedAt.isNone =
    (o.orderedAt.isNone && ((headerValue? timeLabels line).isNone ||
      o.customer.isNone && (headerValue? customerLabels line).isSome)) := by
  rcases addLine_cases o line with ⟨unset, value, found, eq⟩ | ⟨other, unset, value, found, eq⟩ | ⟨free, eq⟩
  · simp [eq, found, unset]
  · rw [eq]
    cases set : o.customer <;> simp_all
  · rw [eq]
    cases set : o.orderedAt
    · simp_all [consumes_iff]
    · rfl

theorem Alike.addLine (alike : Alike o o') (line : List Char) : Alike (o.addLine line) (o'.addLine line) where
  customer := by rw [customer_isNone_addLine, customer_isNone_addLine, alike.customer]
  orderedAt := by
    rw [orderedAt_isNone_addLine, orderedAt_isNone_addLine, alike.customer, alike.orderedAt]

theorem items_addLine (o : Order) (line : List Char) :
    (o.addLine line).items = o.items ++ if o.Consumes line then [] else (item? line).toList := by
  rcases addLine_cases o line with ⟨unset, value, found, eq⟩ | ⟨other, unset, value, found, eq⟩ | ⟨free, eq⟩
  · have consumes : o.Consumes line := by simp [consumes_iff, unset, found]
    simp [eq, consumes]
  · have consumes : o.Consumes line := by simp [consumes_iff, unset, found]
    simp [eq, consumes]
  · simp [eq, free]

theorem Alike.foldl (alike : Alike o o') (lines : List (List Char)) :
    Alike (lines.foldl Order.addLine o) (lines.foldl Order.addLine o') ∧
      ∃ more, (lines.foldl Order.addLine o).items = o.items ++ more ∧
        (lines.foldl Order.addLine o').items = o'.items ++ more := by
  induction lines generalizing o o' with
  | nil => exact ⟨alike, [], by simp, by simp⟩
  | cons line lines ih =>
    obtain ⟨alikeAfter, more, first, second⟩ := ih (alike.addLine line)
    rw [items_addLine] at first second
    simp only [alike.consumes] at first
    exact ⟨alikeAfter, _, first.trans (List.append_assoc _ _ _), second.trans (List.append_assoc _ _ _)⟩

theorem itemsOf_eq (tagged : contains tag content = true) :
    itemsOf content = (ofLines (trimmedLines content)).items := by
  have alike : Alike { menu := (menu? content).map String.ofList } {} := ⟨rfl, rfl⟩
  obtain ⟨-, more, first, second⟩ := alike.foldl (trimmedLines content)
  rw [ofLines, second, List.nil_append]
  simp only [itemsOf, parseText, tagged, if_true]
  rw [List.nil_append] at first
  split
  · next none_ =>
    rw [first, List.isEmpty_iff] at none_
    simp [none_]
  · simp [first]

theorem stops_of_mem_trimmedLines (mem : line ∈ trimmedLines content) : Stops isBlank line := by
  obtain ⟨piece, -, rfl⟩ := List.mem_map.1 mem
  exact stops_trim piece

theorem exists_itemsOf (before after : List (List Char)) : ∃ back, ∀ content line, contains tag content = true →
    trimmedLines content = before ++ line :: after → ¬ (ofLines before).Consumes line →
    itemsOf content = (ofLines before).items ++ ((item? line).toList ++ back) := by
  obtain ⟨-, back, unchanged, -⟩ := (Alike.refl (ofLines before)).foldl after
  refine ⟨back, fun content line tagged lines free => ?_⟩
  -- only the items change, so that what comes later does the same
  have alike : Alike (ofLines before) ((ofLines before).addLine line) := by
    rw [addLine_of_not_consumes free]
    exact ⟨rfl, rfl⟩
  obtain ⟨-, more, first, second⟩ := alike.foldl after
  obtain rfl : back = more := List.append_cancel_left (unchanged.symm.trans first)
  rw [itemsOf_eq tagged, lines, ofLines, List.foldl_append, List.foldl_cons, ← ofLines, second, items_addLine,
    if_neg free, List.append_assoc]

/-- A line of metadata adds no item where it is taken as a header, and otherwise the item of its first cut as a free
item, if there is one. The lines before and after it add the same items whatever ignored metadata stands there. -/
theorem items_of_metadata {before after : List (List Char)} (tagged : contains tag content = true)
    (lines : trimmedLines content = before ++ line :: after) (metadata : IsMetadata line) :
    ∃ back, ∃ found : Option OrderItem, itemsOf content = (ofLines before).items ++ (found.toList ++ back) ∧
      (∀ item, found = some item ↔
        ¬ (ofLines before).Consumes line ∧ ∃ w, FreeForm line w ∧ w.Means item) ∧
      ∀ content' other, contains tag content' = true → trimmedLines content' = before ++ other :: after →
        Ignored before line → Ignored before other → ∃ another : Option OrderItem,
          itemsOf content' = (ofLines before).items ++ (another.toList ++ back) ∧
            ∀ item, another = some item ↔ ∃ w, FreeForm other w ∧ w.Means item := by
  by_cases consumed : (ofLines before).Consumes line
  · obtain ⟨-, back, added, -⟩ := (Alike.refl ((ofLines before).addLine line)).foldl after
    refine ⟨back, none, ?_, by simp [consumed], fun _ _ _ _ ignored => absurd consumed ignored.free⟩
    rw [itemsOf_eq tagged, lines, ofLines, List.foldl_append, List.foldl_cons, ← ofLines, added, items_addLine,
      if_pos consumed, List.append_assoc]
    rfl
  · obtain ⟨back, same⟩ := exists_itemsOf before after
    refine ⟨back, item? line, same _ _ tagged lines consumed, fun item => ?_, ?_⟩
    · rw [← metadata.item?_eq_some_iff (stops_of_mem_trimmedLines (lines ▸ List.mem_append_cons_self))]
      simp [consumed]
    · intro content' other tagged' lines' _ ignoredOther
      refine ⟨item? other, same _ _ tagged' lines' ignoredOther.free, fun item => ?_⟩
      exact ignoredOther.metadata.item?_eq_some_iff
        (stops_of_mem_trimmedLines (lines' ▸ List.mem_append_cons_self))

/-- The value of a later header may be read as an item. -/
theorem items_of_second_customer : ∃ back, ∃ found : Option OrderItem,
    itemsOf "#order\nCustomer: A\nCustomer: Max 2".toList =
      (ofLines ["#order".toList, "Customer: A".toList]).items ++ (found.toList ++ back) ∧
    ∀ item, found = some item ↔
      ¬ (ofLines ["#order".toList, "Customer: A".toList]).Consumes "Customer: Max 2".toList ∧
        ∃ w, FreeForm "Customer: Max 2".toList w ∧ w.Means item := by
  have header : IsHeader customerLabels "Customer: Max 2".toList := headerValue?_isSome_iff.1 (by decide)
  obtain ⟨back, found, eq, means, -⟩ := @items_of_metadata "Customer: Max 2".toList
    "#order\nCustomer: A\nCustomer: Max 2".toList ["#order".toList, "Customer: A".toList] [] (by decide) (by decide)
    (.customer header)
  exact ⟨back, found, eq, means⟩

/-- An identifier and the value of a second header give an item each. -/
theorem itemsOf_metadata_not_nil :
    TagLine "#order #menu:box2".toList ∧
      (itemsOf "#order #menu:box2".toList).map (fun item => (item.name, item.quantity)) =
        [("#order #menu:bo", 2)] ∧
    IsHeader customerLabels "Customer: Max 2".toList ∧
      (itemsOf "#order\nCustomer: A\nCustomer: Max 2".toList).map (fun item => (item.name, item.quantity)) =
        [("Customer: Ma", 2)] := by
  have tags : TagLine "#order #menu:box2".toList :=
    .order (.blank (c := ' ') (by decide) (@TagLine.menu "box2".toList [] (List.all_eq_true.1 (by decide)) .nil))
  exact ⟨tags, by decide +kernel, headerValue?_isSome_iff.1 (by decide), by decide +kernel⟩

end Herald.Order
