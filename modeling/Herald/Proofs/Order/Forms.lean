import Herald.Proofs.Order.Grammar

/-! The two forms of an item are read as the grammar of the lines says. What is read is the first cut of the line,
and a line with a cut is always read. -/
namespace Herald.Order

open Herald.Text Herald.Unicode

variable {line s t r rest price : List Char} {w : Written}

/-! ### What follows a name -/

theorem times?_eq_some_iff : times? s = some r ↔
    ∃ before sign after, s = before ++ sign :: (after ++ r) ∧
      Blank before ∧ isTimes sign = true ∧ Blank after ∧ Stops isBlank r := by
  constructor
  · intro found
    simp only [times?, skipBlanks] at found
    split at found
    · next sign tail cut =>
      split at found
      · next times =>
        cases found
        refine ⟨s.takeWhile isBlank, sign, tail.takeWhile isBlank, ?_, fun _ => List.mem_takeWhile_imp, times,
          fun _ => List.mem_takeWhile_imp, stops_dropWhile _ _⟩
        rw [List.takeWhile_append_dropWhile, ← cut, List.takeWhile_append_dropWhile]
      · cases found
    · cases found
  · rintro ⟨before, sign, after, rfl, blank, times, blankAfter, stops⟩
    have first := (span_append_cons blank (isBlank_of_isTimes times) (after ++ r)).2
    have second := (span_append blankAfter stops).2
    simp [times?, skipBlanks, first, second, times]

theorem freePrice?_eq_some_iff : freePrice? rest = some price ↔ FreePrice rest price := by
  simp only [freePrice?, Option.bind_eq_some_iff, times?_eq_some_iff]
  constructor
  · rintro ⟨r, ⟨before, sign, after, rfl, blank, times, blankAfter, -⟩, found⟩
    rcases r with _ | ⟨c, tail⟩
    · cases found
    · by_cases currency : isCurrency c = true
      · simp only [currency, if_true] at found
        exact ⟨before, sign, after, [c], tail, rfl, blank, times, blankAfter, .inr ⟨c, rfl, currency⟩,
          amount?_eq_some_iff.1 found⟩
      · simp only [currency] at found
        exact ⟨before, sign, after, [], c :: tail, rfl, blank, times, blankAfter, .inl rfl,
          amount?_eq_some_iff.1 found⟩
  · rintro ⟨before, sign, after, currency, tail, rfl, blank, times, blankAfter, isOne, longest⟩
    have found := amount?_eq_some_iff.2 longest
    obtain ⟨c, more, rfl, digit⟩ := longest.exists_digit
    rcases isOne with rfl | ⟨d, rfl, is⟩
    · refine ⟨c :: more, ⟨before, sign, after, rfl, blank, times, blankAfter,
        stops_cons.2 (isBlank_of_isDecimalDigit digit)⟩, ?_⟩
      simp [isCurrency_of_isDecimalDigit digit, found]
    · refine ⟨d :: c :: more, ⟨before, sign, after, rfl, blank, times, blankAfter,
        stops_cons.2 (isBlank_of_isCurrency is)⟩, ?_⟩
      simp [is, found]

theorem freeTail?_eq_some_iff {quantity : List Char} {price : Option (List Char)} :
    freeTail? s = some (quantity, price) ↔ ∃ before sign after rest,
      s = before ++ sign :: (after ++ (quantity ++ rest)) ∧
        Blank before ∧ isTimes sign = true ∧ Blank after ∧ Longest IsRow quantity (quantity ++ rest) ∧
        price = freePrice? rest := by
  constructor
  · intro found
    simp only [freeTail?] at found
    split at found
    · next row rest cut =>
      cases found
      obtain ⟨r, cutTimes, cutDigits⟩ := Option.bind_eq_some_iff.1 cut
      obtain ⟨before, sign, after, rfl, blank, times, blankAfter, -⟩ := times?_eq_some_iff.1 cutTimes
      obtain ⟨rfl, longest⟩ := digits?_eq_some_iff.1 cutDigits
      exact ⟨before, sign, after, rest, rfl, blank, times, blankAfter, longest, rfl⟩
    · cases found
  · rintro ⟨before, sign, after, rest, rfl, blank, times, blankAfter, longest, rfl⟩
    have cutTimes := times?_eq_some_iff.2
      ⟨before, sign, after, rfl, blank, times, blankAfter, longest.holds.stops_isBlank rest⟩
    have cutDigits := digits?_eq_some_iff.2 ⟨rfl, longest⟩
    simp [freeTail?, cutTimes, cutDigits]

/-! ### The shortest name -/

theorem freeFrom?_eq_some_iff : freeFrom? s = some w ↔ ∃ tail, s = w.name ++ tail ∧ w.name ≠ [] ∧
    freeTail? tail = some (w.quantity, w.price) ∧
      ∀ short more, s = short ++ more → short ≠ [] → short.length < w.name.length →
        freeTail? more = none := by
  induction s generalizing w with
  | nil =>
    refine ⟨fun found => by simp [freeFrom?] at found, ?_⟩
    rintro ⟨tail, whole, some_, -⟩
    exact absurd (List.append_eq_nil_iff.1 whole.symm).1 some_
  | cons c r ih =>
    cases found : freeTail? r with
    | some tail =>
      obtain ⟨quantity, price⟩ := tail
      simp only [freeFrom?, found, Option.some.injEq]
      constructor
      · rintro rfl
        refine ⟨r, rfl, by simp, found, fun short more _ some_ shorter => ?_⟩
        exact absurd (List.length_eq_zero_iff.1 (Nat.lt_one_iff.1 shorter)) some_
      · rintro ⟨tail, whole, some_, cut, shortest⟩
        obtain ⟨d, name, eq⟩ := List.exists_cons_of_ne_nil some_
        rcases w with ⟨_, _, _⟩
        subst eq
        obtain ⟨rfl, rest⟩ : c = d ∧ r = name ++ tail := by simpa using whole
        rcases name with _ | ⟨e, name⟩
        · subst rest
          obtain ⟨rfl, rfl⟩ : quantity = _ ∧ price = _ := by simpa [found] using cut
          rfl
        · have none_ := shortest [c] r rfl (by simp) (by simp)
          rw [found] at none_
          cases none_
    | none =>
      simp only [freeFrom?, found, Option.map_eq_some_iff]
      constructor
      · rintro ⟨v, foundRest, rfl⟩
        obtain ⟨tail, rfl, some_, cut, shortest⟩ := ih.1 foundRest
        refine ⟨tail, rfl, by simp, cut, fun short more whole someShort shorter => ?_⟩
        obtain ⟨d, short, rfl⟩ := List.exists_cons_of_ne_nil someShort
        obtain ⟨rfl, rest⟩ : c = d ∧ v.name ++ tail = short ++ more := by simpa using whole
        rcases short with _ | ⟨e, short⟩
        · rw [← List.nil_append more, ← rest, found]
        · exact shortest _ more rest (by simp) (by simpa using shorter)
      · rintro ⟨tail, whole, some_, cut, shortest⟩
        obtain ⟨d, name, eq⟩ := List.exists_cons_of_ne_nil some_
        rcases w with ⟨_, quantity, price⟩
        subst eq
        obtain ⟨rfl, rest⟩ : c = d ∧ r = name ++ tail := by simpa using whole
        refine ⟨⟨name, quantity, price⟩, ih.2 ⟨tail, rest, ?_, cut, fun short more whole _ shorter => ?_⟩, rfl⟩
        · rintro rfl
          rw [rest, List.nil_append, cut] at found
          cases found
        · exact shortest (c :: short) more (by simp [whole]) (by simp) (by simpa using shorter)

theorem exists_freeFrom? {name tail : List Char} {cut : List Char × Option (List Char)} (some_ : name ≠ [])
    (found : freeTail? tail = some cut) : ∃ w, freeFrom? (name ++ tail) = some w := by
  induction name with
  | nil => exact absurd rfl some_
  | cons c name ih =>
    rw [List.cons_append, freeFrom?]
    split
    · exact ⟨_, rfl⟩
    · next none_ =>
      rcases name with _ | ⟨d, name⟩
      · rw [List.nil_append, found] at none_
        cases none_
      · obtain ⟨w, foundRest⟩ := ih (by simp)
        rw [foundRest]
        exact ⟨_, rfl⟩

/-! ### The first place for a name to start -/

theorem mem_afterBlanks : t ∈ afterBlanks s ↔ ∃ lead, s = lead ++ t ∧ Blank lead := by
  induction s with
  | nil =>
    constructor
    · intro mem
      exact ⟨[], by simpa [afterBlanks, eq_comm] using mem, blank_nil⟩
    · rintro ⟨lead, whole, -⟩
      simp [afterBlanks, (List.append_eq_nil_iff.1 whole.symm).2]
  | cons c r ih =>
    by_cases blank : isBlank c = true
    · simp only [afterBlanks, blank, if_true, List.mem_append, List.mem_singleton, ih]
      constructor
      · rintro (⟨lead, rfl, blankLead⟩ | rfl)
        · exact ⟨c :: lead, rfl, List.forall_mem_cons.2 ⟨blank, blankLead⟩⟩
        · exact ⟨[], rfl, blank_nil⟩
      · rintro ⟨_ | ⟨d, lead⟩, whole, blankLead⟩
        · exact .inr whole.symm
        · exact .inl ⟨lead, (List.cons.inj whole).2, (List.forall_mem_cons.1 blankLead).2⟩
    · rw [afterBlanks, if_neg blank, List.mem_singleton]
      constructor
      · rintro rfl
        exact ⟨[], rfl, blank_nil⟩
      · rintro ⟨_ | ⟨d, lead⟩, whole, blankLead⟩
        · exact whole.symm
        · rw [(List.cons.inj whole).1] at blank
          exact absurd (List.forall_mem_cons.1 blankLead).1 blank

theorem pairwise_afterBlanks (s : List Char) : (afterBlanks s).Pairwise fun a b => a.length < b.length := by
  induction s with
  | nil => simp [afterBlanks]
  | cons c r ih =>
    rw [afterBlanks]
    split
    · refine List.pairwise_append.2 ⟨ih, List.pairwise_singleton _ _, fun a mem b whole => ?_⟩
      obtain ⟨lead, rfl, -⟩ := mem_afterBlanks.1 mem
      rw [List.mem_singleton.1 whole]
      simp only [List.length_cons, List.length_append]
      omega
    · exact List.pairwise_singleton _ _

theorem starts_cons (c : Char) (r : List Char) :
    starts (c :: r) = (if isBullet c then afterBlanks r else []) ++ afterBlanks (c :: r) := rfl

theorem mem_starts : t ∈ starts line ↔
    ∃ bullet lead, line = bullet ++ (lead ++ t) ∧ AtMostOne isBullet bullet ∧ Blank lead := by
  constructor
  · intro mem
    have ofPlain (plain : t ∈ afterBlanks line) :
        ∃ bullet lead, line = bullet ++ (lead ++ t) ∧ AtMostOne isBullet bullet ∧ Blank lead := by
      obtain ⟨lead, rfl, blank⟩ := mem_afterBlanks.1 plain
      exact ⟨[], lead, rfl, .inl rfl, blank⟩
    rcases line with _ | ⟨c, r⟩
    · exact ofPlain mem
    · rw [starts_cons] at mem
      rcases List.mem_append.1 mem with behind | plain
      · split at behind
        · next bullet =>
          obtain ⟨lead, rfl, blank⟩ := mem_afterBlanks.1 behind
          exact ⟨[c], lead, rfl, .inr ⟨c, rfl, bullet⟩, blank⟩
        · cases behind
      · exact ofPlain plain
  · rintro ⟨_, lead, rfl, rfl | ⟨c, rfl, bullet⟩, blank⟩
    · exact List.mem_append_right _ (mem_afterBlanks.2 ⟨lead, rfl, blank⟩)
    · refine List.mem_append_left _ ?_
      simp only [List.cons_append, List.nil_append, bullet, if_true]
      exact mem_afterBlanks.2 ⟨lead, rfl, blank⟩

theorem pairwise_starts (line : List Char) : (starts line).Pairwise fun a b => a.length < b.length := by
  rcases line with _ | ⟨c, r⟩
  · exact List.pairwise_singleton _ _
  · rw [starts_cons]
    split
    · next bullet =>
      -- a bullet is no blank: without it, the name starts right there
      have plain : afterBlanks (c :: r) = [c :: r] := by
        rw [afterBlanks, isBlank_of_isBullet bullet, if_neg Bool.false_ne_true]
      rw [plain]
      refine List.pairwise_append.2 ⟨pairwise_afterBlanks r, List.pairwise_singleton _ _,
        fun a mem b whole => ?_⟩
      obtain ⟨lead, rfl, -⟩ := mem_afterBlanks.1 mem
      rw [List.mem_singleton.1 whole]
      simp only [List.length_cons, List.length_append]
      omega
    · exact pairwise_afterBlanks (c :: r)

theorem findSome?_eq_some_iff_of_pairwise {α β : Type} {key : α → Nat} {f : α → Option β} {l : List α} {b : β}
    (sorted : l.Pairwise fun x y => key x < key y) :
    l.findSome? f = some b ↔ ∃ a ∈ l, f a = some b ∧ ∀ x ∈ l, key x < key a → f x = none := by
  rw [List.findSome?_eq_some_iff]
  constructor
  · rintro ⟨before, a, after, rfl, found, none_⟩
    refine ⟨a, by simp, found, fun x mem less => ?_⟩
    obtain ⟨-, sortedTail, -⟩ := List.pairwise_append.1 sorted
    rcases List.mem_append.1 mem with front | back
    · exact none_ x front
    · rcases List.mem_cons.1 back with rfl | later
      · exact absurd less (Nat.lt_irrefl _)
      · exact absurd less (Nat.lt_asymm ((List.pairwise_cons.1 sortedTail).1 x later))
  · rintro ⟨a, mem, found, none_⟩
    obtain ⟨before, after, rfl⟩ := List.append_of_mem mem
    refine ⟨before, a, after, rfl, found, fun x front => none_ x (by simp [front]) ?_⟩
    exact (List.pairwise_append.1 sorted).2.2 x front a List.mem_cons_self

/-! ### The first cut -/

namespace Cut

variable {c d : Cut}

theorem IsOf.length (isOf : c.IsOf line) :
    c.bullet.length + (c.lead.length + c.start.length) = line.length := by
  rw [← isOf.text, Cut.text, List.length_append, List.length_append]

theorem IsOf.start_mem (isOf : c.IsOf line) : c.start ∈ starts line :=
  mem_starts.2 ⟨c.bullet, c.lead, isOf.text.symm, isOf.bullet, isOf.lead⟩

theorem IsOf.start_eq (ofC : c.IsOf line) (ofD : d.IsOf line) (same : d.start.length = c.start.length) :
    d.start = c.start := by
  have suffix {e : Cut} (ofE : e.IsOf line) : e.start <:+ line :=
    ⟨e.bullet ++ e.lead, by rw [← ofE.text, Cut.text, List.append_assoc]⟩
  exact (List.suffix_of_suffix_length_le (suffix ofD) (suffix ofC) same.le).eq_of_length same

theorem IsOf.lead_eq_nil (ofC : c.IsOf line) (ofD : d.IsOf line) (plain : c.bullet = [])
    (behind : d.bullet ≠ []) : c.lead = [] := by
  obtain nil | ⟨b, one, isBullet_⟩ := ofD.bullet
  · exact absurd nil behind
  · have whole : c.lead ++ c.start = b :: (d.lead ++ d.start) := by
      rw [← List.singleton_append, ← one, ← Cut.text, ofD.text, ← ofC.text, Cut.text, plain, List.nil_append]
    refine List.eq_nil_iff_forall_not_mem.2 fun e mem => ?_
    obtain ⟨f, lead, eq⟩ := List.exists_cons_of_ne_nil (List.ne_nil_of_mem mem)
    have blank := ofC.lead f (by simp [eq])
    rw [eq] at whole
    rw [(List.cons.inj whole).1, isBlank_of_isBullet isBullet_] at blank
    cases blank

theorem precedes_iff (ofC : c.IsOf line) (ofD : d.IsOf line) : d.Precedes c ↔
    d.start.length < c.start.length ∨ d.start.length = c.start.length ∧
      (d.name.length < c.name.length ∨ d.name.length = c.name.length ∧
        c.quantity.length < d.quantity.length) := by
  have wholeC := ofC.length
  have wholeD := ofD.length
  have one {e : Cut} (ofE : e.IsOf line) : e.bullet.length ≤ 1 := by
    rcases ofE.bullet with nil | ⟨b, one, -⟩ <;> simp [*]
  have oneC := one ofC
  have oneD := one ofD
  have leadC : c.bullet.length = 0 → d.bullet.length ≠ 0 → c.lead.length = 0 := fun plain behind => by
    rw [ofC.lead_eq_nil ofD (List.length_eq_zero_iff.1 plain) (mt List.length_eq_zero_iff.2 behind)]
    rfl
  have leadD : d.bullet.length = 0 → c.bullet.length ≠ 0 → d.lead.length = 0 := fun plain behind => by
    rw [ofD.lead_eq_nil ofC (List.length_eq_zero_iff.1 plain) (mt List.length_eq_zero_iff.2 behind)]
    rfl
  unfold Precedes
  omega

theorem IsOf.exists_freeTail? (isOf : c.IsOf line) : ∃ cut, freeTail? c.tail = some cut := by
  obtain ⟨quantity, more, cut⟩ := exists_of_isRow isOf.quantity (List.prefix_append _ c.rest)
  have cutTimes := times?_eq_some_iff.2 ⟨c.before, c.sign, c.after, rfl, isOf.before, isOf.sign, isOf.after,
    isOf.quantity.stops_isBlank c.rest⟩
  exact ⟨(quantity, freePrice? more), by simp [freeTail?, tail, cutTimes, cut]⟩

theorem IsOf.exists_freeFrom? (isOf : c.IsOf line) : ∃ w, freeFrom? c.start = some w := by
  obtain ⟨cut, found⟩ := isOf.exists_freeTail?
  exact Order.exists_freeFrom? isOf.name found

theorem IsOf.quantity_prefix (ofC : c.IsOf line) (ofD : d.IsOf line) (same : d.tail = c.tail) :
    d.quantity <+: c.quantity ++ c.rest := by
  have cutTimes {e : Cut} (ofE : e.IsOf line) : times? e.tail = some (e.quantity ++ e.rest) :=
    times?_eq_some_iff.2 ⟨e.before, e.sign, e.after, rfl, ofE.before, ofE.sign, ofE.after,
      ofE.quantity.stops_isBlank e.rest⟩
  have eq := (cutTimes ofC).symm.trans (same ▸ cutTimes ofD)
  exact Option.some.inj eq ▸ List.prefix_append _ _

end Cut

theorem exists_cut (mem : t ∈ starts line) (found : freeFrom? t = some w) : ∃ c : Cut, c.IsOf line ∧
    c.start = t ∧ c.name = w.name ∧ c.quantity = w.quantity ∧
      Longest IsRow c.quantity (c.quantity ++ c.rest) ∧ w.price = freePrice? c.rest := by
  obtain ⟨bullet, lead, rfl, isBullet_, blankLead⟩ := mem_starts.1 mem
  obtain ⟨tail, rfl, named, cut, -⟩ := freeFrom?_eq_some_iff.1 found
  obtain ⟨before, sign, after, rest, rfl, blank, times, blankAfter, longest, priced⟩ :=
    freeTail?_eq_some_iff.1 cut
  exact ⟨⟨bullet, lead, w.name, before, sign, after, w.quantity, rest⟩,
    ⟨rfl, isBullet_, blankLead, named, blank, times, blankAfter, longest.holds⟩, rfl, rfl, rfl, longest, priced⟩

theorem freeForm_of_free? (found : free? line = some w) : FreeForm line w := by
  obtain ⟨t, mem, foundHere, none_⟩ := (findSome?_eq_some_iff_of_pairwise (pairwise_starts line)).1 found
  obtain ⟨c, ofC, rfl, name, quantity, longest, priced⟩ := exists_cut mem foundHere
  obtain ⟨tail, start, -, -, shortest⟩ := freeFrom?_eq_some_iff.1 foundHere
  refine ⟨c, ⟨ofC, fun d ofD precedes => ?_⟩, name.symm, quantity.symm, fun price => ?_⟩
  · rcases (Cut.precedes_iff ofC ofD).1 precedes with later | ⟨sameStart, shorter | ⟨sameName, longer⟩⟩
    · obtain ⟨v, foundThere⟩ := ofD.exists_freeFrom?
      rw [none_ d.start ofD.start_mem later] at foundThere
      cases foundThere
    · obtain ⟨cut, foundThere⟩ := ofD.exists_freeTail?
      rw [shortest d.name d.tail (ofC.start_eq ofD sameStart).symm ofD.name (name ▸ shorter)] at foundThere
      cases foundThere
    · obtain ⟨-, sameTail⟩ := List.append_inj (ofC.start_eq ofD sameStart) sameName
      exact Nat.not_le.2 longer (longest.longest _ (ofC.quantity_prefix ofD sameTail) ofD.quantity)
  · rw [priced, freePrice?_eq_some_iff]

theorem free?_of_freeForm (form : FreeForm line w) : free? line = some w := by
  obtain ⟨c, ⟨ofC, first⟩, name, quantity, priced⟩ := form
  have notBefore {d : Cut} (ofD : d.IsOf line) := (Cut.precedes_iff ofC ofD).not.1 (first d ofD)
  refine (findSome?_eq_some_iff_of_pairwise (pairwise_starts line)).2 ⟨c.start, ofC.start_mem, ?_,
    fun t mem later => ?_⟩
  · refine freeFrom?_eq_some_iff.2 ⟨c.tail, by rw [name]; rfl, name ▸ ofC.name,
      freeTail?_eq_some_iff.2 ⟨c.before, c.sign, c.after, c.rest, by rw [quantity]; rfl, ofC.before, ofC.sign,
        ofC.after, ?_, ?_⟩, fun short more whole some_ shorter => ?_⟩
    · rw [quantity]
      refine ⟨List.prefix_append _ _, ofC.quantity, fun other front isRow => Nat.not_lt.1 fun longer => ?_⟩
      obtain ⟨more, whole⟩ := front
      have ofD : Cut.IsOf line { c with quantity := other, rest := more } :=
        ⟨by rw [← ofC.text]; simp [Cut.text, Cut.start, Cut.tail, whole], ofC.bullet, ofC.lead, ofC.name,
          ofC.before, ofC.sign, ofC.after, isRow⟩
      refine notBefore ofD (.inr ⟨?_, .inr ⟨rfl, longer⟩⟩)
      simp [Cut.start, Cut.tail, whole]
    · exact Option.ext fun price => by rw [priced, freePrice?_eq_some_iff]
    · refine Option.eq_none_iff_forall_ne_some.2 fun ⟨row, _⟩ cut => ?_
      obtain ⟨before, sign, after, rest, rfl, blank, times, blankAfter, longest, -⟩ :=
        freeTail?_eq_some_iff.1 cut
      have ofD : Cut.IsOf line ⟨c.bullet, c.lead, short, before, sign, after, row, rest⟩ :=
        ⟨by rw [← ofC.text]; simp only [Cut.text, Cut.start] at *; rw [whole]; rfl, ofC.bullet, ofC.lead, some_, blank,
          times, blankAfter, longest.holds⟩
      refine notBefore ofD (.inr ⟨?_, .inl (name ▸ shorter)⟩)
      rw [whole]
      rfl
  · refine Option.eq_none_iff_forall_ne_some.2 fun v foundThere => ?_
    obtain ⟨d, ofD, rfl, -⟩ := exists_cut mem foundThere
    exact notBefore ofD (.inl later)

/-- The free item of a line is read off the first cut. -/
theorem free?_eq_some_iff : free? line = some w ↔ FreeForm line w :=
  ⟨freeForm_of_free?, free?_of_freeForm⟩

/-! ### The labelled form -/

theorem labelledPrice?_eq_some_iff : labelledPrice? rest = some price ↔ LabelledPrice rest price := by
  constructor
  · intro found
    rcases rest with _ | ⟨c, r⟩
    · cases found
    · simp only [labelledPrice?] at found
      split at found
      · next blank =>
        obtain ⟨tail, cut, amount⟩ := Option.bind_eq_some_iff.1 found
        rw [dropLead_eq_some_iff, skipBlanks] at cut
        refine ⟨(c :: r).takeWhile isBlank, tail, ?_, by simp [blank], fun _ => List.mem_takeWhile_imp,
          amount?_eq_some_iff.1 amount⟩
        rw [← cut, List.takeWhile_append_dropWhile]
      · cases found
  · rintro ⟨gap, tail, rfl, some_, blank, longest⟩
    have left : (gap ++ ("price:".toList ++ tail)).dropWhile isBlank = "price:".toList ++ tail :=
      (span_append_cons blank rfl _).2
    obtain ⟨c, gap, rfl⟩ := List.exists_cons_of_ne_nil some_
    have first := blank c List.mem_cons_self
    rw [← skipBlanks] at left
    simp only [labelledPrice?, List.cons_append, first, if_true]
    rw [← List.cons_append, left, Option.bind_eq_some_iff]
    exact ⟨tail, dropLead_eq_some_iff.2 rfl, amount?_eq_some_iff.2 longest⟩

def body (line : List Char) : List Char :=
  match line with
  | c :: r => if isBullet c then skipBlanks r else line
  | [] => []

theorem exists_body (line : List Char) :
    ∃ bullet lead, line = bullet ++ (lead ++ body line) ∧ AtMostOne isBullet bullet ∧ Blank lead := by
  rcases line with _ | ⟨c, r⟩
  · exact ⟨[], [], rfl, .inl rfl, blank_nil⟩
  · rw [body]
    split
    · next bullet =>
      refine ⟨[c], r.takeWhile isBlank, ?_, .inr ⟨c, rfl, bullet⟩, fun _ => List.mem_takeWhile_imp⟩
      rw [skipBlanks, List.takeWhile_append_dropWhile, List.singleton_append]
    · exact ⟨[], [], rfl, .inl rfl, blank_nil⟩

theorem body_of_cut {edge bullet lead text : List Char} {c : Char} (ink : Stops isBlank line)
    (whole : line = edge ++ (bullet ++ (lead ++ c :: text))) (blankEdge : Blank edge)
    (isBullet_ : AtMostOne isBullet bullet) (blankLead : Blank lead) (plain : isBullet c = false)
    (inkBody : isBlank c = false) : body line = c :: text := by
  obtain rfl := blankEdge.eq_nil_of_stops (whole ▸ ink)
  rcases isBullet_ with rfl | ⟨b, rfl, is⟩
  · obtain rfl := blankLead.eq_nil_of_stops (whole ▸ ink)
    simp [whole, body, plain]
  · have left := (span_append_cons blankLead inkBody text).2
    simp [whole, body, is, skipBlanks, left]

structure LabelledCut (text name quantity rest : List Char) : Prop where
  cut : ∃ gap, text = "name:\x22".toList ++ (name ++ ('\x22' :: (gap ++ ("qty:".toList ++ (quantity ++ rest))))) ∧
    gap ≠ [] ∧ Blank gap
  longest : Longest IsRow quantity (quantity ++ rest)
  named : name ≠ []
  unquoted : '\x22' ∉ name

theorem labelled?_of_cut (cut : LabelledCut (body line) w.name w.quantity rest)
    (price : w.price = labelledPrice? rest) : labelled? line = some w := by
  obtain ⟨⟨gap, body_eq, someGap, blankGap⟩, longest, named, unquoted⟩ := cut
  have quoted : ∀ c ∈ w.name, (c != '\x22') = true := fun c mem => bne_iff_ne.2 fun is => unquoted (is ▸ mem)
  have name := span_append_cons quoted (bne_self_eq_false '\x22') (gap ++ ("qty:".toList ++ (w.quantity ++ rest)))
  have behind : (gap ++ ("qty:".toList ++ (w.quantity ++ rest))).dropWhile isBlank =
      "qty:".toList ++ (w.quantity ++ rest) :=
    (span_append_cons blankGap rfl _).2
  have digits := digits?_eq_some_iff.2 ⟨rfl, longest⟩
  obtain ⟨c, gap, rfl⟩ := List.exists_cons_of_ne_nil someGap
  have first := blankGap c List.mem_cons_self
  refine Option.bind_eq_some_iff.2 ⟨_, dropLead_eq_some_iff.2 body_eq,
    Option.bind_eq_some_iff.2 ⟨_, dropLead_eq_some_iff.2 name.2, ?_⟩⟩
  refine (if_neg ?_).trans
    (Option.bind_eq_some_iff.2 ⟨_, dropLead_eq_some_iff.2 behind, Option.bind_eq_some_iff.2 ⟨_, digits, ?_⟩⟩)
  · rw [name.1]
    simp [named, first]
  · change some (Written.mk _ w.quantity (labelledPrice? rest)) = some w
    rw [name.1, ← price]

theorem cut_of_labelled? (found : labelled? line = some w) :
    ∃ rest, LabelledCut (body line) w.name w.quantity rest ∧ w.price = labelledPrice? rest := by
  obtain ⟨quoted, open_, found⟩ := Option.bind_eq_some_iff.1 found
  obtain ⟨after, close, found⟩ := Option.bind_eq_some_iff.1 found
  rw [dropLead_eq_some_iff] at open_ close
  split at found
  · cases found
  · next valid =>
    obtain ⟨named, gap⟩ := not_or.1 valid
    obtain ⟨tail, label, found⟩ := Option.bind_eq_some_iff.1 found
    obtain ⟨⟨quantity, rest⟩, digits, found⟩ := Option.bind_eq_some_iff.1 found
    cases found
    rw [dropLead_eq_some_iff, skipBlanks] at label
    obtain ⟨rfl, longest⟩ := digits?_eq_some_iff.1 digits
    have quoted_eq : quoted = quoted.takeWhile (· != '\x22') ++ '\x22' :: after := by
      rw [← List.singleton_append, ← close, List.takeWhile_append_dropWhile]
    have after_eq : after = after.takeWhile isBlank ++ ("qty:".toList ++ (quantity ++ rest)) := by
      rw [← label, List.takeWhile_append_dropWhile]
    refine ⟨rest,
      ⟨⟨after.takeWhile isBlank, ?_, ?_, fun _ => List.mem_takeWhile_imp⟩, longest, named, fun mem => ?_⟩, rfl⟩
    · rw [← after_eq, ← quoted_eq]
      exact open_
    · rcases after with _ | ⟨c, after⟩
      · simp at gap
      · simp at gap
        simp [gap]
    · simpa using List.mem_takeWhile_imp mem

/-- The labelled item of a line without blanks in front is the one that can be cut out of it. -/
theorem labelled?_eq_some_iff (ink : Stops isBlank line) : labelled? line = some w ↔ LabelledForm line w := by
  constructor
  · intro found
    obtain ⟨rest, ⟨⟨gap, body_eq, someGap, blankGap⟩, longest, named, unquoted⟩, price⟩ := cut_of_labelled? found
    obtain ⟨bullet, lead, whole, isBullet_, blankLead⟩ := exists_body line
    refine ⟨⟨[], bullet, lead, gap, rest, ?_, blank_nil, isBullet_, blankLead, someGap, blankGap, longest,
      fun _ => by rw [price, labelledPrice?_eq_some_iff]⟩, named, unquoted⟩
    rw [List.nil_append, ← body_eq]
    exact whole
  · rintro ⟨⟨edge, bullet, lead, gap, rest, whole, blankEdge, isBullet_, blankLead, someGap, blankGap, longest,
      priced⟩, named, unquoted⟩
    have body_eq := body_of_cut (c := 'n') ink whole blankEdge isBullet_ blankLead rfl rfl
    exact labelled?_of_cut ⟨⟨gap, body_eq, someGap, blankGap⟩, longest, named, unquoted⟩
      (Option.ext fun price => by rw [priced, labelledPrice?_eq_some_iff])

end Herald.Order
