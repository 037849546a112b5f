import Herald.Proofs.Json.Enclosed

/-! Readers and what they make of a value. A reader accepts a text from where it stands if a value is read there that
means something to it. A record takes the members of an object one after the other: those of known keys mean something
to a field that is not set yet, and all others are passed over, but their keys must stand for a text. A list is taken
as the fields in their order. -/
namespace Herald.Json

open Herald.Text

variable {α β δ : Type}

def Accepts (reader : Reader α) (means : Tree → α → Prop) : Prop :=
  ∀ s x r, reader s = .ok (x, r) ↔ ∃ t, Reads (.value t) (skipSpace s) r ∧ means t x

theorem reads_string_iff {s r cs : List Char} : Reads (.value (.string (some cs))) s r ↔
    ∃ inside, s = '\x22' :: inside ∧ string inside = .ok (cs, r) := by
  simp only [string_eq_ok_iff]
  constructor
  · intro reads
    generalize some cs = text at reads ⊢
    cases reads with
    | string quoted => exact ⟨_, rfl, _, quoted, rfl⟩
  · rintro ⟨inside, rfl, pieces, quoted, text⟩
    rw [← text]
    exact .string quoted

theorem accepts_text : Accepts text fun t x => t = .string (some x.toList) := by
  intro s x r
  have there : (∃ t, Reads (.value t) (skipSpace s) r ∧ t = .string (some x.toList)) ↔
      ∃ inside, skipSpace s = '\x22' :: inside ∧ string inside = .ok (x.toList, r) := by
    rw [← reads_string_iff]
    simp
  rw [there]
  unfold text textWith
  split
  · next empty => simp [empty]
  · next inside opens =>
    simp only [opens, bind_eq_ok_iff, List.cons.injEq, true_and]
    constructor
    · rintro ⟨⟨cs, u⟩, read, made⟩
      cases made
      exact ⟨_, rfl, by rw [String.toList_ofList]; exact read⟩
    · rintro ⟨_, rfl, read⟩
      exact ⟨_, read, by rw [String.ofList_toList]; rfl⟩
  · next other =>
    refine iff_of_false nofun ?_
    rintro ⟨inside, opens, -⟩
    exact other inside opens

theorem accepts_signed (expected : String) : Accepts (signed expected) fun t n =>
    t = .number (intDigits n) ∧ -0x8000000000000000 ≤ n ∧ n < 0x8000000000000000 := by
  intro s n r
  rw [signed_eq_ok_iff]
  constructor
  · rintro ⟨written, numeral, range⟩
    rw [written] at numeral ⊢
    exact ⟨_, .number numeral, rfl, range⟩
  · rintro ⟨t, reads, rfl, range⟩
    generalize skipSpace s = u at reads ⊢
    cases reads with
    | number numeral => exact ⟨rfl, numeral, range⟩

variable {reader : Reader α} {means : Tree → α → Prop}

theorem accepts_map (accepts : Accepts reader means) (f : α → β) :
    Accepts (Reader.map reader f) fun t y => ∃ x, means t x ∧ f x = y := by
  intro s y r
  simp only [Reader.map, map_eq_ok_iff]
  constructor
  · rintro ⟨⟨x, u⟩, read, made⟩
    cases made
    obtain ⟨t, reads, known⟩ := (accepts s x u).1 read
    exact ⟨t, reads, x, known, rfl⟩
  · rintro ⟨t, reads, x, known, rfl⟩
    exact ⟨(x, r), (accepts s x r).2 ⟨t, reads, known⟩, rfl⟩

theorem whole_eq_ok_iff (accepts : Accepts reader means) {s : List Char} {x : α} :
    whole reader s = .ok x ↔ ∃ t, IsText t s ∧ means t x := by
  rw [whole, bind_eq_ok_iff]
  constructor
  · rintro ⟨⟨y, r⟩, read, made⟩
    obtain ⟨t, reads, known⟩ := (accepts s y r).1 read
    dsimp only at made
    split at made
    · next last =>
      cases made
      exact ⟨t, ⟨r, reads, last⟩, known⟩
    · cases made
  · rintro ⟨t, ⟨r, reads, last⟩, known⟩
    exact ⟨(x, r), (accepts s x r).2 ⟨t, reads, known⟩, by simp only [last]; rfl⟩

/-- The members of an object put into a draft, one after the other: each key stands for a text, and a known one names
a field that is not set yet and makes something of the value. -/
inductive Takes (fields : List (Field δ)) (means : String → Tree → (δ → δ) → Prop) :
    δ → List (Option (List Char) × Tree) → δ → Prop
  | none {d : δ} : Takes fields means d [] d
  | other {d e : δ} {key : List Char} {t : Tree} {ms : List (Option (List Char) × Tree)} :
    (fields.find? fun f => f.name == String.ofList key) = none → Takes fields means d ms e →
    Takes fields means d ((some key, t) :: ms) e
  | field {d e : δ} {f : Field δ} {key : List Char} {t : Tree} {put : δ → δ}
      {ms : List (Option (List Char) × Tree)} :
    (fields.find? fun f => f.name == String.ofList key) = some f → f.isSet d = false → means f.name t put →
    Takes fields means (put d) ms e → Takes fields means d ((some key, t) :: ms) e

inductive Places (means : String → Tree → (δ → δ) → Prop) : List (Field δ) → δ → List Tree → δ → Prop
  | none {d : δ} : Places means [] d [] d
  | leftOut {d e : δ} {f : Field δ} {fields : List (Field δ)} : f.required = false → Places means fields d [] e →
    Places means (f :: fields) d [] e
  | field {d e : δ} {f : Field δ} {fields : List (Field δ)} {t : Tree} {put : δ → δ} {ts : List Tree} :
    means f.name t put → Places means fields (put d) ts e → Places means (f :: fields) d (t :: ts) e

section

variable {fields : List (Field δ)} {meaning : String → Tree → (δ → δ) → Prop} {d e : δ} {s r : List Char}

theorem takes_nil_iff : Takes fields meaning d [] e ↔ e = d := by
  constructor
  · rintro ⟨⟩
    rfl
  · rintro rfl
    exact .none

theorem not_takes_of_illegible {t : Tree} {ms : List (Option (List Char) × Tree)} :
    ¬ Takes fields meaning d ((none, t) :: ms) e := nofun

theorem takes_other_iff {key : List Char} {t : Tree} {ms : List (Option (List Char) × Tree)}
    (unknown : (fields.find? fun f => f.name == String.ofList key) = none) :
    Takes fields meaning d ((some key, t) :: ms) e ↔ Takes fields meaning d ms e := by
  refine ⟨fun takes => ?_, .other unknown⟩
  cases takes with
  | other _ rest => exact rest
  | field known => cases unknown.symm.trans known

theorem takes_field_iff {f : Field δ} {key : List Char} {t : Tree} {ms : List (Option (List Char) × Tree)}
    (known : (fields.find? fun f => f.name == String.ofList key) = some f) :
    Takes fields meaning d ((some key, t) :: ms) e ↔
      f.isSet d = false ∧ ∃ put, meaning f.name t put ∧ Takes fields meaning (put d) ms e := by
  constructor
  · intro takes
    cases takes with
    | other unknown => cases unknown.symm.trans known
    | field other unset means rest =>
      cases known.symm.trans other
      exact ⟨unset, _, means, rest⟩
  · rintro ⟨unset, put, means, rest⟩
    exact .field known unset means rest

theorem places_nil_iff {ts : List Tree} : Places meaning [] d ts e ↔ ts = [] ∧ e = d := by
  constructor
  · rintro ⟨⟩
    exact ⟨rfl, rfl⟩
  · rintro ⟨rfl, rfl⟩
    exact .none

theorem places_cons_iff {f : Field δ} {ts : List Tree} : Places meaning (f :: fields) d ts e ↔
    (ts = [] ∧ f.required = false ∧ Places meaning fields d [] e) ∨
      ∃ t us put, ts = t :: us ∧ meaning f.name t put ∧ Places meaning fields (put d) us e := by
  constructor
  · intro places
    cases places with
    | leftOut optional rest => exact .inl ⟨rfl, optional, rest⟩
    | field means rest => exact .inr ⟨_, _, _, rfl, means, rest⟩
  · rintro (⟨rfl, optional, rest⟩ | ⟨t, us, put, rfl, means, rest⟩)
    · exact .leftOut optional rest
    · exact .field means rest

theorem skipSpace_brace (r : List Char) : skipSpace ('\x7d' :: r) = '\x7d' :: r := skipSpace_of_head (by decide)

theorem exists_takes_of_fieldsWith (accept : ∀ f ∈ fields, Accepts f.read (meaning f.name)) {fuel : Nat}
    (enough : s.length < fuel) {isFirst : Bool} {u : List Char}
    (read : fieldsWith fields fuel isFirst d s = .ok (e, u)) (closes : closeObject u = (none, r)) :
    ∃ ms, MembersAt isFirst ms s r ∧ Takes fields meaning d ms e := by
  -- by induction on the fuel, that is on the members
  induction fuel generalizing isFirst d s with
  | zero => cases enough
  | succ fuel ih =>
    obtain ⟨⟨key, behind⟩, found, read⟩ := bind_eq_ok_iff.1 read
    rcases key with _ | cs
    · obtain ⟨r', closing, rfl⟩ : ∃ r', skipSpace s = '\x7d' :: r' ∧ behind = '\x7d' :: r' := by
        rcases nextKey_cases found with ⟨-, there⟩ | ⟨_, _, _, _, _, _, is⟩
        · exact there
        · cases is
      cases read
      cases (skipSpace_brace r').symm.trans (closeObject_eq_iff.1 closes)
      exact ⟨[], membersAt_nil_iff.2 closing, .none⟩
    · dsimp only at read
      split at read
      · next unknown =>
        obtain ⟨k, colon, read⟩ := bind_eq_ok_iff.1 read
        obtain ⟨v, value, read⟩ := bind_eq_ok_iff.1 read
        obtain ⟨t, value⟩ := skipValue_eq_ok_iff.1 value
        have shorter := length_lt_of_nextKey found colon value
        obtain ⟨ms, members, takes⟩ := ih (by omega) read
        exact ⟨_, membersAt_cons_iff.2 ⟨behind, k, v, found, colon, value, members⟩, .other unknown takes⟩
      · next f known =>
        split at read
        · cases read
        · next unset =>
          obtain ⟨k, colon, read⟩ := bind_eq_ok_iff.1 read
          obtain ⟨⟨put, v⟩, value, read⟩ := bind_eq_ok_iff.1 read
          have mem := List.mem_of_find?_eq_some known
          obtain ⟨t, value, means⟩ := (accept f mem k put v).1 value
          have shorter := length_lt_of_nextKey found colon value
          obtain ⟨ms, members, takes⟩ := ih (Nat.lt_of_lt_of_le shorter (Nat.le_of_lt_succ enough)) read
          exact ⟨_, membersAt_cons_iff.2 ⟨behind, k, v, found, colon, value, members⟩,
            .field known (by simpa using unset) means takes⟩

theorem fieldsWith_of_takes (accept : ∀ f ∈ fields, Accepts f.read (meaning f.name))
    {ms : List (Option (List Char) × Tree)} (takes : Takes fields meaning d ms e) {fuel : Nat}
    (enough : s.length < fuel) {isFirst : Bool} (members : MembersAt isFirst ms s r) :
    ∃ u, fieldsWith fields fuel isFirst d s = .ok (e, u) ∧ closeObject u = (none, r) := by
  induction takes generalizing fuel isFirst s with
  | none =>
    obtain ⟨fuel, rfl⟩ := Nat.exists_eq_succ_of_ne_zero (Nat.ne_zero_of_lt enough)
    refine ⟨'\x7d' :: r, ?_, closeObject_eq_iff.2 (skipSpace_brace r)⟩
    rw [fieldsWith, nextKey_of_closing isFirst (membersAt_nil_iff.1 members)]
    rfl
  | other unknown _ ih =>
    obtain ⟨fuel, rfl⟩ := Nat.exists_eq_succ_of_ne_zero (Nat.ne_zero_of_lt enough)
    obtain ⟨behind, k, v, found, colon, value, rest⟩ := membersAt_cons_iff.1 members
    have shorter := length_lt_of_nextKey found colon value
    obtain ⟨u, read, closes⟩ := ih (Nat.lt_of_lt_of_le shorter (Nat.le_of_lt_succ enough)) rest
    have passed := skipValue_eq_ok_iff.2 ⟨_, value⟩
    refine ⟨u, ?_, closes⟩
    rw [fieldsWith]
    simp only [bind, Except.bind, found, unknown, colon, passed, read]
  | @field _ _ f _ _ put _ known unset means _ ih =>
    obtain ⟨fuel, rfl⟩ := Nat.exists_eq_succ_of_ne_zero (Nat.ne_zero_of_lt enough)
    obtain ⟨behind, k, v, found, colon, value, rest⟩ := membersAt_cons_iff.1 members
    have shorter := length_lt_of_nextKey found colon value
    obtain ⟨u, read, closes⟩ := ih (Nat.lt_of_lt_of_le shorter (Nat.le_of_lt_succ enough)) rest
    have mem := List.mem_of_find?_eq_some known
    have taken := (accept f mem k put v).2 ⟨_, value, means⟩
    refine ⟨u, ?_, closes⟩
    rw [fieldsWith]
    simp only [bind, Except.bind, found, known, unset, colon, taken, read, Bool.false_eq_true, if_false]

theorem fieldsWith_eq_ok_iff (accept : ∀ f ∈ fields, Accepts f.read (meaning f.name)) {fuel : Nat}
    (enough : s.length < fuel) (isFirst : Bool) :
    (∃ u, fieldsWith fields fuel isFirst d s = .ok (e, u) ∧ closeObject u = (none, r)) ↔
      ∃ ms, MembersAt isFirst ms s r ∧ Takes fields meaning d ms e := by
  constructor
  · rintro ⟨u, read, closes⟩
    exact exists_takes_of_fieldsWith accept enough read closes
  · rintro ⟨ms, members, takes⟩
    exact fieldsWith_of_takes accept takes enough members

theorem positionsWith_eq_ok_iff (accept : ∀ f ∈ fields, Accepts f.read (meaning f.name)) (expected : String) (i : Nat) :
    (∃ u, positionsWith expected fields i d s = .ok (e, u) ∧ closeList u = (none, r)) ↔
      ∃ ts, ElementsAt (i == 0) ts s r ∧ Places meaning fields d ts e := by
  -- by induction on the fields; once the list is over, all that are left are left out
  have bracket (r : List Char) : skipSpace (']' :: r) = ']' :: r := skipSpace_of_head (by decide)
  induction fields generalizing i d s with
  | nil =>
    simp only [places_nil_iff]
    constructor
    · rintro ⟨u, read, closes⟩
      cases read
      exact ⟨[], elementsAt_nil_iff.2 (closeList_eq_iff.1 closes), rfl, rfl⟩
    · rintro ⟨ts, closing, rfl, rfl⟩
      exact ⟨s, rfl, closeList_eq_iff.2 (elementsAt_nil_iff.1 closing)⟩
  | cons f fields ih =>
    obtain ⟨accepts, acceptRest⟩ := List.forall_mem_cons.1 accept
    constructor
    · rintro ⟨u, read, closes⟩
      obtain ⟨⟨more, v⟩, found, read⟩ := bind_eq_ok_iff.1 read
      dsimp only at read
      split at read
      · next another =>
        rw [another] at found
        obtain ⟨⟨put, w⟩, value, read⟩ := bind_eq_ok_iff.1 read
        obtain ⟨t, value, means⟩ := (accepts v put w).1 value
        obtain ⟨ts, rest, places⟩ := (ih acceptRest (i + 1)).1 ⟨u, read, closes⟩
        exact ⟨t :: ts, elementsAt_cons_iff.2 ⟨v, w, found, value, rest⟩, .field means places⟩
      · next last =>
        obtain ⟨r', closing, rfl⟩ : ∃ r', skipSpace s = ']' :: r' ∧ v = ']' :: r' := by
          rcases nextElement_cases found with ⟨-, there⟩ | ⟨is, -⟩
          · exact there
          · exact absurd is last
        split at read
        · cases read
        · next optional =>
          obtain ⟨ts, rest, places⟩ := (ih acceptRest (i + 1)).1 ⟨u, read, closes⟩
          have optional : f.required = false := by simpa using optional
          rcases rest with ⟨rfl, ends⟩ | ⟨w, comma, -⟩
          · cases (bracket r').symm.trans ends
            exact ⟨[], elementsAt_nil_iff.2 closing, .leftOut optional places⟩
          · cases (bracket r').symm.trans comma
    · rintro ⟨ts, elements, places⟩
      cases places with
      | leftOut optional places =>
        have closing := elementsAt_nil_iff.1 elements
        obtain ⟨u, read, closes⟩ := (ih acceptRest (i + 1)).2 ⟨[], elementsAt_nil_iff.2 (bracket r), places⟩
        refine ⟨u, ?_, closes⟩
        rw [positionsWith, nextElement_of_closing _ closing]
        simp only [bind, Except.bind, optional, Bool.false_eq_true, if_false, read]
      | @field _ _ _ _ t put ts means places =>
        obtain ⟨v, w, found, value, rest⟩ := elementsAt_cons_iff.1 elements
        obtain ⟨u, read, closes⟩ := (ih acceptRest (i + 1)).2 ⟨ts, rest, places⟩
        have taken := (accepts v put w).2 ⟨t, value, means⟩
        refine ⟨u, ?_, closes⟩
        rw [positionsWith]
        simp only [bind, Except.bind, found, if_true, taken, read]

end

theorem accepts_record {shape : Shape δ} {meaning : String → Tree → (δ → δ) → Prop}
    (accept : ∀ f ∈ shape.fields, Accepts f.read (meaning f.name)) : Accepts (record shape) fun t e =>
      (∃ ms, t = .object ms ∧ Takes shape.fields meaning shape.blank ms e ∧ missing? shape.fields e = none) ∨
        ∃ ts, t = .list ts ∧ Places meaning shape.fields shape.blank ts e := by
  intro s e r
  have split_ : (∃ t, Reads (.value t) (skipSpace s) r ∧
      ((∃ ms, t = .object ms ∧ Takes shape.fields meaning shape.blank ms e ∧ missing? shape.fields e = none) ∨
        ∃ ts, t = .list ts ∧ Places meaning shape.fields shape.blank ts e)) ↔
      (∃ i, skipSpace s = '\x7b' :: i ∧ (∃ ms, MembersAt true ms i r ∧ Takes shape.fields meaning shape.blank ms e) ∧
        missing? shape.fields e = none) ∨
      ∃ i, skipSpace s = '[' :: i ∧ ∃ ts, ElementsAt true ts i r ∧ Places meaning shape.fields shape.blank ts e := by
    constructor
    · rintro ⟨_, reads, ⟨ms, rfl, takes, all⟩ | ⟨ts, rfl, places⟩⟩
      · obtain ⟨i, opens, members⟩ := reads_object_iff.1 reads
        exact .inl ⟨i, opens, ⟨ms, members, takes⟩, all⟩
      · obtain ⟨i, opens, elements⟩ := reads_list_iff.1 reads
        exact .inr ⟨i, opens, ts, elements, places⟩
    · rintro (⟨i, opens, ⟨ms, members, takes⟩, all⟩ | ⟨i, opens, ts, elements, places⟩)
      · exact ⟨_, reads_object_iff.2 ⟨i, opens, members⟩, .inl ⟨ms, rfl, takes, all⟩⟩
      · exact ⟨_, reads_list_iff.2 ⟨i, opens, elements⟩, .inr ⟨ts, rfl, places⟩⟩
  rw [split_]
  unfold record
  split
  · next nothing => simp [nothing]
  · next i opens =>
    have list := @positionsWith_eq_ok_iff _ _ _ shape.blank e i r accept shape.expected 0
    have zero : (0 == 0) = true := rfl
    rw [zero] at list
    simp [opens, closed_eq_ok_iff, list]
  · next i opens =>
    have object := @fieldsWith_eq_ok_iff _ _ _ shape.blank e i r accept _ (Nat.lt_succ_self _) true
    have there : (∃ j, skipSpace s = '\x7b' :: j ∧ (∃ ms, MembersAt true ms j r ∧
        Takes shape.fields meaning shape.blank ms e) ∧ missing? shape.fields e = none) ↔
        (∃ ms, MembersAt true ms i r ∧ Takes shape.fields meaning shape.blank ms e) ∧
          missing? shape.fields e = none := by simp [opens]
    have other : ¬ ∃ j, skipSpace s = '[' :: j ∧ ∃ ts, ElementsAt true ts j r ∧
        Places meaning shape.fields shape.blank ts e := by simp [opens]
    rw [closed_eq_ok_iff, or_iff_left other, there]
    constructor
    · rintro ⟨u, read, closes⟩
      obtain ⟨⟨d, v⟩, fields, read⟩ := bind_eq_ok_iff.1 read
      dsimp only at read
      split at read
      · cases read
      · next all =>
        cases read
        exact ⟨object.1 ⟨u, fields, closes⟩, all⟩
    · rintro ⟨members, all⟩
      obtain ⟨u, fields, closes⟩ := object.2 members
      exact ⟨u, bind_eq_ok_iff.2 ⟨(e, u), fields, by simp only [all]; rfl⟩, closes⟩
  · next u empty list object =>
    refine iff_of_false nofun ?_
    rintro (⟨i, opens, -⟩ | ⟨i, opens, -⟩)
    · exact object i opens
    · exact list i opens

end Herald.Json
