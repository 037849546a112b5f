import Herald.Proofs.Json.Numbers
import Herald.Proofs.Json.Strings

/-! A value that is passed over is one of the grammar. The brackets that are open tell what must still follow a value:
each is closed at once, or after more items behind a comma. Passing over is the same for lists and objects, whose
items have keys. -/
namespace Herald.Json

open Herald.Text

theorem word_eq_ok_iff {w s r : List Char} : word w s = .ok r ↔ s = w ++ r := by
  induction w generalizing s with
  | nil => simp [word]
  | cons a w ih =>
    cases s with
    | nil => simp [word]
    | cons b s =>
      by_cases same : a = b
      · simp [word, same, ih]
      · simp [word, same, Ne.symm same]

theorem length_skipSpace_le (s : List Char) : (skipSpace s).length ≤ s.length := List.length_dropWhile_le _ _

theorem Quoted.length_lt {s r : List Char} {pieces : List Piece} (quoted : Quoted s pieces r) :
    r.length < s.length := by
  induction quoted with
  | close => simp
  | plain _ _ _ _ ih => simp only [List.length_cons]; omega
  | letter _ _ ih => simp only [List.length_cons]; omega
  | unit _ _ ih => simp only [List.length_cons]; omega

theorem unsigned_length_lt {s r : List Char} (unsigned : Unsigned s r) : r.length < s.length := by
  obtain ⟨f, e, whole, fraction, exponent⟩ := unsigned
  obtain ⟨n, rfl, -⟩ := whole_iff.1 whole
  have digits := List.length_pos_iff.2 (natDigits_ne_nil n)
  have upTo := (fraction_length_le fraction).1
  have andThen := (exponent_length_le exponent).1
  rw [List.length_append]
  omega

theorem numeral_length_lt {s r : List Char} (numeral : Numeral s r) : r.length < s.length := by
  cases numeral with
  | positive unsigned => exact unsigned_length_lt unsigned
  | negative unsigned => exact Nat.lt_succ_of_lt (unsigned_length_lt unsigned)

theorem KeyAt.length_lt {s k : List Char} {key : Option (List Char)} (at_ : KeyAt s key k) : k.length < s.length := by
  obtain ⟨inside, behind, pieces, opens, quoted, colon, -⟩ := at_
  have first := length_skipSpace_le s
  have second := length_skipSpace_le behind
  have between := quoted.length_lt
  rw [opens, List.length_cons] at first
  rw [colon, List.length_cons] at second
  omega

theorem Reads.length_lt {part : Part} {s r : List Char} (reads : Reads part s r) : r.length < s.length := by
  have behind {c : Char} {s r : List Char} (is : skipSpace s = c :: r) : r.length < s.length := by
    have short := length_skipSpace_le s
    rw [is] at short
    exact short
  induction reads with
  | null => simp; omega
  | isFalse => simp; omega
  | isTrue => simp; omega
  | number numeral => exact numeral_length_lt numeral
  | string quoted => exact Nat.lt_succ_of_lt quoted.length_lt
  | emptyList is => exact Nat.lt_succ_of_lt (behind is)
  | list _ ih => exact Nat.lt_succ_of_lt ih
  | emptyObject is => exact Nat.lt_succ_of_lt (behind is)
  | object _ ih => exact Nat.lt_succ_of_lt ih
  | @lastElement _ s _ _ _ closes ih =>
    have short := length_skipSpace_le s
    have closes := behind closes
    omega
  | @element _ _ s _ _ _ _ comma _ ih others =>
    have short := length_skipSpace_le s
    have comma := behind comma
    omega
  | @lastMember _ _ _ k _ _ key _ closes ih =>
    have short := length_skipSpace_le k
    have key := key.length_lt
    have closes := behind closes
    omega
  | @member _ _ _ _ k _ _ _ key _ comma _ ih others =>
    have short := length_skipSpace_le k
    have key := key.length_lt
    have comma := behind comma
    omega

def closing (bracket : Char) : Char := if bracket = '[' then ']' else '\x7d'

def Item (bracket : Char) (s r : List Char) : Prop :=
  if bracket = '[' then ∃ t, Reads (.value t) (skipSpace s) r
  else ∃ key k t, KeyAt s key k ∧ Reads (.value t) (skipSpace k) r

def Items (bracket : Char) (s r : List Char) : Prop :=
  if bracket = '[' then ∃ ts, Reads (.elements ts) s r else ∃ ms, Reads (.members ms) s r

theorem items_iff {bracket : Char} {s r : List Char} : Items bracket s r ↔ ∃ u, Item bracket s u ∧
    (skipSpace u = closing bracket :: r ∨ ∃ v, skipSpace u = ',' :: v ∧ Items bracket v r) := by
  by_cases list : bracket = '['
  · subst list
    have shut : closing '[' = ']' := rfl
    simp only [Items, Item, if_true, shut]
    constructor
    · rintro ⟨ts, reads⟩
      cases reads with
      | lastElement first closes => exact ⟨_, ⟨_, first⟩, .inl closes⟩
      | element first comma others => exact ⟨_, ⟨_, first⟩, .inr ⟨_, comma, _, others⟩⟩
    · rintro ⟨u, ⟨t, first⟩, closes | ⟨v, comma, ts, others⟩⟩
      · exact ⟨_, .lastElement first closes⟩
      · exact ⟨_, .element first comma others⟩
  · have shut : closing bracket = '\x7d' := by simp [closing, list]
    simp only [Items, Item, if_neg list, shut]
    constructor
    · rintro ⟨ms, reads⟩
      cases reads with
      | lastMember key first closes => exact ⟨_, ⟨_, _, _, key, first⟩, .inl closes⟩
      | member key first comma others => exact ⟨_, ⟨_, _, _, key, first⟩, .inr ⟨_, comma, _, others⟩⟩
    · rintro ⟨u, ⟨key, k, t, known, first⟩, closes | ⟨v, comma, ts, others⟩⟩
      · exact ⟨_, .lastMember known first closes⟩
      · exact ⟨_, .member known first comma others⟩

/-- What must follow a value for the brackets that are open to be closed. -/
inductive Closes : List Char → List Char → List Char → Prop
  | done {r : List Char} : Closes [] r r
  | shut {bracket : Char} {outer u v r : List Char} : skipSpace u = closing bracket :: v → Closes outer v r →
    Closes (bracket :: outer) u r
  | more {bracket : Char} {outer u v w r : List Char} : skipSpace u = ',' :: v → Items bracket v w →
    Closes outer w r → Closes (bracket :: outer) u r

theorem closes_cons_iff {bracket : Char} {outer u r : List Char} : Closes (bracket :: outer) u r ↔
    (∃ v, skipSpace u = closing bracket :: v ∧ Closes outer v r) ∨
      ∃ v, skipSpace u = ',' :: v ∧ ∃ w, Items bracket v w ∧ Closes outer w r := by
  constructor
  · rintro (_ | ⟨closes, outer⟩ | ⟨comma, items, outer⟩)
    · exact .inl ⟨_, closes, outer⟩
    · exact .inr ⟨_, comma, _, items, outer⟩
  · rintro (⟨v, closes, outer⟩ | ⟨v, comma, w, items, outer⟩)
    · exact .shut closes outer
    · exact .more comma items outer

theorem items_closes_iff {bracket : Char} {outer v r : List Char} : (∃ w, Items bracket v w ∧ Closes outer w r) ↔
    ∃ u, Item bracket v u ∧ Closes (bracket :: outer) u r := by
  constructor
  · rintro ⟨w, items, closes⟩
    obtain ⟨u, first, shut | ⟨v, comma, others⟩⟩ := items_iff.1 items
    · exact ⟨u, first, .shut shut closes⟩
    · exact ⟨u, first, .more comma others closes⟩
  · rintro ⟨u, first, closes⟩
    rcases closes_cons_iff.1 closes with ⟨w, shut, closes⟩ | ⟨v, comma, w, others, closes⟩
    · exact ⟨w, items_iff.2 ⟨u, first, .inl shut⟩, closes⟩
    · exact ⟨w, items_iff.2 ⟨u, first, .inr ⟨v, comma, others⟩⟩, closes⟩

def GoesOn (brackets v r : List Char) : Prop :=
  match brackets with
  | [] => v = r
  | bracket :: outer => ∃ u, Item bracket v u ∧ Closes (bracket :: outer) u r

section

variable {bracket c : Char} {outer u t : List Char}

theorem comma_ne_closing (bracket : Char) : ',' ≠ closing bracket := by
  unfold closing
  split <;> decide

theorem closeOpen_shut (shut : skipSpace u = closing bracket :: t) (afterValue : Bool) :
    closeOpen (bracket :: outer) afterValue u = closeOpen outer true t := by
  have other := (comma_ne_closing bracket).symm
  unfold closing at shut other
  simp [closeOpen, shut, other]

theorem closeOpen_comma (comma : skipSpace u = ',' :: t) :
    closeOpen (bracket :: outer) true u = .ok (bracket :: outer, t) := by
  simp [closeOpen, comma]

theorem closeOpen_item (starts : skipSpace u = c :: t) (other : c ≠ closing bracket) :
    closeOpen (bracket :: outer) false u = .ok (bracket :: outer, c :: t) := by
  unfold closing at other
  simp [closeOpen, starts, other]

theorem closeOpen_cases {open_ v : List Char} (read : closeOpen (bracket :: outer) true u = .ok (open_, v)) :
    (∃ t, skipSpace u = closing bracket :: t ∧ closeOpen outer true t = .ok (open_, v)) ∨
      skipSpace u = ',' :: v ∧ open_ = bracket :: outer := by
  rcases left : skipSpace u with _ | ⟨c, t⟩
  · simp [closeOpen, left] at read
  · by_cases comma : c = ','
    · rw [comma] at left ⊢
      rw [closeOpen_comma left] at read
      cases read
      exact .inr ⟨rfl, rfl⟩
    · by_cases shut : c = closing bracket
      · rw [shut] at left ⊢
        rw [closeOpen_shut left] at read
        exact .inl ⟨t, rfl, read⟩
      · unfold closing at shut
        simp [closeOpen, left, comma, shut] at read

end

theorem closes_iff_closeOpen {brackets u r : List Char} : Closes brackets u r ↔
    ∃ open_ v, closeOpen brackets true u = .ok (open_, v) ∧ GoesOn open_ v r := by
  induction brackets generalizing u with
  | nil =>
    have nothing : closeOpen [] true u = .ok ([], u) := by rw [closeOpen]
    rw [nothing]
    constructor
    · rintro ⟨⟩
      exact ⟨_, _, rfl, rfl⟩
    · rintro ⟨_, _, ⟨⟩, rfl⟩
      exact .done
  | cons bracket outer ih =>
    rw [closes_cons_iff]
    constructor
    · rintro (⟨v, shut, closes⟩ | ⟨v, comma, onward⟩)
      · rw [closeOpen_shut shut]
        exact ih.1 closes
      · exact ⟨_, _, closeOpen_comma comma, items_closes_iff.1 onward⟩
    · rintro ⟨open_, v, read, onward⟩
      rcases closeOpen_cases read with ⟨t, shut, read⟩ | ⟨comma, rfl⟩
      · exact .inl ⟨t, shut, ih.2 ⟨open_, v, read, onward⟩⟩
      · exact .inr ⟨v, comma, items_closes_iff.2 onward⟩

theorem length_closeOpen_le {brackets u open_ v : List Char} (read : closeOpen brackets true u = .ok (open_, v)) :
    v.length ≤ u.length ∧ open_ <:+ brackets := by
  induction brackets generalizing u with
  | nil =>
    cases (show Except.ok ([], u) = Except.ok (open_, v) by rw [← read, closeOpen])
    exact ⟨Nat.le_refl _, List.suffix_refl _⟩
  | cons bracket outer ih =>
    have short := length_skipSpace_le u
    rcases closeOpen_cases read with ⟨t, shut, read⟩ | ⟨comma, rfl⟩
    · obtain ⟨less, part⟩ := ih read
      rw [shut, List.length_cons] at short
      exact ⟨by omega, part.trans (List.suffix_cons _ _)⟩
    · rw [comma, List.length_cons] at short
      exact ⟨by omega, List.suffix_refl _⟩

theorem skipKey_eq_ok_iff {s k : List Char} : skipKey s = .ok k ↔ ∃ key, KeyAt s key k := by
  constructor
  · intro read
    unfold skipKey at read
    split at read
    · next inside opens =>
      obtain ⟨behind, string, read⟩ := bind_eq_ok_iff.1 read
      obtain ⟨pieces, quoted⟩ := skipString_eq_ok_iff.1 string
      split at read
      · next colon =>
        cases read
        exact ⟨_, inside, behind, pieces, opens, quoted, colon, rfl⟩
      · cases read
      · cases read
    · cases read
    · cases read
  · rintro ⟨key, inside, behind, pieces, opens, quoted, colon, rfl⟩
    have string := skipString_eq_ok_iff.2 ⟨pieces, quoted⟩
    simp only [skipKey, opens, string, bind, Except.bind, colon]
    rfl

theorem digits_suffix {s r : List Char} (digits : Digits s r) : r <:+ s := by
  obtain ⟨row, rfl, -⟩ := digits
  exact List.suffix_append _ _

theorem unsigned_suffix {s r : List Char} (unsigned : Unsigned s r) : r <:+ s := by
  obtain ⟨f, e, whole, fraction, exponent⟩ := unsigned
  have first : f <:+ s := by
    obtain ⟨n, rfl, -⟩ := whole_iff.1 whole
    exact List.suffix_append _ _
  have second : e <:+ f := by
    cases fraction with
    | none => exact List.suffix_refl _
    | some digits => exact (digits_suffix digits).trans (List.suffix_cons _ _)
  have third : r <:+ e := by
    cases exponent with
    | none => exact List.suffix_refl _
    | plain _ digits => exact (digits_suffix digits).trans (List.suffix_cons _ _)
    | signed _ _ digits =>
      exact ((digits_suffix digits).trans (List.suffix_cons _ _)).trans (List.suffix_cons _ _)
  exact (third.trans second).trans first

theorem reads_number_iff {s r : List Char} : (∃ w, s = w ++ r ∧ Reads (.value (.number w)) s r) ↔ Numeral s r := by
  constructor
  · rintro ⟨w, rfl, reads⟩
    generalize is : w ++ r = s at reads
    cases reads with
    | number numeral => exact numeral
  · intro numeral
    have last : r <:+ s := by
      cases numeral with
      | positive unsigned => exact unsigned_suffix unsigned
      | negative unsigned => exact (unsigned_suffix unsigned).trans (List.suffix_cons _ _)
    obtain ⟨w, rfl⟩ := last
    exact ⟨w, rfl, .number numeral⟩

theorem digit_of_unsigned {c : Char} {s r : List Char} (unsigned : Unsigned (c :: s) r) : isDigit c = true := by
  obtain ⟨f, e, whole, -⟩ := unsigned
  cases digit : isDigit c with
  | false => exact absurd whole (not_whole_of_not_digit digit)
  | true => rfl

theorem head_of_numeral {c : Char} {s r : List Char} (numeral : Numeral (c :: s) r) : c = '-' ∨ isDigit c = true := by
  cases numeral with
  | negative => exact .inl rfl
  | positive unsigned => exact .inr (digit_of_unsigned unsigned)

theorem not_numeral {c : Char} {w s r : List Char} (minus : c ≠ '-') (digit : isDigit c = false)
    (written : c :: s = w ++ r) : ¬ Numeral (w ++ r) r := by
  intro numeral
  rw [← written] at numeral
  rcases head_of_numeral numeral with is | is
  · exact minus is
  · rw [digit] at is
    cases is

theorem skipLeaf_eq_ok_iff {s : List Char} {read : Option Char × List Char} (list : s.head? ≠ some '[')
    (object : s.head? ≠ some '\x7b') :
    skipLeaf s = .ok read ↔ read.1 = none ∧ ∃ t, Reads (.value t) s read.2 := by
  constructor
  · intro leaf
    have numbers {s r : List Char} (numeral : Numeral s r) : ∃ t, Reads (.value t) s r := by
      obtain ⟨w, -, reads⟩ := reads_number_iff.2 numeral
      exact ⟨_, reads⟩
    unfold skipLeaf at leaf
    split at leaf
    · cases leaf
    · obtain ⟨r, rest, rfl⟩ := map_eq_ok_iff.1 leaf
      rw [word_eq_ok_iff.1 rest]
      exact ⟨rfl, _, .null⟩
    · obtain ⟨r, rest, rfl⟩ := map_eq_ok_iff.1 leaf
      rw [word_eq_ok_iff.1 rest]
      exact ⟨rfl, _, .isTrue⟩
    · obtain ⟨r, rest, rfl⟩ := map_eq_ok_iff.1 leaf
      rw [word_eq_ok_iff.1 rest]
      exact ⟨rfl, _, .isFalse⟩
    · obtain ⟨r, rest, rfl⟩ := map_eq_ok_iff.1 leaf
      exact ⟨rfl, numbers (.negative (skipNumber_eq_ok_iff.1 rest))⟩
    · obtain ⟨r, rest, rfl⟩ := map_eq_ok_iff.1 leaf
      obtain ⟨pieces, quoted⟩ := skipString_eq_ok_iff.1 rest
      exact ⟨rfl, _, .string quoted⟩
    · exact absurd rfl list
    · exact absurd rfl object
    · split at leaf
      · obtain ⟨r, rest, rfl⟩ := map_eq_ok_iff.1 leaf
        exact ⟨rfl, numbers (.positive (skipNumber_eq_ok_iff.1 rest))⟩
      · cases leaf
  · obtain ⟨opened, r⟩ := read
    rintro ⟨rfl, t, reads⟩
    dsimp only at reads
    cases reads with
    | null => rfl
    | isTrue => rfl
    | isFalse => rfl
    | @number w r numeral =>
      generalize w ++ r = s at *
      cases numeral with
      | negative unsigned => simp only [skipLeaf, skipNumber_eq_ok_iff.2 unsigned]; rfl
      | positive unsigned =>
        cases s with
        | nil => exact absurd (unsigned_length_lt unsigned) (Nat.not_lt_zero _)
        | cons c s =>
          have digit := digit_of_unsigned unsigned
          have other (d : Char) (no : isDigit d = false) : c ≠ d := by
            rintro rfl
            rw [digit] at no
            cases no
          have read := skipNumber_eq_ok_iff.2 unsigned
          simp [skipLeaf, other 'n' (by decide), other 't' (by decide), other 'f' (by decide), other '-' (by decide),
            other '\x22' (by decide), other '[' (by decide), other '\x7b' (by decide), digit, read, Except.map]
    | string quoted => simp only [skipLeaf, skipString_eq_ok_iff.2 ⟨_, quoted⟩]; rfl
    | emptyList => exact absurd rfl list
    | list => exact absurd rfl list
    | emptyObject => exact absurd rfl object
    | object => exact absurd rfl object

theorem skipSpace_skipSpace (s : List Char) : skipSpace (skipSpace s) = skipSpace s :=
  (stops_dropWhile isSpace s).span.2

theorem Item.congr {bracket : Char} {s t r : List Char} (item : Item bracket s r) (same : skipSpace s = skipSpace t) :
    Item bracket t r := by
  unfold Item KeyAt at item ⊢
  rwa [same] at item

theorem Item.starts {bracket : Char} {s r : List Char} (item : Item bracket s r) :
    ∃ c t, skipSpace s = c :: t ∧ c ≠ closing bracket := by
  unfold Item at item
  split at item
  · next list =>
    subst list
    obtain ⟨t, reads⟩ := item
    generalize skipSpace s = u at reads
    cases reads with
    | @number w r numeral =>
      rcases written : w ++ r with _ | ⟨c, u⟩
      · rw [written] at numeral
        exact absurd (numeral_length_lt numeral) (Nat.not_lt_zero _)
      · rw [written] at numeral
        refine ⟨c, u, rfl, ?_⟩
        rcases head_of_numeral numeral with rfl | digit
        · decide
        · rintro rfl
          cases digit
    | _ => exact ⟨_, _, rfl, by decide⟩
  · next object =>
    obtain ⟨key, k, t, ⟨inside, -, -, opens, -⟩, -⟩ := item
    refine ⟨_, _, opens, ?_⟩
    unfold closing
    rw [if_neg object]
    decide

theorem reads_bracket_iff {bracket : Char} (known : bracket = '[' ∨ bracket = '\x7b') {s r : List Char} :
    (∃ t, Reads (.value t) (bracket :: s) r) ↔ skipSpace s = closing bracket :: r ∨ Items bracket s r := by
  constructor
  · rintro ⟨t, reads⟩
    generalize written : bracket :: s = u at reads
    rcases known with rfl | rfl
    · cases reads with
      | emptyList closes => cases written; exact .inl closes
      | list items => cases written; exact .inr ⟨_, items⟩
      | number numeral => exact absurd numeral (not_numeral (by decide) (by decide) written)
      | _ => cases written
    · cases reads with
      | emptyObject closes => cases written; exact .inl closes
      | object items => cases written; exact .inr ⟨_, items⟩
      | number numeral => exact absurd numeral (not_numeral (by decide) (by decide) written)
      | _ => cases written
  · rcases known with rfl | rfl
    · rintro (closes | ⟨ts, items⟩)
      · exact ⟨_, .emptyList closes⟩
      · exact ⟨_, .list items⟩
    · rintro (closes | ⟨ms, items⟩)
      · exact ⟨_, .emptyObject closes⟩
      · exact ⟨_, .object items⟩

def skipOn (fuel : Nat) (brackets s : List Char) : Except Fault (List Char) :=
  match brackets with
  | [] => .ok s
  | '\x7b' :: _ => do skipWith fuel brackets (← skipKey s)
  | _ => skipWith fuel brackets s

theorem skipWith_succ (fuel : Nat) (brackets s : List Char) : skipWith (fuel + 1) brackets s = (do
    let (opened, r) ← skipLeaf (skipSpace s)
    let (open_, v) ← match opened with
      | some bracket => closeOpen (bracket :: brackets) false r
      | none => closeOpen brackets true r
    skipOn fuel open_ v) := by
  rw [skipWith]
  rfl

def Open (brackets : List Char) : Prop := ∀ b ∈ brackets, b = '[' ∨ b = '\x7b'

/-- With so much fuel, passing over reads a value and closes all brackets that are open. -/
def Passes (fuel : Nat) : Prop := ∀ {brackets s r : List Char}, s.length < fuel → Open brackets →
  (skipWith fuel brackets s = .ok r ↔ ∃ t u, Reads (.value t) (skipSpace s) u ∧ Closes brackets u r)

section

variable {fuel : Nat} {brackets u v r : List Char}

theorem skipOn_eq_ok_iff (passes : Passes fuel) (known : Open brackets) (enough : v.length < fuel) :
    skipOn fuel brackets v = .ok r ↔ GoesOn brackets v r := by
  cases brackets with
  | nil => simp [skipOn, GoesOn]
  | cons bracket outer =>
    rcases known bracket List.mem_cons_self with rfl | rfl
    · have is : skipOn fuel ('[' :: outer) v = skipWith fuel ('[' :: outer) v := rfl
      rw [is, passes enough known, exists_comm]
      simp only [GoesOn, Item, if_true, exists_and_right]
    · have is : skipOn fuel ('\x7b' :: outer) v = skipKey v >>= skipWith fuel ('\x7b' :: outer) := rfl
      have list : '\x7b' ≠ '[' := by decide
      simp only [is, bind_eq_ok_iff, skipKey_eq_ok_iff, GoesOn, Item, if_neg list]
      constructor
      · rintro ⟨k, ⟨key, at_⟩, read⟩
        obtain ⟨t, u, reads, closes⟩ := (passes (Nat.lt_trans at_.length_lt enough) known).1 read
        exact ⟨u, ⟨key, k, t, at_, reads⟩, closes⟩
      · rintro ⟨u, ⟨key, k, t, at_, reads⟩, closes⟩
        exact ⟨k, ⟨key, at_⟩, (passes (Nat.lt_trans at_.length_lt enough) known).2 ⟨t, u, reads, closes⟩⟩

theorem afterValue_eq_ok_iff (passes : Passes fuel) (known : Open brackets) (enough : u.length < fuel) :
    (closeOpen brackets true u >>= fun read => skipOn fuel read.1 read.2) = .ok r ↔ Closes brackets u r := by
  rw [closes_iff_closeOpen, bind_eq_ok_iff]
  constructor
  · rintro ⟨⟨open_, v⟩, read, more⟩
    obtain ⟨less, part⟩ := length_closeOpen_le read
    have still : Open open_ := fun b mem => known b (part.mem mem)
    exact ⟨open_, v, read, (skipOn_eq_ok_iff passes still (Nat.lt_of_le_of_lt less enough)).1 more⟩
  · rintro ⟨open_, v, read, more⟩
    obtain ⟨less, part⟩ := length_closeOpen_le read
    have still : Open open_ := fun b mem => known b (part.mem mem)
    exact ⟨(open_, v), read, (skipOn_eq_ok_iff passes still (Nat.lt_of_le_of_lt less enough)).2 more⟩

theorem afterOpening_eq_ok_iff (passes : Passes fuel) (known : Open brackets) {bracket : Char}
    (isOpen : bracket = '[' ∨ bracket = '\x7b') (enough : v.length < fuel) :
    (closeOpen (bracket :: brackets) false v >>= fun read => skipOn fuel read.1 read.2) = .ok r ↔
      ∃ t u, Reads (.value t) (bracket :: v) u ∧ Closes brackets u r := by
  have inside := length_skipSpace_le v
  have still : Open (bracket :: brackets) := List.forall_mem_cons.2 ⟨isOpen, known⟩
  have values : (∃ t u, Reads (.value t) (bracket :: v) u ∧ Closes brackets u r) ↔
      (∃ u, skipSpace v = closing bracket :: u ∧ Closes brackets u r) ∨
        ∃ u, Item bracket v u ∧ Closes (bracket :: brackets) u r := by
    rw [← items_closes_iff, ← exists_or, exists_comm]
    simp only [exists_and_right, reads_bracket_iff isOpen, or_and_right]
  rw [values]
  rcases first : skipSpace v with _ | ⟨c, t⟩
  · have nothing : closeOpen (bracket :: brackets) false v = .error (.here
        (if bracket == '[' then .endInList else .endInObject) []) := by simp [closeOpen, first]
    rw [nothing]
    refine iff_of_false nofun ?_
    rintro (⟨u, is, -⟩ | ⟨u, item, -⟩)
    · cases is
    · obtain ⟨c, t, starts, -⟩ := item.starts
      rw [first] at starts
      cases starts
  · rw [first, List.length_cons] at inside
    by_cases shut : c = closing bracket
    · rw [shut] at first ⊢
      rw [closeOpen_shut first, afterValue_eq_ok_iff passes known (by omega)]
      constructor
      · exact fun closes => .inl ⟨t, rfl, closes⟩
      · rintro (⟨u, is, closes⟩ | ⟨u, item, -⟩)
        · cases is
          exact closes
        · obtain ⟨c, t, starts, other⟩ := item.starts
          rw [first] at starts
          cases starts
          exact absurd rfl other
    · rw [closeOpen_item first shut]
      have same : skipSpace (c :: t) = skipSpace v := by rw [← first, skipSpace_skipSpace]
      refine (skipOn_eq_ok_iff passes still (by rw [List.length_cons]; omega)).trans ?_
      constructor
      · rintro ⟨u, item, closes⟩
        exact .inr ⟨u, item.congr same, closes⟩
      · rintro (⟨u, is, -⟩ | ⟨u, item, closes⟩)
        · cases is
          exact absurd rfl shut
        · exact ⟨u, item.congr same.symm, closes⟩

end

theorem passes (fuel : Nat) : Passes fuel := by
  -- by induction on the fuel, that is on the values that are opened or read
  induction fuel with
  | zero => exact fun enough => absurd enough (Nat.not_lt_zero _)
  | succ fuel ih =>
    intro brackets s r enough known
    have short := length_skipSpace_le s
    have opens {bracket : Char} (isOpen : bracket = '[' ∨ bracket = '\x7b')
        (first : (skipSpace s).head? = some bracket) : skipWith (fuel + 1) brackets s = .ok r ↔
          ∃ t u, Reads (.value t) (skipSpace s) u ∧ Closes brackets u r := by
      obtain ⟨v, starts⟩ := List.head?_eq_some_iff.1 first
      rw [starts, List.length_cons] at short
      rw [skipWith_succ, starts, ← afterOpening_eq_ok_iff ih known isOpen (by omega)]
      rcases isOpen with rfl | rfl <;> rfl
    by_cases list : (skipSpace s).head? = some '['
    · exact opens (.inl rfl) list
    · by_cases object : (skipSpace s).head? = some '\x7b'
      · exact opens (.inr rfl) object
      · rw [skipWith_succ]
        constructor
        · intro read
          obtain ⟨⟨opened, u⟩, leaf, read⟩ := bind_eq_ok_iff.1 read
          obtain ⟨rfl, t, reads⟩ := (skipLeaf_eq_ok_iff list object).1 leaf
          have fewer : u.length < (skipSpace s).length := reads.length_lt
          exact ⟨t, u, reads, (afterValue_eq_ok_iff ih known (by omega)).1 read⟩
        · rintro ⟨t, u, reads, closes⟩
          have fewer := reads.length_lt
          have leaf : skipLeaf (skipSpace s) = .ok (none, u) := (skipLeaf_eq_ok_iff list object).2 ⟨rfl, t, reads⟩
          rw [leaf]
          exact (afterValue_eq_ok_iff ih known (by omega)).2 closes

theorem skipValue_eq_ok_iff {s r : List Char} : skipValue s = .ok r ↔ ∃ t, Reads (.value t) (skipSpace s) r := by
  have none_ : Open [] := nofun
  rw [skipValue, passes _ (Nat.lt_succ_self _) none_]
  constructor
  · rintro ⟨t, u, reads, ⟨⟩⟩
    exact ⟨t, reads⟩
  · rintro ⟨t, reads⟩
    exact ⟨t, r, reads, .done⟩

end Herald.Json
