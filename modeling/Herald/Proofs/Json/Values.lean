import Herald.Proofs.Json.Accepted
import Mathlib.Data.List.Forall2

/-! What the readers of plain values make of them: whole numbers below a bound, truth values, lists, and objects whose
keys are not known beforehand. A list or an object means something if each of its parts does, in the same order. -/
namespace Herald.Json

open Herald.Text

variable {α : Type} {reader : Reader α} {means : Tree → α → Prop} {s r : List Char}

/-! ### Whole numbers and truth values -/

def IsBelow (bound : Nat) (t : Tree) (n : Nat) : Prop := t = .number (natDigits n) ∧ n < bound

theorem numberTail_of_bare {m : Significand} (room : m.full = false) (bare : Bare r) :
    numberTail m true r = .ok (.natural m.value, r) := by
  obtain ⟨point, small, large⟩ := bare
  unfold numberTail
  split
  · exact absurd rfl point
  · exact absurd rfl small
  · exact absurd rfl large
  · simp [room]

theorem number_natDigits {n : Nat} (fits : n < 0x10000000000000000) (stops : Stops isDigit r) (bare : Bare r) :
    number true (natDigits n ++ r) = .ok (.natural n, r) := by
  refine number_eq_ok_iff.2 ⟨n, r, rfl, stops, ?_⟩
  rw [(foldl_addWhole_natDigits n).1 fits]
  exact numberTail_of_bare rfl bare

theorem natural_eq_ok_iff {bound n : Nat} {expected : String} (word : bound ≤ 0x10000000000000000) :
    natural bound expected s = .ok (n, r) ↔
      skipSpace s = natDigits n ++ r ∧ Numeral (skipSpace s) r ∧ n < bound := by
  rw [natural, numberWith_eq_ok_iff]
  generalize skipSpace s = w
  constructor
  · rintro ⟨x, accepted, read⟩
    obtain ⟨rfl, fits⟩ : x = .natural n ∧ n < bound := by
      cases x with
      | natural value =>
        dsimp only at accepted
        split at accepted
        · next fits =>
          cases accepted
          exact ⟨rfl, fits⟩
        · cases accepted
      | _ => cases accepted
    rcases read with ⟨t, rfl, read⟩ | ⟨c, t, rfl, digit, read⟩
    · obtain ⟨-, -, -, ⟨other, -⟩ | ⟨-, below, -⟩⟩ := number_integer_iff.1 ⟨_, read, rfl⟩
      · cases other
      · omega
    · obtain ⟨written, stops, bare, -⟩ := number_integer_iff.1 ⟨_, read, rfl⟩
      rw [written]
      exact ⟨rfl, .positive (unsigned_natDigits_iff.2 ⟨stops, bare⟩), fits⟩
  · rintro ⟨rfl, numeral, fits⟩
    obtain ⟨c, t, opens, digit, stops, bare⟩ := exists_of_numeral_natDigits numeral
    have read := number_natDigits (Nat.lt_of_lt_of_le fits word) stops bare
    refine ⟨.natural n, if_pos fits, .inr ⟨c, t ++ r, by rw [opens]; rfl, digit, ?_⟩⟩
    rw [opens] at read
    exact read

theorem accepts_natural {bound : Nat} (word : bound ≤ 0x10000000000000000) (expected : String) :
    Accepts (natural bound expected) (IsBelow bound) := by
  intro s n r
  rw [natural_eq_ok_iff word]
  constructor
  · rintro ⟨written, numeral, fits⟩
    rw [written] at numeral ⊢
    exact ⟨_, .number numeral, rfl, fits⟩
  · rintro ⟨t, reads, rfl, fits⟩
    generalize skipSpace s = u at reads ⊢
    cases reads with
    | number numeral => exact ⟨rfl, numeral, fits⟩

theorem accepts_boolean : Accepts boolean fun t b => t = .boolean b := by
  intro s b r
  unfold boolean
  generalize skipSpace s = u
  constructor
  · intro read
    split at read
    · cases read
    · obtain ⟨_, rest, is⟩ := map_eq_ok_iff.1 read
      cases is
      rw [word_eq_ok_iff.1 rest]
      exact ⟨_, .isTrue, rfl⟩
    · obtain ⟨_, rest, is⟩ := map_eq_ok_iff.1 read
      cases is
      rw [word_eq_ok_iff.1 rest]
      exact ⟨_, .isFalse, rfl⟩
    · cases read
  · rintro ⟨t, reads, rfl⟩
    cases reads with
    | isTrue => rfl
    | isFalse => rfl

/-! ### Lists -/

theorem elementsWith_nil_iff {fuel : Nat} {isFirst : Bool} :
    elementsWith reader (fuel + 1) isFirst s = .ok ([], r) ↔ nextElement isFirst s = .ok (false, r) := by
  rw [elementsWith, bind_eq_ok_iff]
  constructor
  · rintro ⟨⟨more, u⟩, found, read⟩
    cases more with
    | true =>
      obtain ⟨_, -, read⟩ := bind_eq_ok_iff.1 read
      obtain ⟨_, -, made⟩ := bind_eq_ok_iff.1 read
      cases made
    | false =>
      cases read
      exact found
  · intro found
    exact ⟨_, found, rfl⟩

theorem elementsWith_cons_iff {fuel : Nat} {isFirst : Bool} {x : α} {xs : List α} :
    elementsWith reader (fuel + 1) isFirst s = .ok (x :: xs, r) ↔ ∃ u v, nextElement isFirst s = .ok (true, u) ∧
      reader u = .ok (x, v) ∧ elementsWith reader fuel false v = .ok (xs, r) := by
  rw [elementsWith, bind_eq_ok_iff]
  constructor
  · rintro ⟨⟨more, u⟩, found, read⟩
    cases more with
    | true =>
      obtain ⟨⟨y, v⟩, value, read⟩ := bind_eq_ok_iff.1 read
      obtain ⟨⟨ys, w⟩, rest, made⟩ := bind_eq_ok_iff.1 read
      cases made
      exact ⟨u, v, found, value, rest⟩
    | false => cases read
  · rintro ⟨u, v, found, value, rest⟩
    refine ⟨(true, u), found, ?_⟩
    simp only [if_true, bind, Except.bind, value, rest]
    rfl

theorem length_lt_of_nextElement {isFirst : Bool} {u v : List Char} {t : Tree}
    (found : nextElement isFirst s = .ok (true, u)) (reads : Reads (.value t) (skipSpace u) v) :
    v.length < s.length := by
  rcases nextElement_cases found with ⟨is, -⟩ | ⟨-, w, enters, rfl⟩
  · cases is
  · have first := enters.length_le
    have second := length_skipSpace_le w
    have third := length_skipSpace_le (skipSpace w)
    have fourth := reads.length_lt
    omega

theorem elementsWith_eq_ok_iff (accepts : Accepts reader means) {fuel : Nat} (enough : s.length < fuel)
    (isFirst : Bool) (xs : List α) :
    (∃ u, elementsWith reader fuel isFirst s = .ok (xs, u) ∧ closeList u = (none, r)) ↔
      ∃ ts, ElementsAt isFirst ts s r ∧ List.Forall₂ means ts xs := by
  -- by induction on the fuel, that is on the elements
  have bracket (r : List Char) : skipSpace (']' :: r) = ']' :: r := skipSpace_of_head (by decide)
  induction fuel generalizing isFirst s xs with
  | zero => cases enough
  | succ fuel ih =>
    cases xs with
    | nil =>
      simp only [elementsWith_nil_iff, List.forall₂_nil_right_iff, exists_eq_right, elementsAt_nil_iff, closeList_eq_iff]
      constructor
      · rintro ⟨u, found, closes⟩
        rcases nextElement_cases found with ⟨-, r', closing, rfl⟩ | ⟨is, -⟩
        · rwa [← closes, bracket]
        · cases is
      · intro closing
        exact ⟨_, nextElement_of_closing isFirst closing, bracket r⟩
    | cons x xs =>
      simp only [elementsWith_cons_iff, List.forall₂_cons_right_iff]
      constructor
      · rintro ⟨u, ⟨v, w, found, value, rest⟩, closes⟩
        obtain ⟨t, value, known⟩ := (accepts v x w).1 value
        have shorter := length_lt_of_nextElement found value
        obtain ⟨ts, elements, all⟩ := (ih (by omega) false xs).1 ⟨u, rest, closes⟩
        exact ⟨t :: ts, elementsAt_cons_iff.2 ⟨v, w, found, value, elements⟩, t, ts, known, all, rfl⟩
      · rintro ⟨_, elements, t, ts, known, all, rfl⟩
        obtain ⟨v, w, found, value, elements⟩ := elementsAt_cons_iff.1 elements
        have shorter := length_lt_of_nextElement found value
        obtain ⟨u, rest, closes⟩ := (ih (by omega) false xs).2 ⟨ts, elements, all⟩
        exact ⟨u, ⟨v, w, found, (accepts v x w).2 ⟨t, value, known⟩, rest⟩, closes⟩

theorem accepts_list (accepts : Accepts reader means) :
    Accepts (list reader) fun t xs => ∃ ts, t = .list ts ∧ List.Forall₂ means ts xs := by
  intro s xs r
  have there : (∃ t, Reads (.value t) (skipSpace s) r ∧ ∃ ts, t = .list ts ∧ List.Forall₂ means ts xs) ↔
      ∃ i, skipSpace s = '[' :: i ∧ ∃ ts, ElementsAt true ts i r ∧ List.Forall₂ means ts xs := by
    constructor
    · rintro ⟨_, reads, ts, rfl, all⟩
      obtain ⟨i, opens, elements⟩ := reads_list_iff.1 reads
      exact ⟨i, opens, ts, elements, all⟩
    · rintro ⟨i, opens, ts, elements, all⟩
      exact ⟨_, reads_list_iff.2 ⟨i, opens, elements⟩, ts, rfl, all⟩
  rw [there]
  unfold list
  split
  · next nothing => simp [nothing]
  · next i opens =>
    have elements := @elementsWith_eq_ok_iff _ _ _ i r accepts _ (Nat.lt_succ_self _) true xs
    simp [opens, closed_eq_ok_iff, elements]
  · next u nothing other =>
    refine iff_of_false nofun ?_
    rintro ⟨i, opens, -⟩
    exact other i opens

/-! ### Objects with any keys -/

def IsMember (means : Tree → α → Prop) (m : Option (List Char) × Tree) (x : String × α) : Prop :=
  m.1 = some x.1.toList ∧ means m.2 x.2

theorem membersWith_nil_iff {fuel : Nat} {isFirst : Bool} :
    membersWith reader (fuel + 1) isFirst s = .ok ([], r) ↔ nextKey isFirst s = .ok (none, r) := by
  rw [membersWith, bind_eq_ok_iff]
  constructor
  · rintro ⟨⟨_ | key, u⟩, found, read⟩
    · cases read
      exact found
    · obtain ⟨_, -, read⟩ := bind_eq_ok_iff.1 read
      obtain ⟨_, -, read⟩ := bind_eq_ok_iff.1 read
      obtain ⟨_, -, made⟩ := bind_eq_ok_iff.1 read
      cases made
  · intro found
    exact ⟨_, found, rfl⟩

theorem membersWith_cons_iff {fuel : Nat} {isFirst : Bool} {x : String × α} {xs : List (String × α)} :
    membersWith reader (fuel + 1) isFirst s = .ok (x :: xs, r) ↔ ∃ behind k v,
      nextKey isFirst s = .ok (some x.1.toList, behind) ∧ colon behind = .ok k ∧ reader k = .ok (x.2, v) ∧
        membersWith reader fuel false v = .ok (xs, r) := by
  rw [membersWith, bind_eq_ok_iff]
  constructor
  · rintro ⟨⟨_ | key, behind⟩, found, read⟩
    · cases read
    · obtain ⟨k, colon, read⟩ := bind_eq_ok_iff.1 read
      obtain ⟨⟨y, v⟩, value, read⟩ := bind_eq_ok_iff.1 read
      obtain ⟨⟨ys, w⟩, rest, made⟩ := bind_eq_ok_iff.1 read
      cases made
      rw [String.toList_ofList]
      exact ⟨behind, k, v, found, colon, value, rest⟩
  · rintro ⟨behind, k, v, found, colon, value, rest⟩
    refine ⟨_, found, ?_⟩
    simp only [bind, Except.bind, colon, value, rest, String.ofList_toList]
    rfl

theorem membersWith_eq_ok_iff (accepts : Accepts reader means) {fuel : Nat} (enough : s.length < fuel)
    (isFirst : Bool) (xs : List (String × α)) :
    (∃ u, membersWith reader fuel isFirst s = .ok (xs, u) ∧ closeObject u = (none, r)) ↔
      ∃ ms, MembersAt isFirst ms s r ∧ List.Forall₂ (IsMember means) ms xs := by
  -- by induction on the fuel, that is on the members
  induction fuel generalizing isFirst s xs with
  | zero => cases enough
  | succ fuel ih =>
    cases xs with
    | nil =>
      simp only [membersWith_nil_iff, List.forall₂_nil_right_iff, exists_eq_right, membersAt_nil_iff, closeObject_eq_iff]
      constructor
      · rintro ⟨u, found, closes⟩
        rcases nextKey_cases found with ⟨-, r', closing, rfl⟩ | ⟨_, _, _, _, _, _, is⟩
        · rwa [← closes, skipSpace_brace]
        · cases is
      · intro closing
        exact ⟨_, nextKey_of_closing isFirst closing, skipSpace_brace r⟩
    | cons x xs =>
      simp only [membersWith_cons_iff, List.forall₂_cons_right_iff]
      constructor
      · rintro ⟨u, ⟨behind, k, v, found, colon, value, rest⟩, closes⟩
        obtain ⟨t, value, known⟩ := (accepts k x.2 v).1 value
        have shorter := length_lt_of_nextKey found colon value
        obtain ⟨ms, members, all⟩ := (ih (by omega) false xs).1 ⟨u, rest, closes⟩
        exact ⟨_, membersAt_cons_iff.2 ⟨behind, k, v, found, colon, value, members⟩, _, ms, ⟨rfl, known⟩, all, rfl⟩
      · rintro ⟨_, members, ⟨key, t⟩, ms, ⟨key_, known⟩, all, rfl⟩
        obtain rfl : key = some x.1.toList := key_
        obtain ⟨behind, k, v, found, colon, value, members⟩ := membersAt_cons_iff.1 members
        have shorter := length_lt_of_nextKey found colon value
        obtain ⟨u, rest, closes⟩ := (ih (by omega) false xs).2 ⟨ms, members, all⟩
        exact ⟨u, ⟨behind, k, v, found, colon, (accepts k x.2 v).2 ⟨t, value, known⟩, rest⟩, closes⟩

theorem accepts_members (accepts : Accepts reader means) :
    Accepts (members reader) fun t xs => ∃ ms, t = .object ms ∧ List.Forall₂ (IsMember means) ms xs := by
  intro s xs r
  have there : (∃ t, Reads (.value t) (skipSpace s) r ∧ ∃ ms, t = .object ms ∧
      List.Forall₂ (IsMember means) ms xs) ↔
      ∃ i, skipSpace s = '\x7b' :: i ∧ ∃ ms, MembersAt true ms i r ∧ List.Forall₂ (IsMember means) ms xs := by
    constructor
    · rintro ⟨_, reads, ms, rfl, all⟩
      obtain ⟨i, opens, members⟩ := reads_object_iff.1 reads
      exact ⟨i, opens, ms, members, all⟩
    · rintro ⟨i, opens, ms, members, all⟩
      exact ⟨_, reads_object_iff.2 ⟨i, opens, members⟩, ms, rfl, all⟩
  rw [there]
  unfold members
  split
  · next nothing => simp [nothing]
  · next i opens =>
    have inside := @membersWith_eq_ok_iff _ _ _ i r accepts _ (Nat.lt_succ_self _) true xs
    simp [opens, closed_eq_ok_iff, inside]
  · next u nothing other =>
    refine iff_of_false nofun ?_
    rintro ⟨i, opens, -⟩
    exact other i opens

end Herald.Json
