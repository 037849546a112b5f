import Herald.Proofs.Json.Passing

/-! What stands between brackets. A list or an object opens, and its parts follow up to the bracket that closes it: the
first one at once, each other one behind a comma. The readers of elements and keys step from part to part. -/
namespace Herald.Json

open Herald.Text

def Enters (isFirst : Bool) (s v : List Char) : Prop := if isFirst then v = s else skipSpace s = ',' :: v

def ElementsAt (isFirst : Bool) (ts : List Tree) (s r : List Char) : Prop :=
  ts = [] ∧ skipSpace s = ']' :: r ∨ ∃ v, Enters isFirst s v ∧ Reads (.elements ts) v r

def MembersAt (isFirst : Bool) (ms : List (Option (List Char) × Tree)) (s r : List Char) : Prop :=
  ms = [] ∧ skipSpace s = '\x7d' :: r ∨ ∃ v, Enters isFirst s v ∧ Reads (.members ms) v r

section

variable {t : Tree} {ts : List Tree} {ms : List (Option (List Char) × Tree)} {s r : List Char}

theorem reads_list_iff : Reads (.value (.list ts)) s r ↔ ∃ i, s = '[' :: i ∧ ElementsAt true ts i r := by
  constructor
  · intro reads
    cases reads with
    | emptyList closes => exact ⟨_, rfl, .inl ⟨rfl, closes⟩⟩
    | list items => exact ⟨_, rfl, .inr ⟨_, rfl, items⟩⟩
  · rintro ⟨i, rfl, ⟨rfl, closes⟩ | ⟨v, rfl, items⟩⟩
    · exact .emptyList closes
    · exact .list items

theorem reads_object_iff : Reads (.value (.object ms)) s r ↔ ∃ i, s = '\x7b' :: i ∧ MembersAt true ms i r := by
  constructor
  · intro reads
    cases reads with
    | emptyObject closes => exact ⟨_, rfl, .inl ⟨rfl, closes⟩⟩
    | object items => exact ⟨_, rfl, .inr ⟨_, rfl, items⟩⟩
  · rintro ⟨i, rfl, ⟨rfl, closes⟩ | ⟨v, rfl, items⟩⟩
    · exact .emptyObject closes
    · exact .object items

theorem reads_elements_iff : Reads (.elements ts) s r ↔ ∃ t more u, ts = t :: more ∧
    Reads (.value t) (skipSpace s) u ∧ ElementsAt false more u r := by
  constructor
  · intro reads
    cases reads with
    | lastElement first closes => exact ⟨_, _, _, rfl, first, .inl ⟨rfl, closes⟩⟩
    | element first comma others => exact ⟨_, _, _, rfl, first, .inr ⟨_, comma, others⟩⟩
  · rintro ⟨t, more, u, rfl, first, ⟨rfl, closes⟩ | ⟨v, comma, others⟩⟩
    · exact .lastElement first closes
    · exact .element first comma others

theorem reads_members_iff : Reads (.members ms) s r ↔ ∃ key t more k u, ms = (key, t) :: more ∧ KeyAt s key k ∧
    Reads (.value t) (skipSpace k) u ∧ MembersAt false more u r := by
  constructor
  · intro reads
    cases reads with
    | lastMember key first closes => exact ⟨_, _, _, _, _, rfl, key, first, .inl ⟨rfl, closes⟩⟩
    | member key first comma others => exact ⟨_, _, _, _, _, rfl, key, first, .inr ⟨_, comma, others⟩⟩
  · rintro ⟨key, t, more, k, u, rfl, known, first, ⟨rfl, closes⟩ | ⟨v, comma, others⟩⟩
    · exact .lastMember known first closes
    · exact .member known first comma others

theorem closeList_eq_iff : closeList s = (none, r) ↔ skipSpace s = ']' :: r := by
  unfold closeList
  split
  · simp_all
  · split <;> simp_all
  · simp_all
  · next other _ _ =>
    refine iff_of_false (by simp) fun closes => other r closes

theorem closeObject_eq_iff : closeObject s = (none, r) ↔ skipSpace s = '\x7d' :: r := by
  unfold closeObject
  split
  · simp_all
  · simp_all
  · simp_all
  · next other _ _ =>
    refine iff_of_false (by simp) fun closes => other r closes

theorem closed_eq_ok_iff {α : Type} {close : List Char → Option Fault × List Char}
    {read : Except Fault (α × List Char)} {x : α} :
    closed close read = .ok (x, r) ↔ ∃ u, read = .ok (x, u) ∧ close u = (none, r) := by
  unfold closed
  split
  · next y u =>
    split
    · next shut => simp [shut]
    · next fails => simp [fails]
  · simp

theorem nextElement_of_closing (isFirst : Bool) (closes : skipSpace s = ']' :: r) :
    nextElement isFirst s = .ok (false, ']' :: r) := by
  simp [nextElement, closes]

theorem nextElement_of_enters {isFirst : Bool} {c : Char} {v t : List Char} (enters : Enters isFirst s v)
    (starts : skipSpace v = c :: t) (other : c ≠ ']') : nextElement isFirst s = .ok (true, c :: t) := by
  cases isFirst with
  | true =>
    cases enters
    simp [nextElement, starts]
  | false =>
    have comma : skipSpace s = ',' :: v := enters
    simp [nextElement, comma, starts, other]

theorem nextElement_cases {isFirst more : Bool} {u : List Char} (read : nextElement isFirst s = .ok (more, u)) :
    (more = false ∧ ∃ r, skipSpace s = ']' :: r ∧ u = ']' :: r) ∨
      more = true ∧ ∃ v, Enters isFirst s v ∧ u = skipSpace v := by
  unfold nextElement at read
  split at read
  · cases read
  · next closes =>
    cases read
    exact .inl ⟨rfl, _, closes, rfl⟩
  · next c t _ starts =>
    split at read
    · next first =>
      cases read
      exact .inr ⟨rfl, s, by rw [first]; rfl, starts.symm⟩
    · next first =>
      split at read
      · next comma =>
        have enters : Enters isFirst s t := by
          rw [Enters, if_neg first, starts, eq_of_beq comma]
        split at read
        · cases read
        · cases read
        · cases read
          exact .inr ⟨rfl, _, enters, rfl⟩
      · cases read

theorem nextKey_of_closing (isFirst : Bool) (closes : skipSpace s = '\x7d' :: r) :
    nextKey isFirst s = .ok (none, '\x7d' :: r) := by
  simp [nextKey, closes]

theorem nextKey_of_enters {isFirst : Bool} {v inside : List Char} (enters : Enters isFirst s v)
    (opens : skipSpace v = '\x22' :: inside) :
    nextKey isFirst s = (string inside).map fun read => (some read.1, read.2) := by
  cases isFirst with
  | true =>
    cases enters
    simp [nextKey, opens]
  | false =>
    have comma : skipSpace s = ',' :: v := enters
    simp [nextKey, comma, opens]

theorem nextKey_cases {isFirst : Bool} {key : Option (List Char)} {u : List Char}
    (read : nextKey isFirst s = .ok (key, u)) : (key = none ∧ ∃ r, skipSpace s = '\x7d' :: r ∧ u = '\x7d' :: r) ∨
      ∃ v inside cs, Enters isFirst s v ∧ skipSpace v = '\x22' :: inside ∧ string inside = .ok (cs, u) ∧
        key = some cs := by
  unfold nextKey at read
  dsimp only at read
  split at read
  · cases read
  · next closes =>
    cases read
    exact .inl ⟨rfl, _, closes, rfl⟩
  · next c t _ starts =>
    split at read
    · next first =>
      split at read
      · next opens =>
        obtain ⟨⟨cs, u⟩, found, made⟩ := map_eq_ok_iff.1 read
        cases made
        exact .inr ⟨s, _, cs, by rw [first]; rfl, starts.trans opens, found, rfl⟩
      · cases read
      · cases read
      · cases read
    · next first =>
      split at read
      · next comma =>
        have enters : Enters isFirst s t := by
          rw [Enters, if_neg first, starts, eq_of_beq comma]
        split at read
        · next opens =>
          obtain ⟨⟨cs, u⟩, found, made⟩ := map_eq_ok_iff.1 read
          cases made
          exact .inr ⟨t, _, cs, enters, opens, found, rfl⟩
        · cases read
        · cases read
        · cases read
      · cases read

theorem colon_eq_ok_iff : colon s = .ok r ↔ skipSpace s = ':' :: r := by
  unfold colon
  split <;> simp_all

end

theorem keyAt_some_iff {s cs k : List Char} : KeyAt s (some cs) k ↔ ∃ inside behind, skipSpace s = '\x22' :: inside ∧
    string inside = .ok (cs, behind) ∧ colon behind = .ok k := by
  simp only [string_eq_ok_iff, colon_eq_ok_iff, KeyAt]
  constructor
  · rintro ⟨inside, behind, pieces, opens, quoted, colon, text⟩
    exact ⟨inside, behind, opens, ⟨pieces, quoted, text.symm⟩, colon⟩
  · rintro ⟨inside, behind, opens, ⟨pieces, quoted, text⟩, colon⟩
    exact ⟨inside, behind, pieces, opens, quoted, colon, text.symm⟩

theorem nextKey_colon_iff {isFirst : Bool} {s cs k : List Char} :
    (∃ behind, nextKey isFirst s = .ok (some cs, behind) ∧ colon behind = .ok k) ↔
      ∃ w, Enters isFirst s w ∧ KeyAt w (some cs) k := by
  simp only [keyAt_some_iff]
  constructor
  · rintro ⟨behind, found, colon⟩
    rcases nextKey_cases found with ⟨is, -⟩ | ⟨w, inside, _, enters, opens, string, is⟩
    · cases is
    · cases is
      exact ⟨w, enters, inside, behind, opens, string, colon⟩
  · rintro ⟨w, enters, inside, behind, opens, string, colon⟩
    exact ⟨behind, by rw [nextKey_of_enters enters opens, string]; rfl, colon⟩

theorem Enters.length_le {isFirst : Bool} {s v : List Char} (enters : Enters isFirst s v) : v.length ≤ s.length := by
  unfold Enters at enters
  split at enters
  · rw [enters]
  · have short := length_skipSpace_le s
    rw [enters, List.length_cons] at short
    omega

theorem elementsAt_nil_iff {isFirst : Bool} {s r : List Char} :
    ElementsAt isFirst [] s r ↔ skipSpace s = ']' :: r := by
  constructor
  · rintro (⟨-, closing⟩ | ⟨w, -, reads⟩)
    · exact closing
    · obtain ⟨_, _, _, is, -⟩ := reads_elements_iff.1 reads
      cases is
  · exact fun closing => .inl ⟨rfl, closing⟩

theorem membersAt_nil_iff {isFirst : Bool} {s r : List Char} :
    MembersAt isFirst [] s r ↔ skipSpace s = '\x7d' :: r := by
  constructor
  · rintro (⟨-, closing⟩ | ⟨w, -, reads⟩)
    · exact closing
    · obtain ⟨_, _, _, _, _, is, -⟩ := reads_members_iff.1 reads
      cases is
  · exact fun closing => .inl ⟨rfl, closing⟩

theorem elementsAt_cons_iff {isFirst : Bool} {s r : List Char} {t : Tree} {ts : List Tree} :
    ElementsAt isFirst (t :: ts) s r ↔ ∃ u v, nextElement isFirst s = .ok (true, u) ∧
      Reads (.value t) (skipSpace u) v ∧ ElementsAt false ts v r := by
  constructor
  · rintro (⟨is, -⟩ | ⟨w, enters, reads⟩)
    · cases is
    · obtain ⟨_, _, v, is, value, rest⟩ := reads_elements_iff.1 reads
      cases is
      have item : Item '[' w v := ⟨t, value⟩
      obtain ⟨c, tail, starts, other⟩ := item.starts
      have found := nextElement_of_enters enters starts other
      exact ⟨c :: tail, v, found, by rwa [← starts, skipSpace_skipSpace], rest⟩
  · rintro ⟨u, v, found, value, rest⟩
    rcases nextElement_cases found with ⟨is, -⟩ | ⟨-, w, enters, rfl⟩
    · cases is
    · rw [skipSpace_skipSpace] at value
      exact .inr ⟨w, enters, reads_elements_iff.2 ⟨t, ts, v, rfl, value, rest⟩⟩

theorem membersAt_cons_iff {isFirst : Bool} {s r cs : List Char} {t : Tree}
    {ms : List (Option (List Char) × Tree)} : MembersAt isFirst ((some cs, t) :: ms) s r ↔
    ∃ behind k v, nextKey isFirst s = .ok (some cs, behind) ∧ colon behind = .ok k ∧
      Reads (.value t) (skipSpace k) v ∧ MembersAt false ms v r := by
  constructor
  · rintro (⟨is, -⟩ | ⟨w, enters, reads⟩)
    · cases is
    · obtain ⟨_, _, _, k, v, is, key, value, rest⟩ := reads_members_iff.1 reads
      cases is
      obtain ⟨behind, found, colon⟩ := nextKey_colon_iff.2 ⟨w, enters, key⟩
      exact ⟨behind, k, v, found, colon, value, rest⟩
  · rintro ⟨behind, k, v, found, colon, value, rest⟩
    obtain ⟨w, enters, key⟩ := nextKey_colon_iff.1 ⟨behind, found, colon⟩
    exact .inr ⟨w, enters, reads_members_iff.2 ⟨_, t, ms, k, v, rfl, key, value, rest⟩⟩

theorem length_lt_of_nextKey {isFirst : Bool} {s cs behind k v : List Char} {t : Tree}
    (found : nextKey isFirst s = .ok (some cs, behind)) (colon : colon behind = .ok k)
    (reads : Reads (.value t) (skipSpace k) v) : v.length < s.length := by
  obtain ⟨w, enters, key⟩ := nextKey_colon_iff.1 ⟨behind, found, colon⟩
  have first := enters.length_le
  have second := key.length_lt
  have third := length_skipSpace_le k
  have fourth := reads.length_lt
  omega

end Herald.Json
