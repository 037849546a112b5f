import Herald.Owner
import Herald.Proofs.Text.Blank
import Herald.Proofs.Text.Signed

/-! References to owners. They are read exactly as their grammar says, and each owner has one reference in plain
form, which names it. -/
namespace Herald.Owner

open Herald.Text

/-- The word for users, a slash and a number of 32 bits. -/
inductive Refers : List Char → Int → Prop
  | of {id : List Char} {owner : Int} : Numbers id owner → -0x80000000 ≤ owner → owner < 0x80000000 →
    Refers (root ++ '/' :: id) owner

/-- Why a text is no reference: there are not the word and a single slash, or what follows is no such number. -/
inductive Blames (name : List Char) : OwnerFault → Prop
  | badId {id : List Char} : name = root ++ '/' :: id → '/' ∉ id → Blames name (.badId (String.ofList id))
  | badName : (∀ id, '/' ∉ id → name ≠ root ++ '/' :: id) → Blames name (.badName (String.ofList name))

variable {name id : List Char} {owner : Int}

theorem slash_not_mem_of_numbers (numbers : Numbers id owner) : '/' ∉ id := by
  have row {digits : List Char} (natural : IsNatural digits) : '/' ∉ digits :=
    fun mem => absurd (natural.digits _ mem).1 (by decide)
  cases numbers with
  | bare natural => exact row natural
  | plus natural => simpa using row natural
  | minus natural => simpa using row natural

theorem splitAt_root (one : '/' ∉ id) : splitAt '/' (root ++ '/' :: id) = [root, id] := by
  rw [splitAt_append, splitAt_of_not_mem one]
  rfl

theorem parseText_cases (name : List Char) :
    (∃ id, name = root ++ '/' :: id ∧ '/' ∉ id ∧
      parseText name = (signed? 32 id).elim (.error (.badId (String.ofList id))) .ok) ∨
    (∀ id, '/' ∉ id → name ≠ root ++ '/' :: id) ∧ parseText name = .error (.badName (String.ofList name)) := by
  by_cases known : ∃ id, '/' ∉ id ∧ name = root ++ '/' :: id
  · obtain ⟨id, one, rfl⟩ := known
    refine .inl ⟨id, rfl, one, ?_⟩
    simp only [parseText, splitAt_root one, if_true]
    cases signed? 32 id <;> rfl
  · refine .inr ⟨fun id one is => known ⟨id, one, is⟩, ?_⟩
    unfold parseText
    split
    · next first id pieces =>
      have one : '/' ∉ id := not_mem_of_mem_splitAt (s := name) (by simp [pieces])
      have name_ : first ++ '/' :: id = name := by
        rw [← joinWith_splitAt '/' name, pieces]
        rfl
      rw [if_neg]
      rintro rfl
      exact known ⟨id, one, name_.symm⟩
    · rfl

theorem parseText_eq_ok_iff : parseText name = .ok owner ↔ Refers name owner := by
  constructor
  · intro read
    rcases parseText_cases name with ⟨id, rfl, -, reads⟩ | ⟨-, bad⟩
    · rw [reads] at read
      cases value : signed? 32 id with
      | none => simp [value] at read
      | some n =>
        obtain rfl : n = owner := by simpa [value] using read
        obtain ⟨numbers, low, high⟩ := signed?_eq_some_iff.1 value
        exact .of numbers low high
    · simp [bad] at read
  · rintro ⟨numbers, low, high⟩
    next id =>
    simp only [parseText, splitAt_root (slash_not_mem_of_numbers numbers),
      signed?_eq_some_iff.2 ⟨numbers, low, high⟩, if_true]

theorem blames_of_not_refers (none_ : ∀ owner, ¬ Refers name owner) :
    ∃ fault, parseText name = .error fault ∧ Blames name fault := by
  rcases parseText_cases name with ⟨id, is, one, reads⟩ | ⟨other, bad⟩
  · cases value : signed? 32 id with
    | none => exact ⟨_, by simp [reads, value], .badId is one⟩
    | some n => exact absurd (parseText_eq_ok_iff.1 (by simp [reads, value])) (none_ n)
  · exact ⟨_, bad, .badName other⟩

def IsPlain (name : List Char) : Prop := ∃ id, name = root ++ '/' :: id ∧ Text.IsPlain id

theorem refers_text (low : -0x80000000 ≤ owner) (high : owner < 0x80000000) : Refers (text owner) owner :=
  .of (numbers_intDigits owner) low high

theorem refers_and_isPlain_iff (low : -0x80000000 ≤ owner) (high : owner < 0x80000000) :
    Refers name owner ∧ IsPlain name ↔ name = text owner := by
  constructor
  · rintro ⟨⟨numbers, -, -⟩, id, same, plain⟩
    next own =>
    obtain rfl : own = id := by simpa using same
    rw [text, numbers.eq_intDigits plain]
  · rintro rfl
    exact ⟨refers_text low high, _, rfl, isPlain_intDigits owner⟩

theorem ofList_text (owner : Int) : String.ofList (text owner) = "users/" ++ toString owner := by
  have lead : String.ofList root ++ "/" = "users/" := rfl
  have digits : String.ofList (intDigits owner) = toString owner := by
    cases owner with
    | ofNat n => rfl
    | negSucc n => exact @String.ofList_append ['-'] (natDigits (n + 1))
  rw [← lead, ← digits]
  exact String.toList_injective (by simp [text])

theorem parse_text (low : -0x80000000 ≤ owner) (high : owner < 0x80000000) :
    parse (String.ofList (text owner)) = .ok owner := by
  rw [parse, String.toList_ofList]
  exact parseText_eq_ok_iff.2 (refers_text low high)

end Herald.Owner
