import Herald.Proofs.Text.Numeral

/-! Numbers with a sign, as a grammar. What the reader of a number accepts is this grammar within the word, and each
number has one text in plain form, which is the one that is written. -/
namespace Herald.Text

structure IsNatural (row : List Char) : Prop where
  some_ : row ≠ []
  digits : ∀ c ∈ row, '0' ≤ c ∧ c ≤ '9'

/-- A sign, if there is one, and digits stand for a number. -/
inductive Numbers : List Char → Int → Prop
  | bare {row : List Char} : IsNatural row → Numbers row (valueOf row)
  | plus {row : List Char} : IsNatural row → Numbers ('+' :: row) (valueOf row)
  | minus {row : List Char} : IsNatural row → Numbers ('-' :: row) (-(valueOf row : Int))

/-- A number without a sign or a zero that could be left out. -/
inductive IsPlain : List Char → Prop
  | zero : IsPlain ['0']
  | positive {row : List Char} : IsNatural row → row.head? ≠ some '0' → IsPlain row
  | negative {row : List Char} : IsNatural row → row.head? ≠ some '0' → IsPlain ('-' :: row)

variable {row s : List Char} {n : Nat} {z : Int}

theorem isDigit_iff : (∀ c ∈ row, isDigit c = true) ↔ ∀ c ∈ row, '0' ≤ c ∧ c ≤ '9' := by
  simp only [isDigit, Bool.and_eq_true, decide_eq_true_eq]

theorem natural?_eq_some_iff : natural? row = some n ↔ IsNatural row ∧ valueOf row = n := by
  have natural : (row ≠ [] ∧ row.all isDigit = true) ↔ IsNatural row := by
    rw [List.all_eq_true, isDigit_iff]
    exact ⟨fun h => ⟨h.1, h.2⟩, fun h => ⟨h.1, h.2⟩⟩
  unfold natural?
  split
  · next known => simp [natural.1 known]
  · next unknown => simp [mt natural.2 unknown]

theorem IsNatural.not_signed {rest : List Char} (natural : IsNatural row) :
    row ≠ '-' :: rest ∧ row ≠ '+' :: rest := by
  have low {c : Char} (first : row = c :: rest) : '0' ≤ c :=
    (natural.digits c (first ▸ List.mem_cons_self)).1
  exact ⟨fun minus => absurd (low minus) (by decide), fun plus => absurd (low plus) (by decide)⟩

theorem signed?_eq_some_iff : signed? 32 s = some z ↔ Numbers s z ∧ -0x80000000 ≤ z ∧ z < 0x80000000 := by
  have bound : ((Nat.pow 2 (32 - 1) : Nat) : Int) = 0x80000000 := rfl
  simp only [signed?, bound, Option.bind_eq_some_iff, Option.ite_none_right_eq_some, Option.some.injEq]
  constructor
  · rintro ⟨value, read, fits, rfl⟩
    refine ⟨?_, fits⟩
    split at read
    all_goals
      obtain ⟨_, found, rfl⟩ := Option.map_eq_some_iff.1 read
      obtain ⟨n, digits, ⟨⟩⟩ := Option.bind_eq_some_iff.1 found
      obtain ⟨natural, rfl⟩ := natural?_eq_some_iff.1 digits
    · exact .minus natural
    · exact .plus natural
    · exact .bare natural
  · rintro ⟨numbers, fits⟩
    refine ⟨z, ?_, fits, rfl⟩
    cases numbers with
    | bare natural =>
      split
      · exact absurd rfl natural.not_signed.1
      · exact absurd rfl natural.not_signed.2
      · rw [natural?_eq_some_iff.2 ⟨natural, rfl⟩]
        rfl
    | plus natural => simp [natural?_eq_some_iff.2 ⟨natural, rfl⟩]
    | minus natural => simp [natural?_eq_some_iff.2 ⟨natural, rfl⟩]

theorem isNatural_natDigits (n : Nat) : IsNatural (natDigits n) :=
  ⟨natDigits_ne_nil n, isDigit_iff.1 fun _ => isDigit_of_mem_natDigits⟩

theorem IsNatural.natDigits_valueOf (natural : IsNatural row) (lead : row.head? ≠ some '0') :
    natDigits (valueOf row) = row ∧ 0 < valueOf row :=
  Text.natDigits_valueOf (isDigit_iff.2 natural.digits) lead natural.some_

theorem numbers_intDigits (z : Int) : Numbers (intDigits z) z := by
  cases z with
  | ofNat n =>
    have numbers := Numbers.bare (isNatural_natDigits n)
    rwa [valueOf_natDigits] at numbers
  | negSucc n =>
    have numbers := Numbers.minus (isNatural_natDigits (n + 1))
    rwa [valueOf_natDigits] at numbers

theorem isPlain_intDigits (z : Int) : IsPlain (intDigits z) := by
  cases z with
  | ofNat n =>
    rcases Nat.eq_zero_or_pos n with rfl | positive
    · exact .zero
    · exact .positive (isNatural_natDigits n) (head?_natDigits positive)
  | negSucc n => exact .negative (isNatural_natDigits (n + 1)) (head?_natDigits n.succ_pos)

theorem Numbers.eq_intDigits (numbers : Numbers s z) (plain : IsPlain s) : s = intDigits z := by
  cases plain with
  | zero =>
    cases numbers
    rfl
  | positive natural lead =>
    cases numbers with
    | bare => exact (natural.natDigits_valueOf lead).1.symm
    | plus => exact absurd rfl natural.not_signed.2
    | minus => exact absurd rfl natural.not_signed.1
  | @negative row natural lead =>
    cases numbers with
    | bare signed => exact absurd rfl signed.not_signed.1
    | minus =>
      obtain ⟨digits, positive⟩ := natural.natDigits_valueOf lead
      obtain ⟨n, value⟩ := Nat.exists_eq_add_one.2 positive
      rw [value] at digits ⊢
      exact congrArg ('-' :: ·) digits.symm

theorem Numbers.unique {y : Int} (numbers : Numbers s z) (others : Numbers s y) : z = y := by
  cases numbers with
  | bare natural =>
    cases others with
    | bare => rfl
    | plus => exact absurd rfl natural.not_signed.2
    | minus => exact absurd rfl natural.not_signed.1
  | plus =>
    cases others with
    | bare natural => exact absurd rfl natural.not_signed.2
    | plus => rfl
  | minus =>
    cases others with
    | bare natural => exact absurd rfl natural.not_signed.1
    | minus => rfl

end Herald.Text
