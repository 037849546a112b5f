import Herald.Text.Numeral
import Mathlib.Algebra.Group.Nat.Defs
import Mathlib.Data.List.Induction

/-! Numerals are read back to the number they were written for. What follows a numeral is no part of it as
long as it does not start with a digit. -/
namespace Herald.Text

theorem isDigit_eq (c : Char) : isDigit c = c.isDigit := by
  simp only [isDigit, Char.isDigit, Char.le_def, ge_iff_le]

theorem isDigit_of_mem_natDigits {n : Nat} {c : Char} (mem : c ∈ natDigits n) : isDigit c = true := by
  rw [isDigit_eq]
  exact Nat.isDigit_of_mem_toDigits (by decide) (by decide) mem

theorem valueOf_natDigits (n : Nat) : valueOf (natDigits n) = n := by
  have value : valueOf (natDigits n) = Nat.ofDigitChars 10 (Nat.toDigits 10 n) 0 := by
    simp only [valueOf, natDigits, Nat.ofDigitChars, digitValue]
    congr 1
    funext acc c
    rw [Nat.mul_comm]
    rfl
  rw [value, Nat.ofDigitChars_toDigits (by decide) (by decide)]

theorem natDigits_ne_nil (n : Nat) : natDigits n ≠ [] := Nat.toDigits_ne_nil

theorem head?_natDigits {n : Nat} (positive : 0 < n) : (natDigits n).head? ≠ some '0' := by
  induction n using Nat.strongRecOn with
  | _ n ih =>
    rw [natDigits, Nat.toDigits_eq_if (by decide)]
    split
    · next small =>
      have digits : ∀ d < 10, 0 < d → Nat.digitChar d ≠ '0' := by decide
      simpa using digits n small positive
    · next large =>
      have front : (Nat.toDigits 10 (n / 10)).head? ≠ some '0' := ih (n / 10) (by omega) (by omega)
      cases found : Nat.toDigits 10 (n / 10) with
      | nil => exact absurd found Nat.toDigits_ne_nil
      | cons c r => simpa [found] using front

theorem digitChar_digitValue {c : Char} (digit : isDigit c = true) :
    Nat.digitChar (digitValue c) = c ∧ digitValue c < 10 := by
  have low : 48 ≤ c.toNat ∧ c.toNat ≤ 57 := by
    simpa [isDigit, Char.le_def, UInt32.le_iff_toNat_le] using digit
  have chars : ∀ d < 10, (Nat.digitChar d).toNat = d + 48 := by decide
  have small : digitValue c < 10 := by unfold digitValue; omega
  refine ⟨Char.toNat_inj.1 ?_, small⟩
  rw [chars _ small]
  unfold digitValue
  omega

theorem natDigits_valueOf {row : List Char} (all : ∀ c ∈ row, isDigit c = true) (lead : row.head? ≠ some '0')
    (some_ : row ≠ []) : natDigits (valueOf row) = row ∧ 0 < valueOf row := by
  induction row using List.reverseRecOn with
  | nil => exact absurd rfl some_
  | append_singleton row c ih =>
    obtain ⟨char, small⟩ := digitChar_digitValue (all c (by simp))
    have value : valueOf (row ++ [c]) = 10 * valueOf row + digitValue c := by
      simp only [valueOf, List.foldl_append, List.foldl_cons, List.foldl_nil]
      omega
    rw [value]
    cases row with
    | nil =>
      have zero : c ≠ '0' := fun is => lead (by rw [is]; rfl)
      have positive : 0 < digitValue c := by
        refine Nat.pos_of_ne_zero fun none_ => zero ?_
        rw [← char, none_]
        rfl
      have base : valueOf [] = 0 := rfl
      rw [base, Nat.mul_zero, Nat.zero_add]
      exact ⟨by rw [natDigits, Nat.toDigits_of_lt_base small, char]; rfl, positive⟩
    | cons d row =>
      obtain ⟨digits, positive⟩ := ih (fun c mem => all c (List.mem_append_left _ mem)) (by simpa using lead) (by simp)
      refine ⟨?_, by omega⟩
      rw [natDigits, ← Nat.toDigits_append_toDigits (by decide) positive small, ← natDigits, digits,
        Nat.toDigits_of_lt_base small, char]

theorem isDigit_of_mem_padded {width n : Nat} {c : Char} (mem : c ∈ padded width n) :
    isDigit c = true := by
  rcases List.mem_append.1 mem with zero | digit
  · rw [List.eq_of_mem_replicate zero]
    rfl
  · exact isDigit_of_mem_natDigits digit

theorem valueOf_padded (width n : Nat) : valueOf (padded width n) = n := by
  have zeros (k : Nat) (digits : List Char) :
      valueOf (List.replicate k '0' ++ digits) = valueOf digits := by
    induction k with
    | zero => rfl
    | succ k ih => exact ih
  rw [padded, zeros, valueOf_natDigits]

theorem length_padded {width n : Nat} (positive : 0 < width) (fits : n < 10 ^ width) :
    (padded width n).length = width := by
  have short : (natDigits n).length ≤ width :=
    (Nat.length_toDigits_le_iff (by decide) positive).2 fits
  simp only [padded, List.length_append, List.length_replicate]
  omega

theorem padded_ne_nil (width n : Nat) : padded width n ≠ [] :=
  List.append_ne_nil_of_right_ne_nil _ (natDigits_ne_nil n)

end Herald.Text
