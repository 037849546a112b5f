import Herald.Proofs.Text.Percent

/-! Text that is cut at a byte. What is left of a character that is cut counts as one malformed sequence, and
malformed sequences make a text longer, but no more than three times. -/
namespace Herald.Text.Utf8

variable {m : Memory} {b : UInt8} {bytes front back : List UInt8} {found : Option Char}

theorem first_ne_nil {n : Nat} (ends : (first n).2 = .between) : (first n).1 ≠ [] := by
  unfold first at ends ⊢
  repeat' split
  all_goals simp_all

theorem feed_ne_nil {n : Nat} (ends : (feed m n).2 = .between) : (feed m n).1 ≠ [] := by
  cases m with
  | between => exact first_ne_nil ends
  | inside missing low high bits =>
    unfold feed at ends ⊢
    repeat' split
    all_goals simp_all

theorem scan_cons (m : Memory) (b : UInt8) (r : List UInt8) :
    scan m (b :: r) = (feed m b.toNat).1 ++ scan (feed m b.toNat).2 r := by
  cases m <;> rfl

theorem scan_eq_nil (nothing : scan m bytes = []) : m = .between ∧ bytes = [] := by
  induction bytes generalizing m with
  | nil =>
    cases m with
    | between => exact ⟨rfl, rfl⟩
    | inside => cases nothing
  | cons b r ih =>
    rw [scan_cons, List.append_eq_nil_iff] at nothing
    exact absurd nothing.1 (feed_ne_nil (ih nothing.2).1)

theorem scan_of_cut (whole : scan m (front ++ back) = [found]) (cut : back ≠ [])
    (begun : m = .between → front ≠ []) : scan m front = [none] := by
  induction front generalizing m with
  | nil =>
    cases m with
    | between => exact absurd rfl (begun rfl)
    | inside => rfl
  | cons b front ih =>
    rw [List.cons_append, scan_cons] at whole
    have more : scan (feed m b.toNat).2 (front ++ back) ≠ [] :=
      fun nothing => cut (List.append_eq_nil_iff.1 (scan_eq_nil nothing).2).2
    have silent : (feed m b.toNat).1 = [] := by
      rcases List.append_eq_singleton_iff.1 whole with ⟨none_, -⟩ | ⟨-, none_⟩
      · exact none_
      · exact absurd none_ more
    rw [silent, List.nil_append] at whole
    rw [scan_cons, silent, List.nil_append]
    exact ih whole fun ends => absurd silent (feed_ne_nil ends)

theorem encode_cons (c : Char) (s : List Char) : encode (c :: s) = encodeChar c ++ encode s := rfl

theorem encode_append (s t : List Char) : encode (s ++ t) = encode s ++ encode t := List.flatMap_append

theorem decodeLossy_encode_append (s : List Char) (rest : List UInt8) :
    decodeLossy (encode s ++ rest) = s ++ decodeLossy rest := by
  induction s with
  | nil => rfl
  | cons c s ih =>
    rw [encode_cons, List.append_assoc, decodeLossy, scan_encodeChar, List.map_cons, ← decodeLossy, ih]
    rfl

theorem decodeLossy_take_encode (n : Nat) (s : List Char) : ∃ p q, s = p ++ q ∧
    ((decodeLossy ((encode s).take n) = p ∧ (encode p).length ≤ n ∧ (q = [] ∨ (encode p).length = n)) ∨
      ∃ c r, q = c :: r ∧ decodeLossy ((encode s).take n) = p ++ ['\uFFFD'] ∧ (encode p).length < n ∧
        n < (encode p).length + (encodeChar c).length) := by
  induction s generalizing n with
  | nil => exact ⟨[], [], rfl, .inl ⟨by simp [encode, decodeLossy, scan_nil], by simp [encode], .inl rfl⟩⟩
  | cons c s ih =>
    by_cases fits : (encodeChar c).length ≤ n
    · obtain ⟨p, q, rfl, read⟩ := ih (n - (encodeChar c).length)
      have taken : (encode (c :: (p ++ q))).take n =
          encode [c] ++ (encode (p ++ q)).take (n - (encodeChar c).length) := by
        simp [encode, List.take_append, List.take_of_length_le fits]
      have size : (encode (c :: p)).length = (encodeChar c).length + (encode p).length := by
        simp [encode_cons]
      refine ⟨c :: p, q, rfl, ?_⟩
      rw [taken, decodeLossy_encode_append]
      rcases read with ⟨whole, within, rest⟩ | ⟨d, r, rfl, part, below, above⟩
      · exact .inl ⟨by rw [whole]; rfl, by omega, rest.imp_right fun full => by omega⟩
      · refine .inr ⟨d, r, rfl, by rw [part]; rfl, ?_, ?_⟩
        · omega
        · omega
    · refine ⟨[], c :: s, rfl, ?_⟩
      have taken : (encode (c :: s)).take n = (encodeChar c).take n := by
        rw [encode_cons, List.take_append_of_le_length (by omega)]
      rcases Nat.eq_zero_or_pos n with rfl | some_
      · exact .inl ⟨rfl, Nat.le_refl _, .inr rfl⟩
      · refine .inr ⟨c, s, rfl, ?_, some_, by simp [encode]; omega⟩
        have front : (encodeChar c).take n ≠ [] := by
          rw [← List.length_pos_iff, List.length_take]
          omega
        have back : (encodeChar c).drop n ≠ [] := by
          rw [← List.length_pos_iff, List.length_drop]
          omega
        have whole : scan .between ((encodeChar c).take n ++ (encodeChar c).drop n) = [some c] := by
          rw [List.take_append_drop, ← List.append_nil (encodeChar c), scan_encodeChar, scan_nil]
        rw [taken, decodeLossy, scan_of_cut whole back fun _ => front]
        rfl

/-! ### Sizes -/

theorem length_encodeChar_le (c : Char) : (encodeChar c).length ≤ 4 := by
  simp only [encodeChar]
  repeat' split
  all_goals simp

theorem length_encodeChar_ascii : ∀ n < 0x80, (encodeChar (Char.ofNat n)).length = 1 := by decide

def sizeOf (told : List (Option Char)) : Nat := (encode (told.map fun c => c.getD '\uFFFD')).length

theorem sizeOf_append (a b : List (Option Char)) : sizeOf (a ++ b) = sizeOf a + sizeOf b := by
  simp [sizeOf, encode_append]

def Memory.owed : Memory → Nat
  | .between => 0
  | .inside .. => 3

theorem sizeOf_nil : sizeOf [] = 0 := rfl

theorem sizeOf_fault : sizeOf [none] = 3 := by decide

theorem sizeOf_character (c : Char) : sizeOf [some c] = (encodeChar c).length := by simp [sizeOf, encode]

theorem sizeOf_first_le (n : Nat) : sizeOf (first n).1 + (first n).2.owed ≤ 3 := by
  unfold first
  split
  · next ascii => simp [sizeOf_character, length_encodeChar_ascii n ascii, Memory.owed]
  · repeat' split
    all_goals simp [sizeOf_nil, sizeOf_fault, Memory.owed]

theorem sizeOf_feed_le (m : Memory) (n : Nat) : sizeOf (feed m n).1 + (feed m n).2.owed ≤ 3 + m.owed := by
  cases m with
  | between => exact sizeOf_first_le n
  | inside missing low high bits =>
    simp only [feed]
    split
    · split
      · have size := length_encodeChar_le (Char.ofNat (bits * 64 + (n - 0x80)))
        simp only [sizeOf_character, Memory.owed]
        omega
      · simp [sizeOf_nil, Memory.owed]
    · have next := sizeOf_first_le n
      have fault : sizeOf (none :: (first n).1) = 3 + sizeOf (first n).1 := sizeOf_append [none] _
      simp only [Memory.owed] at next ⊢
      omega

theorem sizeOf_scan_le (m : Memory) (bytes : List UInt8) : sizeOf (scan m bytes) ≤ 3 * bytes.length + m.owed := by
  induction bytes generalizing m with
  | nil =>
    cases m with
    | between => exact Nat.le_refl 0
    | inside => exact Nat.le_refl 3
  | cons b r ih =>
    have here := sizeOf_feed_le m b.toNat
    have later := ih (feed m b.toNat).2
    rw [scan_cons, sizeOf_append, List.length_cons]
    omega

theorem length_encode_decodeLossy_le (bytes : List UInt8) : (encode (decodeLossy bytes)).length ≤ 3 * bytes.length :=
  sizeOf_scan_le .between bytes

theorem length_encode_le_of_sublist {s t : List Char} (part : s.Sublist t) :
    (encode s).length ≤ (encode t).length := by
  induction part with
  | slnil => exact Nat.le_refl _
  | cons c _ ih => rw [encode_cons, List.length_append]; omega
  | cons_cons c _ ih => rw [encode_cons, encode_cons, List.length_append, List.length_append]; omega

end Herald.Text.Utf8
