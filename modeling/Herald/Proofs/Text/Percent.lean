import Herald.Text.Percent
import Mathlib.Data.List.Basic

/-! Encoded text reads back: the bytes of a text are read as that text, and decoding a percent encoding gives
the bytes of the text that was encoded, as long as the percent sign itself is encoded. -/
namespace Herald.Text

namespace Utf8

theorem toNat_byte {n : Nat} (byte : n < 256) : (UInt8.ofNat n).toNat = n := by
  simp only [UInt8.toNat_ofNat']
  omega

theorem toNat_tail (n : Nat) : (UInt8.ofNat (0x80 + n % 64)).toNat = 0x80 + n % 64 :=
  toNat_byte (by omega)

variable {low high bits missing n : Nat} {rest : List UInt8}

theorem scan_last (within : low ≤ 0x80 + n % 64 ∧ 0x80 + n % 64 ≤ high) :
    scan (.inside 1 low high bits) (UInt8.ofNat (0x80 + n % 64) :: rest) =
      some (Char.ofNat (bits * 64 + n % 64)) :: scan .between rest := by
  simp only [scan, feed, toNat_tail, if_pos within, ↓reduceIte, Nat.add_sub_cancel_left]
  rfl

theorem scan_next (within : low ≤ 0x80 + n % 64 ∧ 0x80 + n % 64 ≤ high) :
    scan (.inside (missing + 2) low high bits) (UInt8.ofNat (0x80 + n % 64) :: rest) =
      scan (.inside (missing + 1) 0x80 0xBF (bits * 64 + n % 64)) rest := by
  have more : missing + 2 ≠ 1 := by omega
  simp only [scan, feed, toNat_tail, if_pos within, if_neg more, Nat.add_sub_cancel_left]
  rfl

theorem scan_lead {b : Nat} {m : Memory} (byte : b < 256) (opens : first b = ([], m)) :
    scan .between (UInt8.ofNat b :: rest) = scan m rest := by
  simp [scan, feed, toNat_byte byte, opens]

theorem scan_encodeChar (c : Char) (rest : List UInt8) :
    scan .between (encodeChar c ++ rest) = some c :: scan .between rest := by
  have valid : c.toNat < 0xD800 ∨ 0xDFFF < c.toNat ∧ c.toNat < 0x110000 := c.valid
  have read {bits : Nat} (whole : bits = c.toNat) : Char.ofNat bits = c := by
    rw [whole]
    exact Char.ofNat_toNat c
  simp only [encodeChar, Nat.pow_eq, Nat.pow_zero, Nat.div_one, Nat.pow_one]
  split
  · next small =>
    simp [scan, feed, first, toNat_byte (show c.toNat < 256 by omega), small, read rfl]
  · split
    · have opens : first (0xC0 + c.toNat / 64) =
          ([], .inside 1 0x80 0xBF (0xC0 + c.toNat / 64 - 0xC0)) := by
        rw [first, if_neg (by omega), if_pos (by omega)]
      simp only [List.cons_append, List.nil_append]
      rw [scan_lead (by omega) opens, scan_last (by omega), read (by omega)]
    · split
      · obtain ⟨low, high, opens, within⟩ : ∃ low high, first (0xE0 + c.toNat / 0x1000) =
            ([], .inside 2 low high (c.toNat / 0x1000)) ∧
            low ≤ 0x80 + c.toNat / 64 % 64 ∧ 0x80 + c.toNat / 64 % 64 ≤ high := by
          by_cases least : c.toNat / 0x1000 = 0
          · exact ⟨0xA0, 0xBF, by rw [least]; rfl, by omega⟩
          · by_cases surrogates : c.toNat / 0x1000 = 13
            · exact ⟨0x80, 0x9F, by rw [surrogates]; rfl, by omega⟩
            · refine ⟨0x80, 0xBF, ?_, by omega⟩
              rw [first, if_neg (by omega), if_neg (by omega), if_neg (by omega), if_neg (by omega),
                if_pos (by omega), Nat.add_sub_cancel_left]
        simp only [List.cons_append, List.nil_append]
        rw [scan_lead (by omega) opens, scan_next within, scan_last (by omega), read (by omega)]
      · obtain ⟨low, high, opens, within⟩ : ∃ low high, first (0xF0 + c.toNat / 0x40000) =
            ([], .inside 3 low high (c.toNat / 0x40000)) ∧
            low ≤ 0x80 + c.toNat / 64 ^ 2 % 64 ∧ 0x80 + c.toNat / 64 ^ 2 % 64 ≤ high := by
          by_cases least : c.toNat / 0x40000 = 0
          · exact ⟨0x90, 0xBF, by rw [least]; rfl, by omega⟩
          · by_cases largest : c.toNat / 0x40000 = 4
            · exact ⟨0x80, 0x8F, by rw [largest]; rfl, by omega⟩
            · refine ⟨0x80, 0xBF, ?_, by omega⟩
              rw [first, if_neg (by omega), if_neg (by omega), if_neg (by omega), if_neg (by omega),
                if_neg (by omega), if_neg (by omega), if_pos (by omega), Nat.add_sub_cancel_left]
        simp only [List.cons_append, List.nil_append]
        rw [scan_lead (by omega) opens, scan_next within, scan_next (by omega), scan_last (by omega),
          read (by omega)]

theorem decode?_encode (s : List Char) : decode? (encode s) = some s := by
  have scanned : scan .between (encode s) = s.map some := by
    induction s with
    | nil => rfl
    | cons c s ih =>
      rw [encode, List.flatMap_cons, scan_encodeChar, ← encode, ih]
      rfl
  rw [decode?, scanned, List.mapM_map]
  have pure_ : s.mapM (fun c => some c) = some (s.map id) := List.mapM_pure
  rwa [List.map_id] at pure_

theorem encode_inj {s t : List Char} (same : encode s = encode t) : s = t := by
  have read := congrArg decode? same
  rw [decode?_encode, decode?_encode] at read
  exact Option.some.inj read

end Utf8

namespace Percent

theorem hexValue?_hexDigit : ∀ d < 16, hexValue? (hexDigit d) = some d := by decide

theorem decode_encodeByte (b : UInt8) (rest : List Char) :
    decode (encodeByte b ++ rest) = b :: decode rest := by
  have byte : b.toNat < 256 := b.toNat_lt
  have high := hexValue?_hexDigit (b.toNat / 16) (by omega)
  have low := hexValue?_hexDigit (b.toNat % 16) (by omega)
  have whole : 16 * (b.toNat / 16) + b.toNat % 16 = b.toNat := by omega
  simp [encodeByte, decode, high, low, whole]

theorem decode_encodeBytes (bytes : List UInt8) (rest : List Char) :
    decode (bytes.flatMap encodeByte ++ rest) = bytes ++ decode rest := by
  induction bytes with
  | nil => rfl
  | cons b bytes ih =>
    rw [List.flatMap_cons, List.append_assoc, decode_encodeByte, ih]
    rfl

theorem decode_cons {c : Char} (plain : c ≠ '%') (rest : List Char) :
    decode (c :: rest) = Utf8.encodeChar c ++ decode rest := by
  rw [decode]
  intro _ _ _ percent
  exact absurd percent plain

variable {reserved : Char → Bool}

theorem decode_encode (percent : reserved '%' = true) (s : List Char) :
    decode (encode reserved s) = Utf8.encode s := by
  induction s with
  | nil => rfl
  | cons c s ih =>
    rw [encode, List.flatMap_cons, ← encode, encodeChar, Utf8.encode, List.flatMap_cons, ← Utf8.encode]
    split
    · rw [decode_encodeBytes, ih]
    · next plain =>
      have other : c ≠ '%' := by
        rintro rfl
        simp [percent] at plain
      rw [List.singleton_append, decode_cons other, ih]

theorem not_mem_encode {c : Char} (is : reserved c = true) (other : c ≠ '%')
    (noDigit : ∀ d < 16, c ≠ hexDigit d) (s : List Char) : c ∉ encode reserved s := by
  intro mem
  obtain ⟨a, -, mem⟩ := List.mem_flatMap.1 mem
  unfold encodeChar at mem
  split at mem
  · obtain ⟨b, -, mem⟩ := List.mem_flatMap.1 mem
    have byte : b.toNat < 256 := b.toNat_lt
    simp only [encodeByte, List.mem_cons, List.not_mem_nil, or_false] at mem
    rcases mem with percent | high | low
    · exact other percent
    · exact noDigit _ (by omega) high
    · exact noDigit _ (by omega) low
  · next plain =>
    rw [List.mem_singleton.1 mem] at is
    simp [is] at plain

end Percent

end Herald.Text
