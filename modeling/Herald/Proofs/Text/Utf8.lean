import Herald.Proofs.Text.Truncated
import Herald.Source

/-! UTF-8 is read exactly: bytes are read as a text if and only if they are the bytes of that text. The first byte of
a character tells how many follow it, and bounds the second so that no character has two forms. -/
namespace Herald.Text.Utf8

variable {low high bits missing : Nat} {c : Char} {bytes : List UInt8} {found : List (Option Char)}

theorem of_scan_last (read : scan (.inside 1 low high bits) bytes = some c :: found) :
    ∃ b r, bytes = b :: r ∧ (low ≤ b.toNat ∧ b.toNat ≤ high) ∧ c = Char.ofNat (bits * 64 + (b.toNat - 0x80)) ∧
      scan .between r = found := by
  cases bytes with
  | nil => cases read
  | cons b r =>
    rw [scan_cons, feed] at read
    split at read
    · next within =>
      simp only [if_true, List.cons_append, List.nil_append, List.cons.injEq, Option.some.injEq] at read
      exact ⟨b, r, rfl, within, read.1.symm, read.2⟩
    · cases read

theorem of_scan_next (read : scan (.inside (missing + 2) low high bits) bytes = some c :: found) :
    ∃ b r, bytes = b :: r ∧ (low ≤ b.toNat ∧ b.toNat ≤ high) ∧
      scan (.inside (missing + 1) 0x80 0xBF (bits * 64 + (b.toNat - 0x80))) r = some c :: found := by
  cases bytes with
  | nil => cases read
  | cons b r =>
    rw [scan_cons, feed] at read
    split at read
    · next within => exact ⟨b, r, rfl, within, read⟩
    · cases read

theorem first_cases (b : Nat) :
    (b < 0x80 ∧ first b = ([some (Char.ofNat b)], .between)) ∨
    ((0xC2 ≤ b ∧ b ≤ 0xDF) ∧ first b = ([], .inside 1 0x80 0xBF (b - 0xC0))) ∨
    (∃ low high, (0xE0 ≤ b ∧ b ≤ 0xEF) ∧ (0x80 ≤ low ∧ high ≤ 0xBF) ∧ (b = 0xE0 → low = 0xA0) ∧
      (b = 0xED → high = 0x9F) ∧ first b = ([], .inside 2 low high (b - 0xE0))) ∨
    (∃ low high, (0xF0 ≤ b ∧ b ≤ 0xF4) ∧ (0x80 ≤ low ∧ high ≤ 0xBF) ∧ (b = 0xF0 → low = 0x90) ∧
      (b = 0xF4 → high = 0x8F) ∧ first b = ([], .inside 3 low high (b - 0xF0))) ∨
    first b = ([none], .between) := by
  unfold first
  split_ifs
  · exact .inl ⟨by omega, rfl⟩
  · exact .inr (.inl ⟨by omega, rfl⟩)
  · exact .inr (.inr (.inl ⟨0xA0, 0xBF, by omega, by omega, by omega, by omega, by simp [*]⟩))
  · exact .inr (.inr (.inl ⟨0x80, 0x9F, by omega, by omega, by omega, by omega, by simp [*]⟩))
  · exact .inr (.inr (.inl ⟨0x80, 0xBF, by omega, by omega, by omega, by omega, rfl⟩))
  · exact .inr (.inr (.inr (.inl ⟨0x90, 0xBF, by omega, by omega, by omega, by omega, by simp [*]⟩)))
  · exact .inr (.inr (.inr (.inl ⟨0x80, 0xBF, by omega, by omega, by omega, by omega, rfl⟩)))
  · exact .inr (.inr (.inr (.inl ⟨0x80, 0x8F, by omega, by omega, by omega, by omega, by simp [*]⟩)))
  · exact .inr (.inr (.inr (.inr rfl)))

theorem toNat_ofNat_of_valid {n : Nat} (valid : n.isValidChar) : (Char.ofNat n).toNat = n := by
  rw [Char.ofNat, dif_pos valid]
  rfl

theorem ofNat_eq {b : UInt8} {n : Nat} (is : n = b.toNat) : UInt8.ofNat n = b := by
  rw [is, UInt8.ofNat_toNat]

section

variable {a b d e : UInt8}

theorem encodeChar_of_one (value : c.toNat = a.toNat) (small : a.toNat < 0x80) : encodeChar c = [a] := by
  simp only [encodeChar, value]
  rw [if_pos small, ofNat_eq rfl]

theorem encodeChar_of_two (value : c.toNat = (a.toNat - 0xC0) * 64 + (b.toNat - 0x80))
    (lead : 0xC2 ≤ a.toNat ∧ a.toNat ≤ 0xDF) (second : 0x80 ≤ b.toNat ∧ b.toNat ≤ 0xBF) : encodeChar c = [a, b] := by
  simp only [encodeChar, value, Nat.pow_eq, Nat.pow_zero, Nat.div_one]
  rw [if_neg (by omega), if_pos (by omega), ofNat_eq (b := a) (by omega), ofNat_eq (b := b) (by omega)]

theorem encodeChar_of_three (value : c.toNat = ((a.toNat - 0xE0) * 64 + (b.toNat - 0x80)) * 64 + (d.toNat - 0x80))
    (lead : 0xE0 ≤ a.toNat ∧ a.toNat ≤ 0xEF) (second : 0x80 ≤ b.toNat ∧ b.toNat ≤ 0xBF)
    (long : a.toNat = 0xE0 → 0xA0 ≤ b.toNat) (third : 0x80 ≤ d.toNat ∧ d.toNat ≤ 0xBF) :
    encodeChar c = [a, b, d] := by
  simp only [encodeChar, value, Nat.pow_eq, Nat.pow_zero, Nat.div_one, Nat.pow_one]
  rw [if_neg (by omega), if_neg (by omega), if_pos (by omega), ofNat_eq (b := a) (by omega),
    ofNat_eq (b := b) (by omega), ofNat_eq (b := d) (by omega)]

theorem encodeChar_of_four
    (value : c.toNat = (((a.toNat - 0xF0) * 64 + (b.toNat - 0x80)) * 64 + (d.toNat - 0x80)) * 64 + (e.toNat - 0x80))
    (lead : 0xF0 ≤ a.toNat ∧ a.toNat ≤ 0xF4) (second : 0x80 ≤ b.toNat ∧ b.toNat ≤ 0xBF)
    (long : a.toNat = 0xF0 → 0x90 ≤ b.toNat) (third : 0x80 ≤ d.toNat ∧ d.toNat ≤ 0xBF)
    (fourth : 0x80 ≤ e.toNat ∧ e.toNat ≤ 0xBF) : encodeChar c = [a, b, d, e] := by
  simp only [encodeChar, value, Nat.pow_eq, Nat.pow_zero, Nat.div_one, Nat.pow_one]
  rw [if_neg (by omega), if_neg (by omega), if_neg (by omega), ofNat_eq (b := a) (by omega),
    ofNat_eq (b := b) (by omega), ofNat_eq (b := d) (by omega), ofNat_eq (b := e) (by omega)]

end

theorem exists_of_scan (read : scan .between bytes = some c :: found) :
    ∃ r, bytes = encodeChar c ++ r ∧ scan .between r = found := by
  cases bytes with
  | nil => cases read
  | cons a r =>
    have byte := a.toNat_lt
    rw [scan_cons, feed] at read
    rcases first_cases a.toNat with ⟨small, opens⟩ | ⟨lead, opens⟩ | ⟨low, high, lead, bounds, least, most, opens⟩ |
      ⟨low, high, lead, bounds, least, most, opens⟩ | opens
    · rw [opens, List.cons_append, List.cons.injEq, Option.some.injEq] at read
      have value := toNat_ofNat_of_valid (n := a.toNat) (.inl (by omega))
      rw [read.1] at value
      exact ⟨r, by rw [encodeChar_of_one value small]; rfl, read.2⟩
    · rw [opens] at read
      obtain ⟨b, r, rfl, second, is, rest⟩ := of_scan_last read
      have value := toNat_ofNat_of_valid (n := (a.toNat - 0xC0) * 64 + (b.toNat - 0x80)) (.inl (by omega))
      rw [← is] at value
      exact ⟨r, by rw [encodeChar_of_two value lead second]; rfl, rest⟩
    · rw [opens] at read
      obtain ⟨b, r, rfl, second, read⟩ := of_scan_next read
      obtain ⟨d, r, rfl, third, is, rest⟩ := of_scan_last read
      have value := toNat_ofNat_of_valid
        (n := ((a.toNat - 0xE0) * 64 + (b.toNat - 0x80)) * 64 + (d.toNat - 0x80)) (by unfold Nat.isValidChar; omega)
      rw [← is] at value
      exact ⟨r, by rw [encodeChar_of_three value lead (by omega) (by omega) third]; rfl, rest⟩
    · rw [opens] at read
      obtain ⟨b, r, rfl, second, read⟩ := of_scan_next read
      obtain ⟨d, r, rfl, third, read⟩ := of_scan_next read
      obtain ⟨e, r, rfl, fourth, is, rest⟩ := of_scan_last read
      have value := toNat_ofNat_of_valid
        (n := (((a.toNat - 0xF0) * 64 + (b.toNat - 0x80)) * 64 + (d.toNat - 0x80)) * 64 + (e.toNat - 0x80))
        (by unfold Nat.isValidChar; omega)
      rw [← is] at value
      exact ⟨r, by rw [encodeChar_of_four value lead (by omega) (by omega) third fourth]; rfl, rest⟩
    · rw [opens] at read
      cases read

theorem encode_of_scan {s : List Char} (read : scan .between bytes = s.map some) : bytes = encode s := by
  induction s generalizing bytes with
  | nil => exact (scan_eq_nil read).2
  | cons c s ih =>
    obtain ⟨r, rfl, rest⟩ := exists_of_scan read
    rw [encode_cons, ih rest]

theorem eq_map_of_mapM {s : List Char} (read : found.mapM id = some s) : found = s.map some := by
  induction found generalizing s with
  | nil =>
    cases read
    rfl
  | cons character found ih =>
    rw [List.mapM_cons] at read
    obtain ⟨c, is, read⟩ := Option.bind_eq_some_iff.1 read
    obtain ⟨rest, others, made⟩ := Option.bind_eq_some_iff.1 read
    rw [← Option.some.inj made, List.map_cons, ← ih others, ← is, id]

/-- Bytes are read as a text if they are its bytes, and only then. -/
theorem decode?_eq_some_iff {s : List Char} : decode? bytes = some s ↔ bytes = encode s := by
  constructor
  · intro read
    exact encode_of_scan (eq_map_of_mapM read)
  · rintro rfl
    exact decode?_encode s

end Herald.Text.Utf8

namespace Herald.Source

open Herald.Text

variable {α : Type} {parse : List Char → Except Json.Fault α} {source : Source} {file : Option (List UInt8)}

theorem ofBytes_eq_text_iff {s : List Char} : ofBytes file = .text s ↔ file = some (Utf8.encode s) := by
  cases file with
  | none => exact iff_of_false nofun nofun
  | some bytes =>
    rw [Option.some.injEq, ← Utf8.decode?_eq_some_iff, ofBytes]
    cases Utf8.decode? bytes <;> simp

theorem read_eq_ok_iff {x : α} : source.read parse = .ok x ↔ ∃ s, source = .text s ∧ parse s = .ok x := by
  cases source with
  | text s => cases parsed : parse s <;> simp [read, parsed, Except.mapError]
  | _ => simp [read]

end Herald.Source
