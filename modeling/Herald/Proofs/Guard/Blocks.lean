import Herald.Guard

/-! Blocks of addresses, and which of them are blocked. An address lies in a block if its first bits, read as a
number, are those of the base. The bytes and groups that the guard looks at decide just that, so an address is
refused exactly if it lies in a blocked block, or if it maps a narrow address that does. -/
namespace Herald.Net

/-- All addresses with the same first bits as the base; the length says how many bits these are. -/
structure Block (w : Nat) where
  base : BitVec w
  length : Nat

def leading {w : Nat} (length : Nat) (bits : BitVec w) : Nat := bits.toNat >>> (w - length)

def Block.Holds {w : Nat} (block : Block w) (bits : BitVec w) : Prop :=
  leading block.length bits = leading block.length block.base

section Prefixes

variable {w : Nat}

theorem leading_of_le {m n : Nat} (bits : BitVec w) (shorter : m ≤ n) (fits : n ≤ w) :
    leading m bits = leading n bits >>> (n - m) := by
  rw [leading, leading, ← Nat.shiftRight_add, show w - n + (n - m) = w - m by omega]

theorem Block.holds_whole (base bits : BitVec w) : (Block.mk base w).Holds bits ↔ bits = base := by
  simp [Holds, leading, BitVec.toNat_inj]

theorem Block.holds_short {base bits : BitVec w} {m n : Nat} (shorter : m ≤ n) (fits : n ≤ w) :
    (Block.mk base m).Holds bits ↔ leading n bits >>> (n - m) = leading n base >>> (n - m) := by
  rw [Holds, leading_of_le bits shorter fits, leading_of_le base shorter fits]

end Prefixes

namespace Address

theorem toNat_ofOctets (a b c d : Nat) :
    (ofOctets [a, b, c, d]).toNat = (((a * 256 + b) * 256 + c) * 256 + d) % 0x100000000 := by
  have sum : [a, b, c, d].foldl (fun acc o => acc * 256 + o) 0 =
      (((0 * 256 + a) * 256 + b) * 256 + c) * 256 + d := rfl
  rw [ofOctets, sum, BitVec.toNat_ofNat, Nat.zero_mul, Nat.zero_add]

theorem toNat_ofGroups (a b c d e f g h : Nat) :
    (ofGroups [a, b, c, d, e, f, g, h]).toNat =
      (((((((a * 65536 + b) * 65536 + c) * 65536 + d) * 65536 + e) * 65536 + f) * 65536 + g) * 65536 + h) %
        0x100000000000000000000000000000000 := by
  have sum : [a, b, c, d, e, f, g, h].foldl (fun acc g => acc * 65536 + g) 0 =
      (((((((0 * 65536 + a) * 65536 + b) * 65536 + c) * 65536 + d) * 65536 + e) * 65536 + f) * 65536 + g) *
        65536 + h := rfl
  rw [ofGroups, sum, BitVec.toNat_ofNat, Nat.zero_mul, Nat.zero_add]

theorem octet_lt (bits : BitVec 32) (i : Nat) : octet bits i < 256 := Nat.mod_lt _ (by decide)

theorem leading_octets (bits : BitVec 32) : leading 16 bits = octet bits 0 * 256 + octet bits 1 := by
  have bound := bits.isLt
  simp only [leading, octet, Nat.pow_eq]
  omega

theorem holds_octets {a b n : Nat} (smallA : a < 256) (smallB : b < 256) (short : n ≤ 16) (bits : BitVec 32) :
    (Block.mk (ofOctets [a, b, 0, 0]) n).Holds bits ↔
      (octet bits 0 * 256 + octet bits 1) >>> (16 - n) = (a * 256 + b) >>> (16 - n) := by
  have base : leading 16 (ofOctets [a, b, 0, 0]) = a * 256 + b := by
    rw [leading, toNat_ofOctets]
    omega
  rw [Block.holds_short short (by decide), leading_octets, base]

theorem holds_one_octet {a : Nat} (small : a < 256) (bits : BitVec 32) :
    (Block.mk (ofOctets [a, 0, 0, 0]) 8).Holds bits ↔ octet bits 0 = a := by
  have second := octet_lt bits 1
  rw [holds_octets small (by decide) (by decide)]
  omega

theorem holds_two_octets {a b : Nat} (smallA : a < 256) (smallB : b < 256) (bits : BitVec 32) :
    (Block.mk (ofOctets [a, b, 0, 0]) 16).Holds bits ↔ octet bits 0 = a ∧ octet bits 1 = b := by
  have second := octet_lt bits 1
  rw [holds_octets smallA smallB (by decide)]
  omega

theorem leading_group (bits : BitVec 128) : leading 16 bits = group bits 0 := by
  have bound := bits.isLt
  simp only [leading, group, Nat.pow_eq]
  omega

theorem holds_group {g n : Nat} (small : g < 65536) (short : n ≤ 16) (bits : BitVec 128) :
    (Block.mk (ofGroups [g, 0, 0, 0, 0, 0, 0, 0]) n).Holds bits ↔
      group bits 0 >>> (16 - n) = g >>> (16 - n) := by
  have base : leading 16 (ofGroups [g, 0, 0, 0, 0, 0, 0, 0]) = g := by
    rw [leading, toNat_ofGroups]
    omega
  rw [Block.holds_short short (by decide), leading_group, base]

def mapping (low : BitVec 32) : BitVec 128 :=
  ofGroups [0, 0, 0, 0, 0, 0xFFFF, low.toNat / 65536, low.toNat % 65536]

theorem toNat_mapping (low : BitVec 32) : (mapping low).toNat = 0xFFFF00000000 + low.toNat := by
  have bound := low.isLt
  rw [mapping, toNat_ofGroups]
  omega

theorem mapped?_eq_some_iff {bits : BitVec 128} {low : BitVec 32} :
    mapped? bits = some low ↔ bits = mapping low := by
  have bound := low.isLt
  rw [← BitVec.toNat_inj, toNat_mapping, mapped?]
  split
  · next front =>
    rw [Option.some.injEq, ← BitVec.toNat_inj, BitVec.toNat_ofNat]
    omega
  · next front =>
    simp only [reduceCtorEq, false_iff]
    omega

end Address

end Herald.Net

namespace Herald.Guard

open Herald.Net Address

def narrowBlocks : List (Block 32) :=
  [⟨ofOctets [127, 0, 0, 0], 8⟩, ⟨ofOctets [10, 0, 0, 0], 8⟩, ⟨ofOctets [172, 16, 0, 0], 12⟩,
   ⟨ofOctets [192, 168, 0, 0], 16⟩, ⟨ofOctets [169, 254, 0, 0], 16⟩, ⟨ofOctets [0, 0, 0, 0], 32⟩]

def wideBlocks : List (Block 128) :=
  [⟨ofGroups [0, 0, 0, 0, 0, 0, 0, 1], 128⟩, ⟨ofGroups [0, 0, 0, 0, 0, 0, 0, 0], 128⟩,
   ⟨ofGroups [0xFC00, 0, 0, 0, 0, 0, 0, 0], 7⟩, ⟨ofGroups [0xFE80, 0, 0, 0, 0, 0, 0, 0], 10⟩]

example : (narrowBlocks.map fun block => (String.ofList (text (.v4 block.base)), block.length)) =
    [("127.0.0.0", 8), ("10.0.0.0", 8), ("172.16.0.0", 12), ("192.168.0.0", 16), ("169.254.0.0", 16),
     ("0.0.0.0", 32)] := by decide

example : (wideBlocks.map fun block => (String.ofList (text (.v6 block.base)), block.length)) =
    [("::1", 128), ("::", 128), ("fc00::", 7), ("fe80::", 10)] := by decide

/-- A narrow address in a narrow block, the wide address that maps one, or any other in a wide block. -/
inductive IsBlocked : Address → Prop
  | narrow {bits : BitVec 32} {block : Block 32} : block ∈ narrowBlocks → block.Holds bits →
    IsBlocked (.v4 bits)
  | mapped {low : BitVec 32} {block : Block 32} : block ∈ narrowBlocks → block.Holds low →
    IsBlocked (.v6 (mapping low))
  | wide {bits : BitVec 128} {block : Block 128} : (∀ low, bits ≠ mapping low) → block ∈ wideBlocks →
    block.Holds bits → IsBlocked (.v6 bits)

theorem isDisallowedV4_iff {bits : BitVec 32} :
    isDisallowedV4 bits = true ↔ ∃ block ∈ narrowBlocks, block.Holds bits := by
  have loopback := @holds_one_octet 127 (by decide) bits
  have ten := @holds_one_octet 10 (by decide) bits
  have sixteen := @holds_two_octets 192 168 (by decide) (by decide) bits
  have link := @holds_two_octets 169 254 (by decide) (by decide) bits
  have twelve : (Block.mk (ofOctets [172, 16, 0, 0]) 12).Holds bits ↔
      octet bits 0 = 172 ∧ 16 ≤ octet bits 1 ∧ octet bits 1 ≤ 31 := by
    have second := octet_lt bits 1
    rw [holds_octets (by decide) (by decide) (by decide)]
    omega
  have unspecified : ofOctets [0, 0, 0, 0] = 0 := rfl
  simp only [narrowBlocks, List.mem_cons, List.not_mem_nil, or_false, exists_eq_or_imp, exists_eq_left,
    loopback, ten, twelve, sixteen, link, Block.holds_whole, unspecified]
  simp only [isDisallowedV4, Bool.or_eq_true, Bool.and_eq_true, beq_iff_eq, decide_eq_true_eq, or_assoc,
    and_assoc]

theorem isDisallowedV6_iff {bits : BitVec 128} :
    isDisallowedV6 bits = true ↔ ∃ block ∈ wideBlocks, block.Holds bits := by
  have loopback : ofGroups [0, 0, 0, 0, 0, 0, 0, 1] = 1 := rfl
  have unspecified : ofGroups [0, 0, 0, 0, 0, 0, 0, 0] = 0 := rfl
  have unique : (Block.mk (ofGroups [0xFC00, 0, 0, 0, 0, 0, 0, 0]) 7).Holds bits ↔
      group bits 0 / 512 = 0xFC00 / 512 := by
    rw [holds_group (by decide) (by decide)]
    omega
  have link : (Block.mk (ofGroups [0xFE80, 0, 0, 0, 0, 0, 0, 0]) 10).Holds bits ↔
      group bits 0 / 64 = 0xFE80 / 64 := by
    rw [holds_group (by decide) (by decide)]
    omega
  simp only [wideBlocks, List.mem_cons, List.not_mem_nil, or_false, exists_eq_or_imp, exists_eq_left,
    Block.holds_whole, loopback, unspecified, unique, link]
  simp only [isDisallowedV6, Bool.or_eq_true, beq_iff_eq, or_assoc]

theorem isBlocked_v4_iff {bits : BitVec 32} :
    IsBlocked (.v4 bits) ↔ ∃ block ∈ narrowBlocks, block.Holds bits := by
  constructor
  · rintro ⟨known, holds⟩
    exact ⟨_, known, holds⟩
  · rintro ⟨block, known, holds⟩
    exact .narrow known holds

theorem isBlocked_mapping_iff {low : BitVec 32} :
    IsBlocked (.v6 (mapping low)) ↔ ∃ block ∈ narrowBlocks, block.Holds low := by
  constructor
  · intro blocked
    generalize same : mapping low = bits at blocked
    cases blocked with
    | @mapped low' block known holds =>
      -- an address maps one narrow address only
      have found : mapped? (mapping low) = some low' := mapped?_eq_some_iff.2 same
      rw [mapped?_eq_some_iff.2 rfl, Option.some.injEq] at found
      exact ⟨block, known, found ▸ holds⟩
    | wide other _ _ => exact absurd same.symm (other low)
  · rintro ⟨block, known, holds⟩
    exact .mapped known holds

theorem isBlocked_v6_iff {bits : BitVec 128} (other : ∀ low, bits ≠ mapping low) :
    IsBlocked (.v6 bits) ↔ ∃ block ∈ wideBlocks, block.Holds bits := by
  constructor
  · intro blocked
    cases blocked with
    | @mapped low _ _ _ => exact absurd rfl (other low)
    | wide _ known holds => exact ⟨_, known, holds⟩
  · rintro ⟨block, known, holds⟩
    exact .wide other known holds

/-- The guard refuses exactly the blocked addresses. -/
theorem isDisallowed_iff_isBlocked (address : Address) :
    isDisallowed address = true ↔ IsBlocked address := by
  cases address with
  | v4 bits => rw [isDisallowed, isDisallowedV4_iff, isBlocked_v4_iff]
  | v6 bits =>
    simp only [isDisallowed]
    cases found : mapped? bits with
    | some low =>
      obtain rfl := mapped?_eq_some_iff.1 found
      exact isDisallowedV4_iff.trans isBlocked_mapping_iff.symm
    | none =>
      have other (low : BitVec 32) : bits ≠ mapping low := fun same => by
        rw [mapped?_eq_some_iff.2 same] at found
        cases found
      exact isDisallowedV6_iff.trans (isBlocked_v6_iff other).symm

end Herald.Guard
