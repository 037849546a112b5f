import Herald.Decimal.Places

/-! Numbers without a sign. A decimal fraction is read as such a number, since every operation on the way keeps the
sign positive; if it is finite, its text of some decimal places has no minus sign. -/
namespace Herald.Decimal

open Float.Model Float.Model.UnpackedFloat Herald.Text

variable {a b : UnpackedFloat} {f g : Float}

def Unsigned : UnpackedFloat → Prop
  | .infinity sign => sign = .positive
  | .notANumber => True
  | .zero sign => sign = .positive
  | .finite sign _ _ _ => sign = .positive

def IsUnsigned (f : Float) : Prop := f.toBits.toNat < 0x8000000000000000

instance (f : Float) : Decidable (IsUnsigned f) := inferInstanceAs (Decidable (f.toBits.toNat < 0x8000000000000000))

/-! ### The bits of a number -/

theorem toNat_packComponents (exponent : BitVec 11) (mantissa : BitVec 52) :
    (packComponents Format.binary64 .positive exponent mantissa).toNat < 0x8000000000000000 := by
  have scale := exponent.isLt
  have fraction := mantissa.isLt
  have sum := Nat.shiftLeft_add_eq_or_of_lt fraction exponent.toNat
  simp only [packComponents, Sign.toBitVec, BitVec.toNat_append, BitVec.toNat_ofNat, Nat.zero_mod, Nat.zero_shiftLeft,
    Nat.zero_or]
  rw [← sum]
  omega

theorem toNat_pack (unsigned : Unsigned a) : (UnpackedFloat.pack Format.binary64 a).toNat < 0x8000000000000000 := by
  cases a with
  | notANumber => exact toNat_packComponents _ _
  | infinity sign =>
    obtain rfl : sign = .positive := unsigned
    exact toNat_packComponents _ _
  | zero sign =>
    obtain rfl : sign = .positive := unsigned
    exact toNat_packComponents _ _
  | finite sign mantissa exponent positive =>
    obtain rfl : sign = .positive := unsigned
    unfold UnpackedFloat.pack
    dsimp only
    split
    · exact toNat_packComponents _ _
    · split
      · exact toNat_packComponents _ _
      · exact toNat_packComponents _ _

theorem Unsigned.ite {c : Prop} [Decidable c] (yes : Unsigned a) (no : Unsigned b) : Unsigned (if c then a else b) := by
  split
  · exact yes
  · exact no

theorem Unsigned.dite {c : Prop} [Decidable c] {a : c → UnpackedFloat} {b : ¬ c → UnpackedFloat}
    (yes : ∀ h, Unsigned (a h)) (no : ∀ h, Unsigned (b h)) : Unsigned (if h : c then a h else b h) := by
  split
  · exact yes _
  · exact no _

theorem unsigned_unpack {bits : BitVec 64} (small : bits.toNat < 0x8000000000000000) :
    Unsigned (UnpackedFloat.unpack Format.binary64 bits) := by
  have zero : @unpackSign Format.binary64 bits = 0#1 := by
    apply BitVec.eq_of_toNat_eq
    unfold unpackSign
    simp [BitVec.extractLsb, BitVec.extractLsb', Nat.shiftRight_eq_div_pow]
    omega
  have sign : Sign.ofBitVec (@unpackSign Format.binary64 bits) = .positive := by
    rw [zero]
    rfl
  unfold UnpackedFloat.unpack
  dsimp only
  rw [sign]
  exact .ite (.ite rfl trivial) (.ite (.dite (fun _ => rfl) fun _ => rfl) rfl)

/-! ### Operations -/

theorem unsigned_roundWithAccuracy (mantissa : Nat) (exponent : Int) (accuracy : Accuracy) :
    Unsigned (roundWithAccuracy Format.binary64 .positive mantissa exponent accuracy) := by
  unfold roundWithAccuracy
  exact .dite (fun _ => rfl) fun _ => rfl

theorem Unsigned.mul (unsignedA : Unsigned a) (unsignedB : Unsigned b) :
    Unsigned (UnpackedFloat.mul Format.binary64 a b) := by
  cases a <;> cases b <;> cases unsignedA <;> cases unsignedB <;>
    first | trivial | rfl | exact unsigned_roundWithAccuracy _ _ _

theorem Unsigned.div (unsignedA : Unsigned a) (unsignedB : Unsigned b) :
    Unsigned (UnpackedFloat.div Format.binary64 a b) := by
  cases a <;> cases b <;> cases unsignedA <;> cases unsignedB <;>
    first | trivial | rfl | exact unsigned_roundWithAccuracy _ _ _

theorem unsigned_ofNat (n : Nat) : Unsigned (UnpackedFloat.ofNat Format.binary64 n) := by
  simp only [UnpackedFloat.ofNat, UnpackedFloat.ofInt, UnpackedFloat.normalize]
  split
  · next less =>
    rw [Int.compare_eq_lt] at less
    omega
  · rfl
  · exact unsigned_roundWithAccuracy _ _ _

theorem unsigned_ofScientific (m : Nat) (e : Int) :
    Unsigned (UnpackedFloat.ofScientific Format.binary64 m e) := by
  unfold UnpackedFloat.ofScientific
  exact .dite (fun _ => rfl) fun _ => .ite rfl (.ite rfl (.ite (.mul rfl rfl) (.div rfl rfl)))

theorem isUnsigned_pack (unsigned : Unsigned a) : IsUnsigned (.ofModel (.pack a)) := toNat_pack unsigned

theorem IsUnsigned.unpack (unsigned : IsUnsigned f) : Unsigned f.toModel.unpack := unsigned_unpack unsigned

theorem IsUnsigned.div (unsignedF : IsUnsigned f) (unsignedG : IsUnsigned g) : IsUnsigned (f / g) :=
  isUnsigned_pack (unsignedF.unpack.div unsignedG.unpack)

theorem isUnsigned_powersOfTen : ∀ power ∈ Float.exactlyRepresentablePowersOfTen, IsUnsigned power := by
  decide +kernel

theorem isUnsigned_ofScientific (m e : Nat) : IsUnsigned (Float.ofScientific m true e) := by
  simp only [Float.ofScientific, if_true]
  split
  · exact (isUnsigned_pack (unsigned_ofNat _)).div (isUnsigned_powersOfTen _ (Array.getElem_mem _))
  · exact isUnsigned_pack (unsigned_ofScientific _ _)

/-! ### The text of a number -/

theorem exists_of_isFinite (unsigned : IsUnsigned f) (finite : f.isFinite = true) :
    ∃ mantissa exponent, Binary.ofFloat f = .finite false mantissa exponent := by
  have positive : (f.toBits.toNat / 0x8000000000000000 % 2 == 1) = false := by
    rw [Nat.div_eq_of_lt unsigned]
    rfl
  have scale : f.toBits.toNat / 0x10000000000000 % 0x800 ≠ 2047 := by
    intro full
    have exponent : @unpackExponent Format.binary64 f.toBits.toBitVec = -1#_ := by
      apply BitVec.eq_of_toNat_eq
      simp [unpackExponent, BitVec.extractLsb, BitVec.extractLsb', Nat.shiftRight_eq_div_pow]
      exact full
    have infinite : f.toModel.unpack.isFinite = false := by
      change UnpackedFloat.isFinite
        (if @unpackExponent Format.binary64 f.toBits.toBitVec = -1#_ then _ else _) = false
      rw [if_pos exponent]
      split <;> rfl
    rw [Float.isFinite, Float.Model.isFinite, infinite] at finite
    cases finite
  simp only [Binary.ofFloat, Binary.ofBits, positive, if_neg scale]
  split
  · exact ⟨_, _, rfl⟩
  · exact ⟨_, _, rfl⟩

theorem exists_toPlaces (unsigned : IsUnsigned f) (finite : f.isFinite = true) {places : Nat} (some_ : places ≠ 0) :
    ∃ whole part, toPlaces places (.ofFloat f) = natDigits whole ++ '.' :: padded places part := by
  obtain ⟨mantissa, exponent, eq⟩ := exists_of_isFinite unsigned finite
  rw [eq]
  exact ⟨_, _, if_neg some_⟩

end Herald.Decimal
