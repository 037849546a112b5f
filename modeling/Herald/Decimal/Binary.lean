/-! Floating point numbers taken apart: the exact value is a natural number times a power of two. -/
namespace Herald.Decimal

/-- A finite number is `±mantissa · 2^(exponent - 1074)`. -/
inductive Binary
  | nan
  | infinite (negative : Bool)
  | finite (negative : Bool) (mantissa exponent : Nat)
  deriving DecidableEq, Repr

def Binary.ofBits (bits : Nat) : Binary :=
  let negative := bits / 0x8000000000000000 % 2 == 1
  let scale := bits / 0x10000000000000 % 0x800
  let fraction := bits % 0x10000000000000
  if scale = 2047 then (if fraction = 0 then .infinite negative else .nan)
  else if scale = 0 then .finite negative fraction 0
  else .finite negative (0x10000000000000 + fraction) (scale - 1)

def Binary.ofFloat (f : Float) : Binary := .ofBits f.toBits.toNat

end Herald.Decimal
