/-! Text as bytes and back. Bytes are read one at a time by a reader whose whole memory is the
character it is in the middle of, so the reading does not depend on how the bytes arrive. A malformed
sequence ends at the first byte that cannot continue it and counts as one fault. -/
namespace Herald.Text.Utf8

def encodeChar (c : Char) : List UInt8 :=
  let n := c.toNat
  let tail (k : Nat) : UInt8 := UInt8.ofNat (0x80 + n / Nat.pow 64 k % 64)
  if n < 0x80 then [UInt8.ofNat n]
  else if n < 0x800 then [UInt8.ofNat (0xC0 + n / 64), tail 0]
  else if n < 0x10000 then [UInt8.ofNat (0xE0 + n / 0x1000), tail 1, tail 0]
  else [UInt8.ofNat (0xF0 + n / 0x40000), tail 2, tail 1, tail 0]

def encode (s : List Char) : List UInt8 := s.flatMap encodeChar

/-- Between two characters, or inside one: how many bytes are missing, the range of the next one, and
the bits read so far. -/
inductive Memory
  | between
  | inside (missing low high bits : Nat)
  deriving DecidableEq, Repr

def first (b : Nat) : List (Option Char) × Memory :=
  if b < 0x80 then ([some (Char.ofNat b)], .between)
  else if 0xC2 ≤ b ∧ b ≤ 0xDF then ([], .inside 1 0x80 0xBF (b - 0xC0))
  else if b = 0xE0 then ([], .inside 2 0xA0 0xBF 0)
  else if b = 0xED then ([], .inside 2 0x80 0x9F 0xD)
  else if 0xE1 ≤ b ∧ b ≤ 0xEF then ([], .inside 2 0x80 0xBF (b - 0xE0))
  else if b = 0xF0 then ([], .inside 3 0x90 0xBF 0)
  else if 0xF1 ≤ b ∧ b ≤ 0xF3 then ([], .inside 3 0x80 0xBF (b - 0xF0))
  else if b = 0xF4 then ([], .inside 3 0x80 0x8F 4)
  else ([none], .between)

def feed (m : Memory) (b : Nat) : List (Option Char) × Memory :=
  match m with
  | .between => first b
  | .inside missing low high bits =>
    if low ≤ b ∧ b ≤ high then
      let bits := bits * 64 + (b - 0x80)
      if missing = 1 then ([some (Char.ofNat bits)], .between)
      else ([], .inside (missing - 1) 0x80 0xBF bits)
    else
      let next := first b
      (none :: next.1, next.2)

/-- The characters of the bytes, with `none` for each malformed sequence. -/
def scan : Memory → List UInt8 → List (Option Char)
  | .between, [] => []
  | .inside .., [] => [none]
  | m, b :: r =>
    let next := feed m b.toNat
    next.1 ++ scan next.2 r

def decodeLossy (bytes : List UInt8) : List Char :=
  (scan .between bytes).map fun c => c.getD '\uFFFD'

def decode? (bytes : List UInt8) : Option (List Char) :=
  (scan .between bytes).mapM id

theorem scan_nil : scan .between [] = [] := rfl

end Herald.Text.Utf8
