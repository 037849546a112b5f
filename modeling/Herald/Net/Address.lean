import Herald.Text.Blank
import Herald.Text.Numeral
import Herald.Text.Percent

/-! Internet addresses of both families as words of 32 and 128 bits, with their written forms. The
shortened form of the wider family leaves out its first longest run of at least two zero groups. -/
namespace Herald.Net

open Herald.Text

inductive Address
  | v4 (bits : BitVec 32)
  | v6 (bits : BitVec 128)
  deriving DecidableEq, Repr

namespace Address

def octet (bits : BitVec 32) (i : Nat) : Nat := bits.toNat / Nat.pow 256 (3 - i) % 256

def group (bits : BitVec 128) (i : Nat) : Nat := bits.toNat / Nat.pow 65536 (7 - i) % 65536

def ofOctets (octets : List Nat) : BitVec 32 :=
  BitVec.ofNat 32 (octets.foldl (fun acc o => acc * 256 + o) 0)

def ofGroups (groups : List Nat) : BitVec 128 :=
  BitVec.ofNat 128 (groups.foldl (fun acc g => acc * 65536 + g) 0)

def mapped? (bits : BitVec 128) : Option (BitVec 32) :=
  if bits.toNat / 0x100000000 = 0xFFFF then some (BitVec.ofNat 32 bits.toNat) else none

def dotted (bits : BitVec 32) : List Char :=
  natDigits (octet bits 0) ++ '.' :: natDigits (octet bits 1) ++ '.' :: natDigits (octet bits 2) ++
    '.' :: natDigits (octet bits 3)

/-- The longest run of zeros in a list, the first of equals: its start and its length. -/
def longestZeros : List Nat → Nat → Nat × Nat
  | [], at_ => (at_, 0)
  | g :: r, at_ =>
    let here := ((g :: r).takeWhile (· == 0)).length
    let later := longestZeros r (at_ + 1)
    if later.2 ≤ here then (at_, here) else later

def hexGroup (n : Nat) : List Char := Nat.toDigits 16 n

def hexGroups : List Nat → List Char
  | [] => []
  | [g] => hexGroup g
  | g :: r => hexGroup g ++ ':' :: hexGroups r

def shortened (bits : BitVec 128) : List Char :=
  let groups := (List.range 8).map (group bits)
  let run := longestZeros groups 0
  if run.2 < 2 then hexGroups groups
  else hexGroups (groups.take run.1) ++ [':', ':'] ++ hexGroups (groups.drop (run.1 + run.2))

/-- The text of an address in messages: a mapped address keeps its dotted part. -/
def text : Address → List Char
  | .v4 bits => dotted bits
  | .v6 bits =>
    match mapped? bits with
    | some low => "::ffff:".toList ++ dotted low
    | none => shortened bits

def octet? (s : List Char) : Option Nat :=
  (natural? s).bind fun n =>
    if n ≤ 255 ∧ s.length ≤ 3 ∧ (s.length = 1 ∨ s.head? ≠ some '0') then some n else none

def dotted? (s : List Char) : Option (List Nat) :=
  let parts := splitAt '.' s
  if parts.length = 4 then parts.mapM octet? else none

/-- The groups of a wide address before and after its double colon. -/
structure Groups where
  before : List Nat
  after : Option (List Nat)

def group? (s : List Char) : Option Nat :=
  if s = [] ∨ 4 < s.length then none
  else (s.mapM Percent.hexValue?).map fun digits => digits.foldl (fun acc d => acc * 16 + d) 0

/-- Groups between single colons; the last piece may be a dotted address, which is two groups. -/
def groups? : List (List Char) → Option (List Nat)
  | [] => some []
  | [last] =>
    match group? last with
    | some g => some [g]
    | none => (dotted? last).map fun o =>
        [o.getD 0 0 * 256 + o.getD 1 0, o.getD 2 0 * 256 + o.getD 3 0]
  | piece :: rest =>
    match group? piece, groups? rest with
    | some g, some gs => some (g :: gs)
    | _, _ => none

def side? (s : List Char) : Option (List Nat) :=
  if s = [] then some [] else groups? (splitAt ':' s)

def leftSide? (s : List Char) : Option (List Nat) :=
  if s = [] then some [] else (splitAt ':' s).mapM group?

/-- Eight groups, or fewer around one double colon that stands for at least one zero group. -/
def v6? (s : List Char) : Option (BitVec 128) :=
  match cutAt [':', ':'] s with
  | none =>
    match groups? (splitAt ':' s) with
    | some gs => if gs.length = 8 then some (ofGroups gs) else none
    | none => none
  | some (left, right) =>
    match leftSide? left, side? right with
    | some before, some after =>
      let known := before.length + after.length
      if known < 8 then some (ofGroups (before ++ List.replicate (8 - known) 0 ++ after)) else none
    | _, _ => none

def parse? (s : List Char) : Option Address :=
  match dotted? s with
  | some octets => some (.v4 (ofOctets octets))
  | none => (v6? s).map .v6

end Address

end Herald.Net
