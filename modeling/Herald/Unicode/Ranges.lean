import Herald.Text.Blank
import Herald.Text.Percent

/-! Tables of character ranges. A table is written as one text of entries, each the distance from the
start of the entry before it, the number of characters, and a tag, with the numbers in hexadecimal. -/
namespace Herald.Unicode

open Herald.Text

structure Range where
  first : Nat
  size : Nat
  tag : String
  deriving Repr

def hexNumber (s : List Char) : Nat :=
  s.foldl (fun acc c => acc * 16 + (Percent.hexValue? c).getD 0) 0

def words (packed : String) : List String :=
  ((packed.toList.splitBy fun a b => !(isBlank a || isBlank b)).filter fun w =>
    !w.all isBlank).map String.ofList

/-- One entry, given the start of the entry before it. -/
def Range.read (previous : Nat) (entry : String) : Range :=
  let cs := entry.toList
  let gap := cs.takeWhile (· != ',')
  let rest := (cs.dropWhile (· != ',')).drop 1
  let size := rest.takeWhile (· != ':')
  ⟨previous + hexNumber gap, hexNumber size, String.ofList ((rest.dropWhile (· != ':')).drop 1)⟩

def Range.readAll (packed : String) : Array Range :=
  (words packed).foldl
    (fun done entry => done.push (Range.read ((done.back?.map Range.first).getD 0) entry)) #[]

/-- The number of the last entry that starts at or below `n`, found by halving. -/
def lastStart {α : Type} (start : α → Nat) (entries : Array α) (n : Nat) : Nat → Nat → Nat → Option α
  | 0, low, _ => entries[low]?
  | fuel + 1, low, high =>
    if high ≤ low + 1 then entries[low]?
    else
      let middle := (low + high) / 2
      match entries[middle]? with
      | none => none
      | some e =>
        if start e ≤ n then lastStart start entries n fuel middle high
        else lastStart start entries n fuel low middle

def Range.find? (table : Array Range) (c : Char) : Option Range :=
  (lastStart Range.first table c.toNat 32 0 table.size).filter fun r =>
    r.first ≤ c.toNat && c.toNat < r.first + r.size

end Herald.Unicode
