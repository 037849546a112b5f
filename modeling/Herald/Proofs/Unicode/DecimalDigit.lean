import Herald.Unicode.DecimalDigit

/-! A decimal digit of any script is neither blank nor one of the signs of an order. The table of digits is read
here from its characters, in which it can be computed at once. -/
namespace Herald.Unicode

open Herald.Text

def Range.readWord (previous : Nat) (word : List Char) : Range :=
  let gap := word.takeWhile (· != ',')
  let rest := (word.dropWhile (· != ',')).drop 1
  let size := rest.takeWhile (· != ':')
  ⟨previous + hexNumber gap, hexNumber size, String.ofList ((rest.dropWhile (· != ':')).drop 1)⟩

def Range.readText (packed : List Char) : Array Range :=
  ((packed.splitBy fun a b => !(isBlank a || isBlank b)).filter fun word => !word.all isBlank).foldl
    (fun done word => done.push (readWord ((done.back?.map first).getD 0) word)) #[]

theorem Range.readAll_ofList (packed : List Char) : readAll (String.ofList packed) = readText packed := by
  simp only [readAll, words, List.foldl_map, read, String.toList_ofList, readWord, readText]

theorem Range.find?_readAll_ofList {packed chars : List Char}
    (none_ : chars.all (fun c => (find? (readText packed) c).isNone) = true) :
    ∀ c ∈ chars, find? (readAll (String.ofList packed)) c = none := by
  rw [readAll_ofList]
  exact fun c mem => Option.isNone_iff_eq_none.1 (List.all_eq_true.1 none_ c mem)

def blanks : List Char :=
  [9, 10, 11, 12, 13, 0x20, 0x85, 0xA0, 0x1680, 0x2000, 0x2001, 0x2002, 0x2003, 0x2004, 0x2005, 0x2006, 0x2007,
    0x2008, 0x2009, 0x200A, 0x2028, 0x2029, 0x202F, 0x205F, 0x3000].map Char.ofNat

theorem mem_blanks {c : Char} (blank : isBlank c = true) : c ∈ blanks := by
  rw [← Char.ofNat_toNat c]
  refine List.mem_map_of_mem ?_
  simp only [isBlank, Bool.or_eq_true, Bool.and_eq_true, decide_eq_true_eq, beq_iff_eq] at blank
  simp only [List.mem_cons, List.not_mem_nil, or_false]
  omega

set_option maxRecDepth 4000 in
theorem find?_digitTable : ∀ c ∈ ['×', '¥', '￥'] ++ blanks, Range.find? digitTable c = none := by
  -- the text of the table is unified with its list of characters, which the kernel can read at once
  refine Range.find?_readAll_ofList ?_
  decide +kernel

theorem isDecimalDigit_eq_false {c : Char} (ascii : ('0' ≤ c && c ≤ '9') = false)
    (mem : c ∈ ['×', '¥', '￥'] ++ blanks) : isDecimalDigit c = false := by
  rw [isDecimalDigit, ascii, find?_digitTable c mem]
  simp

theorem isDecimalDigit_of_isBlank {c : Char} (blank : isBlank c = true) : isDecimalDigit c = false := by
  have other : blanks.all (fun d => !('0' ≤ d && d ≤ '9')) = true := by decide
  have ascii : (!('0' ≤ c && c ≤ '9')) = true := List.all_eq_true.1 other c (mem_blanks blank)
  rw [Bool.not_eq_true'] at ascii
  exact isDecimalDigit_eq_false ascii (List.mem_append_right _ (mem_blanks blank))

theorem isDecimalDigit_ascii {c : Char} (ascii : c.toNat < 128) :
    isDecimalDigit c = ('0' ≤ c && c ≤ '9') := by
  simp [isDecimalDigit, Nat.not_le.2 ascii]

end Herald.Unicode
