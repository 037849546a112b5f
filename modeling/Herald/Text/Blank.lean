/-! Blank characters and the two things a text is cut into: trimmed text and lines. Trimming removes
every blank character at the ends and nothing else, and a trimmed text is not trimmed further. -/
namespace Herald.Text

/-- Holds for the characters with the Unicode property White_Space. -/
def isBlank (c : Char) : Bool :=
  let n := c.toNat
  (9 ≤ n && n ≤ 13) || n == 0x20 || n == 0x85 || n == 0xA0 || n == 0x1680 ||
    (0x2000 ≤ n && n ≤ 0x200A) || n == 0x2028 || n == 0x2029 || n == 0x202F || n == 0x205F ||
    n == 0x3000

def trimStart (s : List Char) : List Char := s.dropWhile isBlank

def trimEnd (s : List Char) : List Char := (s.reverse.dropWhile isBlank).reverse

def trim (s : List Char) : List Char := trimEnd (trimStart s)

def trimmed (s : String) : String := String.ofList (trim s.toList)

def allBlank (s : String) : Bool := s.toList.all isBlank

def splitAt (sep : Char) : List Char → List (List Char)
  | [] => [[]]
  | c :: r =>
    if c = sep then [] :: splitAt sep r
    else match splitAt sep r with
      | [] => [[c]]
      | piece :: rest => (c :: piece) :: rest

def joinWith (sep : Char) : List (List Char) → List Char
  | [] => []
  | [piece] => piece
  | piece :: rest => piece ++ sep :: joinWith sep rest

theorem splitAt_ne_nil (sep : Char) (s : List Char) : splitAt sep s ≠ [] := by
  induction s with
  | nil => simp [splitAt]
  | cons c r ih =>
    by_cases h : c = sep
    · simp [splitAt, h]
    · cases hr : splitAt sep r with
      | nil => exact absurd hr ih
      | cons piece rest => simp [splitAt, h, hr]

theorem joinWith_splitAt (sep : Char) (s : List Char) : joinWith sep (splitAt sep s) = s := by
  induction s with
  | nil => rfl
  | cons c r ih =>
    cases hr : splitAt sep r with
    | nil => exact absurd hr (splitAt_ne_nil sep r)
    | cons piece rest =>
      by_cases h : c = sep
      · simpa [splitAt, h, hr, joinWith] using ih
      · rw [hr] at ih
        cases rest with
        | nil => simpa [splitAt, h, hr, joinWith] using ih
        | cons next more => simpa [splitAt, h, hr, joinWith] using ih

def dropLead (lead s : List Char) : Option (List Char) :=
  match lead, s with
  | [], s => some s
  | _ :: _, [] => none
  | a :: lead, b :: s => if a = b then dropLead lead s else none

theorem dropLead_eq_some_iff {lead s rest : List Char} :
    dropLead lead s = some rest ↔ s = lead ++ rest := by
  induction lead generalizing s with
  | nil => simp [dropLead]
  | cons a lead ih =>
    cases s with
    | nil => simp [dropLead]
    | cons b s =>
      by_cases h : a = b
      · simp [dropLead, h, ih]
      · simp [dropLead, h, Ne.symm h]

def cutAt (phrase : List Char) : List Char → Option (List Char × List Char)
  | [] => if phrase = [] then some ([], []) else none
  | c :: r =>
    match dropLead phrase (c :: r) with
    | some rest => some ([], rest)
    | none => (cutAt phrase r).map fun cut => (c :: cut.1, cut.2)

def contains (phrase s : List Char) : Bool := (cutAt phrase s).isSome

def lower (s : List Char) : List Char := s.map Char.toLower

end Herald.Text
