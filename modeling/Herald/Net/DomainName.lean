import Herald.Net.Punycode
import Herald.Text.Blank
import Herald.Text.Percent
import Herald.Unicode.Composition
import Herald.Unicode.Direction
import Herald.Unicode.DomainMapping
import Herald.Unicode.Joining
import Herald.Unicode.Mark

/-! Domain names in the ASCII form that is looked up. A name is mapped and composed as a whole, then
each label is judged by itself, and right-to-left names are judged once more as a whole. -/
namespace Herald.Net.DomainName

open Herald.Text Herald.Unicode

def isForbidden (c : Char) : Bool :=
  Percent.isControl c || " #/:<>?@[\\]^|%".toList.contains c

def isAscii (s : List Char) : Bool := s.all fun c => c.toNat < 128

def ace : List Char := "xn--".toList

def mapped? (s : List Char) : Option (List Char) :=
  (s.mapM domainMapping).map fun parts => composed parts.flatten

def isVirama (c : Char) : Bool := order c == 9

/-- A zero-width joiner follows a virama; a zero-width non-joiner does too, or it stands between
characters that would join. The text before a character is given back to front. -/
def joinersFit : List Char → List Char → Bool
  | _, [] => true
  | before, c :: after =>
    let afterVirama := (before.head?.map isVirama).getD false
    let passes (s : List Char) : Option String :=
      ((s.dropWhile fun d => joining d == some "T").head?).bind joining
    let here :=
      if c.toNat = 0x200D then afterVirama
      else if c.toNat = 0x200C then
        afterVirama ||
          ((passes before == some "L" || passes before == some "D") &&
            (passes after == some "R" || passes after == some "D"))
      else true
    here && joinersFit (c :: before) after

/-- A label outside ASCII does not start with a mark and uses joiners only where they join. -/
def labelFits (label : List Char) : Bool :=
  !(label.head?.map isMark).getD false && joinersFit [] label

def label? (label : List Char) : Option (List Char × List Char) :=
  match dropLead ace label with
  | some code =>
    match Punycode.decode? code with
    | none => none
    | some text =>
      if !isAscii label || isAscii text || mapped? text != some text || !labelFits text then none
      else some (label, text)
  | none =>
    if isAscii label then some (label, label)
    else if labelFits label then some (ace ++ Punycode.encode label, label)
    else none

def isRightToLeft (c : Char) : Bool := ["R", "AL", "AN"].contains (direction c)

/-- The rule for a label of a name that has right-to-left characters. -/
def directionFits (label : List Char) : Bool :=
  let classes := label.map direction
  let last := (classes.reverse.dropWhile (· == "NSM")).head?
  match classes.head? with
  | none => true
  | some "L" =>
    classes.all (["L", "EN", "ES", "CS", "ET", "ON", "BN", "NSM"].contains ·) &&
      (last == some "L" || last == some "EN")
  | some start =>
    (start == "R" || start == "AL") &&
      classes.all (["R", "AL", "AN", "EN", "ES", "CS", "ET", "ON", "BN", "NSM"].contains ·) &&
      ((last.map fun c => ["R", "AL", "EN", "AN"].contains c).getD false) &&
      !(classes.contains "EN" && classes.contains "AN")

/-- The ASCII form of the name that the bytes spell, or none if they spell no name. -/
def toAscii? (bytes : List UInt8) : Option (List Char) := do
  let name ← Utf8.decode? bytes
  let mapped ← mapped? name
  let labels ← (splitAt '.' mapped).mapM label?
  let texts := labels.map Prod.snd
  if mapped.any isForbidden then none
  else if texts.any (fun t => t.any isRightToLeft) && !texts.all directionFits then none
  else some (joinWith '.' (labels.map Prod.fst))

end Herald.Net.DomainName
