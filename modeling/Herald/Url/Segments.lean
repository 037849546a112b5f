import Herald.Url.Path

/-! Adding segments of plain text to the path of an address. The text of a segment is encoded, so a
slash in it does not divide it. -/
namespace Herald.Url

open Herald.Text

def segmentText (s : List Char) : List Char :=
  s.filter fun c => c != '\t' && c != '\n' && c.toNat != 13

/-- Puts one more segment behind the path. A dot or a double dot is no segment and adds nothing. -/
def pushSegment (u : Url) (segment : List Char) : Url :=
  if segment = ['.'] ∨ segment = ['.', '.'] then u
  else
    let start := if u.path.length = 1 then u.path else u.path ++ ['/']
    let special := u.family.isSpecial
    let encoded := Percent.encode (Path.reservedInSegment special) (segmentText segment)
    { u with path := Path.settle u.family (Path.step u.family start encoded false) }

/-- The path without its last segment if that is empty; the slash that opens the path stays. -/
def popEmptySegment (u : Url) : Url :=
  if 1 < u.path.length && Path.endsWithSlash u.path then { u with path := u.path.dropLast } else u

def withPath (u : Url) (path : List Char) : Url :=
  { u with path := if u.isOpaque then "%2F".toList ++ path.drop 1
                   else (Path.readAfterHost u.family path).1 }

/-- The segments of the path, split at its slashes, without the empty one before the first. -/
def segments (u : Url) : List (List Char) := (splitAt '/' u.path).drop 1

end Herald.Url
