import Herald.Url.Basic

/-! The path of a web address. A path grows by one segment at a time: a dot leaves it as it is, a
double dot takes its last segment away, and drive letters of file paths are kept. -/
namespace Herald.Url.Path

open Herald.Text

def reserved (c : Char) : Bool := Percent.withControls " \x22#<>?\x60\x7b\x7d" c

def reservedInSegment (special : Bool) (c : Char) : Bool :=
  reserved c || c == '/' || c == '%' || (special && c == '\\')

def isDot (segment : List Char) : Bool :=
  [".", "%2e", "%2E"].contains (String.ofList segment)

def isDoubleDot (segment : List Char) : Bool :=
  ["..", "%2e%2e", "%2e%2E", "%2E%2e", "%2E%2E", "%2e.", "%2E.", ".%2e", ".%2E"].contains
    (String.ofList segment)

def endsWithSlash (path : List Char) : Bool := path.getLast? == some '/'

def cutLast (path : List Char) : List Char × List Char :=
  let reversed := path.reverse
  ((reversed.dropWhile (· != '/')).reverse, (reversed.takeWhile (· != '/')).reverse)

def isDrive : List Char → Bool
  | [c, m] => c.isAlpha && (m == ':' || m == '|')
  | _ => false

def isNormalDrive : List Char → Bool
  | [c, m] => c.isAlpha && m == ':'
  | _ => false

def startsWithDrive : List Char → Bool
  | c :: m :: r => isDrive [c, m] && (match r with
    | [] => true
    | d :: _ => "/\\?#".toList.contains d)
  | _ => false

/-- The last slash does not open the path and does not follow a drive letter. -/
def lastSlashRemovable (path : List Char) : Bool :=
  let before := cutLast path.dropLast
  before.1 != [] && !startsWithDrive (before.2 ++ ['/'])

/-- Takes the last segment away; a drive letter stays. -/
def shorten (family : Family) (path : List Char) : List Char :=
  let cut := cutLast path
  if family = .file && isNormalDrive cut.2 then path else cut.1

def step (family : Family) (path segment : List Char) (slash : Bool) : List Char :=
  let close := if slash then ['/'] else []
  if isDoubleDot segment then
    let kept := if endsWithSlash path && lastSlashRemovable path then path.dropLast else path
    let short := shorten family kept
    if slash && !endsWithSlash short then short ++ ['/'] else short
  else if isDot segment then
    if endsWithSlash path then path else path ++ ['/']
  else if family = .file && path = ['/'] then
    match segment with
    | [c, m] => path ++ (if isDrive [c, m] then [c, ':'] else [c, m]) ++ close
    | c :: ':' :: r => path ++ (if c.isAlpha then c :: ':' :: '/' :: r else segment) ++ close
    | _ => path ++ segment ++ close
  else path ++ segment ++ close

def isSlash (family : Family) (c : Char) : Bool := c == '/' || (family.isSpecial && c == '\\')

/-- Reads segments until a query, a fragment or the end; `current` is the segment being read, back to
front. The result is the path and the rest of the text. -/
def walk (family : Family) (path current : List Char) : List Char → List Char × List Char
  | [] => (step family path (Percent.encode reserved current.reverse) false, [])
  | c :: r =>
    if isSlash family c then
      walk family (step family path (Percent.encode reserved current.reverse) true) [] r
    else if c == '?' || c == '#' then
      (step family path (Percent.encode reserved current.reverse) false, c :: r)
    else walk family path (c :: current) r

def settle (family : Family) (path : List Char) : List Char :=
  if family = .file then '/' :: path.dropWhile (· == '/') else path

def read (family : Family) (path text : List Char) : List Char × List Char :=
  let walked := walk family path [] text
  (settle family walked.1, walked.2)

def readAfterHost (family : Family) (text : List Char) : List Char × List Char :=
  if family.isSpecial then
    match text with
    | c :: r => if isSlash family c then read family ['/'] r else read family ['/'] text
    | [] => read family ['/'] []
  else
    match text with
    | '?' :: _ => ([], text)
    | '#' :: _ => ([], text)
    | '/' :: _ => read family [] text
    | [] => ([], [])
    | _ => read family ['/'] text

end Herald.Url.Path
