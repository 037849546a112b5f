import Herald.Url.HostParser
import Herald.Url.Path

/-! Reading web addresses, alone or relative to another one. Blank and control characters around the
text and tabs and line ends inside it do not count. -/
namespace Herald.Url

open Herald.Text

/-- The text that is read: without blanks and controls at the ends, without tabs and line ends. -/
def stripped (s : List Char) : List Char :=
  let outer (c : Char) : Bool := c.toNat ≤ 0x20
  let inner := ((s.dropWhile outer).reverse.dropWhile outer).reverse
  inner.filter fun c => c != '\t' && c != '\n' && c.toNat != 13

def isSchemeChar (c : Char) : Bool := c.isAlphanum || c == '+' || c == '-' || c == '.'

def scheme? (s : List Char) : Option (List Char × List Char) :=
  let name := s.takeWhile isSchemeChar
  match s.dropWhile isSchemeChar with
  | ':' :: rest =>
    if (name.head?.map Char.isAlpha).getD false then some (lower name, rest) else none
  | _ => none

def reservedInCredentials (c : Char) : Bool :=
  Path.reserved c || "/:;=@[\\]^|".toList.contains c

def reservedInQuery (special : Bool) (c : Char) : Bool :=
  Percent.withControls " \x22#<>" c || (special && c.toNat == 39)

def reservedInFragment (c : Char) : Bool := Percent.withControls " \x22<>\x60" c

def readSuffix (family : Family) (text : List Char) : Option (List Char) × Option (List Char) :=
  let fragment (s : List Char) : Option (List Char) :=
    match s with
    | '#' :: r => some (Percent.encode reservedInFragment r)
    | _ => none
  match text with
  | '?' :: r =>
    (some (Percent.encode (reservedInQuery family.isSpecial) (r.takeWhile (· != '#'))),
      fragment (r.dropWhile (· != '#')))
  | _ => (none, fragment text)

def withSuffix (u : Url) (text : List Char) : Url :=
  let suffix := readSuffix u.family text
  { u with query := suffix.1, fragment := suffix.2 }

def endsAuthority (family : Family) (c : Char) : Bool :=
  c == '?' || c == '#' || Path.isSlash family c

def readCredentials (family : Family) (text : List Char) :
    Except Fault (Authority × List Char) :=
  let span := text.takeWhile fun c => !endsAuthority family c
  let rest := text.dropWhile fun c => !endsAuthority family c
  if !span.contains '@' then .ok ({}, text)
  else
    let after := (span.reverse.takeWhile (· != '@')).reverse ++ rest
    let before := ((span.reverse.dropWhile (· != '@')).drop 1).reverse
    if before = [] then
      if (after.head?.map (endsAuthority family)).getD false then .error .emptyHost
      else .ok ({}, after)
    else
      let encoded := Percent.encode reservedInCredentials
      let word := (before.dropWhile (· != ':')).drop 1
      .ok ({ username := encoded (before.takeWhile (· != ':')),
             password := if word = [] then none else some (encoded word) }, after)

/-- The text of the host and what follows it; a colon in brackets does not end it. -/
def hostSpan (family : Family) : Bool → List Char → List Char × List Char
  | _, [] => ([], [])
  | inside, c :: r =>
    if (c == ':' && !inside) || endsAuthority family c then ([], c :: r)
    else
      let next := hostSpan family (if c == '[' then true else if c == ']' then false else inside) r
      (c :: next.1, next.2)

/-- The port after a colon. No digits mean no port, and so does the port that the scheme implies. -/
def readPort (scheme : List Char) (text : List Char) :
    Except Fault (Option Nat × List Char) :=
  let digits := text.takeWhile isDigit
  let rest := text.dropWhile isDigit
  if 65535 < valueOf digits then .error .badPort
  else if (rest.head?.map fun c => !"/\\?#".toList.contains c).getD false then .error .badPort
  else
    let port := if digits = [] then none else some (valueOf digits)
    .ok (if port = defaultPort scheme then none else port, rest)

def readAuthority (scheme : List Char) (text : List Char) :
    Except Fault (Authority × List Char) := do
  let family := Family.ofScheme scheme
  let (credentials, text) ← readCredentials family text
  let (hostText, text) := hostSpan family false text
  if hostText = [] then
    if family.isSpecial || text.head? = some ':' || credentials != {} then throw .emptyHost
    return (credentials, text)
  let host ← if family.isSpecial then parseHost hostText else parseOpaqueHost hostText
  match text with
  | ':' :: r =>
    let (port, text) ← readPort scheme r
    return ({ credentials with host := some host, port := port }, text)
  | _ => return ({ credentials with host := some host }, text)

def afterSlashes (scheme : List Char) (text : List Char) : Except Fault Url := do
  let (authority, text) ← readAuthority scheme text
  let (path, text) := Path.readAfterHost (.ofScheme scheme) text
  return withSuffix { scheme := scheme, authority := some authority, path := path } text

def isAnySlash (c : Char) : Bool := c == '/' || c == '\\'

/-- A file address. Its host ends at a slash or a query mark and may be missing; a drive letter is
no host, and a path that starts with a drive letter has none. -/
def readFile (scheme : List Char) (text : List Char) : Except Fault Url := do
  let finish (host : Option Host) (walked : List Char × List Char) : Url :=
    let host := if Path.startsWithDrive (walked.1.drop 1) then none else host
    withSuffix { scheme := scheme, authority := some { host := host }, path := walked.1 } walked.2
  match text with
  | a :: b :: r =>
    if isAnySlash a && isAnySlash b then
      let hostText := r.takeWhile fun c => !endsAuthority .file c
      let rest := r.dropWhile fun c => !endsAuthority .file c
      if Path.isDrive hostText then return finish none (Path.read .file ['/'] r)
      else if hostText = [] then return finish none (Path.readAfterHost .file rest)
      else
        let host ← parseHost hostText
        let host := if host = .domain "localhost".toList then none else some host
        return finish host (Path.readAfterHost .file rest)
    else if isAnySlash a then return finish none (Path.read .file ['/'] (b :: r))
    else return finish none (Path.read .file ['/'] text)
  | [a] =>
    return finish none (Path.read .file ['/'] (if isAnySlash a then [] else text))
  | [] => return finish none (Path.read .file ['/'] [])

def readOther (scheme : List Char) (text : List Char) : Except Fault Url :=
  match text with
  | '/' :: '/' :: r => afterSlashes scheme r
  | '/' :: r =>
    let walked := Path.read .other ['/'] r
    .ok (withSuffix { scheme := scheme, path := walked.1 } walked.2)
  | _ =>
    let stop (c : Char) : Bool := c != '?' && c != '#'
    let path := Percent.encode Percent.isControl (text.takeWhile stop)
    .ok (withSuffix { scheme := scheme, path := path } (text.dropWhile stop))

def readWithScheme (scheme : List Char) (text : List Char) : Except Fault Url :=
  match Family.ofScheme scheme with
  | .web => afterSlashes scheme (text.dropWhile isAnySlash)
  | .file => readFile scheme text
  | .other => readOther scheme text

def parse (s : List Char) : Except Fault Url :=
  let text := stripped s
  match scheme? text with
  | some (scheme, rest) => readWithScheme scheme rest
  | none => .error .relativeWithoutBase

def readRelative (base : Url) (text : List Char) : Except Fault Url :=
  match text with
  | [] => .ok base.withoutFragment
  | '?' :: _ => .ok (withSuffix base text)
  | '#' :: _ => .ok { base with fragment := (readSuffix base.family text).2 }
  | c :: r =>
    if isAnySlash c then
      if (r.head?.map isAnySlash).getD false then
        match r with
        | '/' :: rest =>
          if c = '/' then afterSlashes base.scheme rest
          else afterSlashes base.scheme (text.dropWhile isAnySlash)
        | _ => afterSlashes base.scheme (text.dropWhile isAnySlash)
      else
        let walked := Path.read base.family ['/'] r
        .ok (withSuffix { base with path := walked.1 } walked.2)
    else
      let kept := (Path.cutLast base.path).1
      let walked := Path.read base.family (if kept = [] then ['/'] else kept) text
      .ok (withSuffix { base with path := walked.1 } walked.2)

def join (base : Url) (s : List Char) : Except Fault Url :=
  let text := stripped s
  match scheme? text with
  | some (scheme, rest) =>
    if scheme = base.scheme && !(isAnySlash (rest.headD ' ') && isAnySlash ((rest.drop 1).headD ' '))
    then readRelative base rest
    else readWithScheme scheme rest
  | none => readRelative base text

theorem parse_nil : parse [] = .error .relativeWithoutBase := rfl

end Herald.Url
