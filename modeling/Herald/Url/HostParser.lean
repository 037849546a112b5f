import Herald.Net.DomainName
import Herald.Url.Basic

/-! Hosts of web addresses. In the schemes with rules of their own a host is a domain name, or an
address in any of its spellings: a name whose last label is a number is read as a narrow address. -/
namespace Herald.Url

open Herald.Text Herald.Net

/-- A number of a narrow address: hexadecimal after 0x, octal after a zero, else decimal. A bare 0x is
zero. -/
def spelledNumber? (s : List Char) : Option Nat :=
  let value (base : Nat) (digits : List Char) : Option Nat :=
    (digits.mapM fun c => (Percent.hexValue? c).filter (· < base)).map fun ds =>
      ds.foldl (fun acc d => acc * base + d) 0
  match s with
  | [] => none
  | '0' :: 'x' :: r => value 16 r
  | '0' :: 'X' :: r => value 16 r
  | '0' :: c :: r => value 8 (c :: r)
  | _ => value 10 s

/-- The label that decides whether a name is a narrow address: the last one, or the one before a
trailing dot. -/
def lastLabel (labels : List (List Char)) : List Char :=
  match labels.reverse with
  | [] :: before :: _ => before
  | last :: _ => last
  | [] => []

def endsInNumber (name : List Char) : Bool :=
  let last := lastLabel (splitAt '.' name)
  (last != [] && last.all isDigit) || (spelledNumber? last).isSome

/-- Up to four numbers; the last one fills all the bytes that are left. -/
def spelledIpv4? (name : List Char) : Option (BitVec 32) := do
  let labels := splitAt '.' name
  let parts := if labels.getLast? = some [] then labels.dropLast else labels
  let numbers ← parts.mapM spelledNumber?
  let last ← numbers.getLast?
  let firsts := numbers.dropLast
  if 3 < firsts.length ∨ Nat.pow 256 (4 - firsts.length) ≤ last ∨ firsts.any (255 < ·) then none
  else
    let high := firsts.foldl (fun acc n => acc * 256 + n) 0
    some (BitVec.ofNat 32 (high * Nat.pow 256 (4 - firsts.length) + last))

def bracketed? (s : List Char) : Option (BitVec 128) :=
  match s with
  | '[' :: r => if r.getLast? = some ']' then Address.v6? r.dropLast else none
  | _ => none

def parseHost (s : List Char) : Except Fault Host :=
  if s.head? = some '[' then
    match bracketed? s with
    | some bits => .ok (.literal (.v6 bits))
    | none => .error .badIpv6
  else
    match DomainName.toAscii? (Percent.decode s) with
    | none => .error .badDomain
    | some name =>
      if name = [] then .error .emptyHost
      else if endsInNumber name then
        match spelledIpv4? name with
        | some bits => .ok (.literal (.v4 bits))
        | none => .error .badIpv4
      else .ok (.domain name)

def isForbiddenInHost (c : Char) : Bool :=
  "\x00\t\n\x0d #/:<>?@[\\]^|".toList.contains c

def parseOpaqueHost (s : List Char) : Except Fault Host :=
  if s.head? = some '[' then
    match bracketed? s with
    | some bits => .ok (.literal (.v6 bits))
    | none => .error .badIpv6
  else if s.any isForbiddenInHost then .error .badHostCharacter
  else .ok (.domain (Percent.encode Percent.isControl s))

end Herald.Url
