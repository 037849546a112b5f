import Herald.Failure
import Herald.Url.Parser

/-! Which targets may be contacted. Only http and https addresses with a host pass, and none of the
addresses behind the host may lie in a loopback, private, link-local or unspecified range. -/
namespace Herald.Guard

open Herald.Net Herald.Text

def target? (target : String) : Except Objection Url :=
  if allBlank target then .error .emptyTarget
  else match Url.parse (trim target.toList) with
    | .ok u => .ok u
    | .error fault => .error (.badTarget fault)

def isDisallowedV4 (bits : BitVec 32) : Bool :=
  let a := Address.octet bits 0
  let b := Address.octet bits 1
  a == 127 || a == 10 || (a == 172 && 16 ≤ b && b ≤ 31) || (a == 192 && b == 168) ||
    (a == 169 && b == 254) || bits == 0

def isDisallowedV6 (bits : BitVec 128) : Bool :=
  let first := Address.group bits 0
  bits == 1 || bits == 0 || first / 512 == 0xFC00 / 512 || first / 64 == 0xFE80 / 64

/-- A mapped address counts as the narrow address that it maps. -/
def isDisallowed : Address → Bool
  | .v4 bits => isDisallowedV4 bits
  | .v6 bits =>
    match Address.mapped? bits with
    | some low => isDisallowedV4 low
    | none => isDisallowedV6 bits

def checkScheme (u : Url) : Except Objection Unit :=
  if u.scheme = "http".toList || u.scheme = "https".toList then .ok ()
  else .error (.scheme (String.ofList u.scheme))

/-- There is an address, and every address is allowed; the first that is not is named. -/
def checkAddresses (addresses : List Address) : Except Objection Unit :=
  if addresses = [] then .error .noAddresses
  else match addresses.find? isDisallowed with
    | some a => .error (.address a)
    | none => .ok ()

abbrev Answer := Except String (List Address)

/-- The check before a request, given what looking the host's name up gives. -/
def check (u : Url) (answer : Answer) : Except Objection Unit := do
  checkScheme u
  match u.host with
  | none => .error .noHost
  | some (.literal a) => checkAddresses [a]
  | some (.domain name) =>
    if name = [] then .error .noHost
    else match answer with
      | .error reason => .error (.lookup reason)
      | .ok addresses => checkAddresses addresses

/-- The check of a redirect, which looks no name up. -/
def checkRedirect (u : Url) : Except Objection Unit := do
  checkScheme u
  match u.host with
  | none => .error .noHost
  | some (.literal a) => checkAddresses [a]
  | some (.domain name) => if name = [] then .error .noHost else .ok ()

def maxRedirects : Nat := 10

/-- The policy on a redirect, given the addresses that were requested already, the very first one included. -/
def redirectPolicy (previous : List Url) (u : Url) : Except Cause Unit :=
  if maxRedirects ≤ previous.length then .error (.stated "too many redirects")
  else (checkRedirect u).mapError .disallowed

inductive Unresolved
  | lookup (reason : String)
  | disallowed (objection : Objection)

def Unresolved.cause : Unresolved → Cause
  | lookup reason => .stated reason
  | disallowed objection => .disallowed objection

/-- The addresses to connect to, given what looking the name up gives. -/
def resolve (answer : Answer) : Except Unresolved (List Address) :=
  match answer with
  | .error reason => .error (.lookup reason)
  | .ok addresses =>
    match checkAddresses addresses with
    | .ok () => .ok addresses
    | .error objection => .error (.disallowed objection)

end Herald.Guard
