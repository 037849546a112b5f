import Herald.Net.Address

/-! Web addresses as records: what stands before the path, the path as written, and the optional query
and fragment. A record prints as one text, its address in full. -/
namespace Herald

open Herald.Text Herald.Net

inductive Host
  | domain (name : List Char)
  | literal (address : Address)
  deriving DecidableEq, Repr

/-- A wide address stands in brackets, always in groups. -/
def Host.text : Host → List Char
  | .domain name => name
  | .literal (.v4 bits) => Address.dotted bits
  | .literal (.v6 bits) => '[' :: Address.shortened bits ++ [']']

/-- User name and password are kept in their encoded form; a password is never empty. -/
structure Authority where
  username : List Char := []
  password : Option (List Char) := none
  host : Option Host := none
  port : Option Nat := none
  deriving DecidableEq, Repr

structure Url where
  scheme : List Char
  authority : Option Authority := none
  path : List Char := []
  query : Option (List Char) := none
  fragment : Option (List Char) := none
  deriving DecidableEq, Repr

namespace Url

inductive Fault
  | relativeWithoutBase
  | emptyHost
  | badDomain
  | badPort
  | badIpv4
  | badIpv6
  | badHostCharacter
  deriving DecidableEq, Repr

def Fault.message : Fault → String
  | .relativeWithoutBase => "relative URL without a base"
  | .emptyHost => "empty host"
  | .badDomain => "invalid international domain name"
  | .badPort => "invalid port number"
  | .badIpv4 => "invalid IPv4 address"
  | .badIpv6 => "invalid IPv6 address"
  | .badHostCharacter => "invalid domain character"

/-- Schemes with rules of their own: backslashes are slashes, hosts are names or addresses, and the
path is never empty. -/
inductive Family
  | web
  | file
  | other
  deriving DecidableEq, Repr

def Family.ofScheme (scheme : List Char) : Family :=
  if ["http", "https", "ws", "wss", "ftp"].contains (String.ofList scheme) then .web
  else if scheme = "file".toList then .file
  else .other

def Family.isSpecial (f : Family) : Bool := f != .other

/-- The port that a scheme implies, which an address therefore leaves out. -/
def defaultPort (scheme : List Char) : Option Nat :=
  match String.ofList scheme with
  | "http" => some 80
  | "ws" => some 80
  | "https" => some 443
  | "wss" => some 443
  | "ftp" => some 21
  | _ => none

def family (u : Url) : Family := .ofScheme u.scheme

def host (u : Url) : Option Host := u.authority.bind Authority.host

def port (u : Url) : Option Nat := u.authority.bind Authority.port

def hostText (u : Url) : Option (List Char) := u.host.map Host.text

def effectivePort (u : Url) : Option Nat := u.port <|> defaultPort u.scheme

/-- Without authority and leading slash the path is one opaque text that no address is relative to. -/
def isOpaque (u : Url) : Bool := u.authority.isNone && u.path.head? != some '/'

def portText (port : Option Nat) : List Char :=
  match port with
  | some p => ':' :: natDigits p
  | none => []

def Authority.credentials (a : Authority) : List Char :=
  let password := match a.password with
    | some p => ':' :: p
    | none => []
  if a.username = [] ∧ a.password = none then [] else a.username ++ password ++ ['@']

def authorityText (a : Authority) : List Char :=
  Authority.credentials a ++ ((a.host.map Host.text).getD []) ++ portText a.port

/-- What stands between the scheme and the path. A path that starts with two slashes and has no
authority before it is kept from reading as one. -/
def beforePath (u : Url) : List Char :=
  match u.authority with
  | some a => '/' :: '/' :: authorityText a
  | none => if "//".toList.isPrefixOf u.path then ['/', '.'] else []

def suffixText (mark : Char) (part : Option (List Char)) : List Char :=
  match part with
  | some text => mark :: text
  | none => []

def href (u : Url) : List Char :=
  u.scheme ++ ':' :: u.beforePath ++ u.path ++ suffixText '?' u.query ++ suffixText '#' u.fragment

def text (u : Url) : String := String.ofList u.href

def withoutCredentials (u : Url) : Url :=
  { u with authority := u.authority.map fun a => { a with username := [], password := none } }

def withoutFragment (u : Url) : Url := { u with fragment := none }

end Url

end Herald
