import Herald.Failure
import Herald.Http.Message

/-! What a client takes over from the library that it is built on. Its limits are parameters: what holds of
clients holds for every library. -/
namespace Herald.Http

open Herald.Text

structure Library where
  /-- There can be a request for the address. -/
  writes : Url → Bool
  /-- How many redirects are followed where nothing else is said. -/
  redirects : Nat := 10
  /-- The errors around the one with which a connection fails, the outermost first. -/
  wraps : List String := ["client error (Connect)", "dns error"]

def asksForRedirect (status : Nat) : Bool := [301, 302, 303, 307, 308].contains status

namespace Library

def canBuild (l : Library) (u : Url) : Bool := isWeb u && l.writes u

def wrap (l : Library) (cause : Cause) : Cause := l.wraps.foldr .within cause

def redirectPolicy (l : Library) (previous : List Url) : Except Cause Unit :=
  if l.redirects < previous.length then .error (.stated "too many redirects") else .ok ()

/-- Where a response to a request for an address redirects to. A location that no request could be written for
is passed over. -/
def redirect? (l : Library) (r : Response) (u : Url) : Option Url :=
  if asksForRedirect r.status then
    ((r.location.bind Utf8.decode?).bind fun text => (Url.join u text).toOption).filter l.writes
  else none

/-- The limits that the program runs with. An address is written as a whole, and some characters that a host may
hold are not. -/
def usual : Library where
  writes u := u.href.length ≤ 65534 && !(u.hostText.getD []).any "\x22\x60\x7b\x7d".toList.contains &&
    (match u.authority with
      | some a => a.host.isSome
      | none => u.isOpaque && !u.path.contains '/' && u.query.isNone)

end Library

/-- The next request of a redirect. Two statuses repeat the request; the others ask for the new address
without a body. The authorization only goes to the same host and port. -/
def Request.redirected (r : Request) (status : Nat) (u : Url) : Request :=
  let same := u.host = r.url.host && u.effectivePort = r.url.effectivePort
  let authorization := if same then r.authorization else none
  if status = 307 ∨ status = 308 then { r with url := u, authorization := authorization }
  else ⟨.get, u, none, authorization, []⟩

end Herald.Http
