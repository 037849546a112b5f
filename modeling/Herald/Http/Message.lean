import Herald.Text.Base64
import Herald.Url.Parser

/-! Requests and responses. User name and password of an address are not sent with it but become a
header of the request. -/
namespace Herald.Http

open Herald.Text

inductive Method
  | get
  | post
  deriving DecidableEq, Repr

def Method.name : Method → String
  | .get => "GET"
  | .post => "POST"

structure Request where
  method : Method
  url : Url
  contentType : Option String := none
  authorization : Option String := none
  body : List Char := []
  deriving DecidableEq, Repr

structure Response where
  status : Nat
  location : Option (List UInt8) := none
  body : List (List UInt8) := []
  deriving DecidableEq, Repr

def Response.isSuccess (r : Response) : Bool := 200 ≤ r.status && r.status < 300

/-- The user name and password of an address as text. A user name that is no text leaves the address as
it is. -/
def credentials? (u : Url) : Option (List Char × Option (List Char)) :=
  u.authority.bind fun a =>
    (Utf8.decode? (Percent.decode a.username)).bind fun username =>
      let password := a.password.bind fun p => Utf8.decode? (Percent.decode p)
      if username = [] ∧ password = none then none else some (username, password)

def basic (username : List Char) (password : Option (List Char)) : String :=
  String.ofList ("Basic ".toList ++
    Base64.encode (Utf8.encode (username ++ ':' :: password.getD [])))

def Request.to (method : Method) (u : Url) (contentType : Option String := none)
    (body : List Char := []) : Request :=
  match credentials? u with
  | some (username, password) =>
    ⟨method, u.withoutCredentials, contentType, some (basic username password), body⟩
  | none => ⟨method, u, contentType, none, body⟩

def isWeb (u : Url) : Bool := u.scheme = "http".toList || u.scheme = "https".toList

theorem isSuccess_iff (r : Response) : r.isSuccess = true ↔ 200 ≤ r.status ∧ r.status < 300 := by
  simp [Response.isSuccess]

end Herald.Http
