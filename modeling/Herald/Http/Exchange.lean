import Herald.Guard
import Herald.Http.Library
import Herald.Http.Talk

/-! A request with the redirects that its responses ask for. A guarded client judges every redirect before it
follows it, and the addresses of every name before it connects to one; a plain client leaves both to its library. -/
namespace Herald.Http

inductive Protection
  | guarded
  | plain
  deriving DecidableEq, Repr

structure Client where
  protection : Protection
  library : Library

namespace Client

def guarded (library : Library := .usual) : Client := ⟨.guarded, library⟩

def plain (library : Library := .usual) : Client := ⟨.plain, library⟩

def policy (client : Client) (previous : List Url) (u : Url) : Except Cause Unit :=
  match client.protection with
  | .guarded => Guard.redirectPolicy previous u
  | .plain => client.library.redirectPolicy previous

def resolve (client : Client) (answer : Guard.Answer) : Except Guard.Unresolved (List Net.Address) :=
  match client.protection with
  | .guarded => Guard.resolve answer
  | .plain => answer.mapError .lookup

/-- A connection for a request. Only names are looked up. -/
def connect (client : Client) (request : Request) (found : Option Guard.Answer) : Except ClientError Unit :=
  match request.url.host, found with
  | some (.domain _), some answer =>
    match client.resolve answer with
    | .ok _ => .ok ()
    | .error unresolved =>
      .error ⟨.sending request.url.text, some (client.library.wrap unresolved.cause)⟩
  | _, _ => .ok ()

/-- More addresses than this are never requested before a redirect that is followed. -/
def longest (client : Client) : Nat := max Guard.maxRedirects client.library.redirects

theorem length_le_of_policy {client : Client} {previous : List Url} {u : Url}
    (permitted : client.policy previous u = .ok ()) : previous.length ≤ client.longest := by
  unfold policy at permitted
  cases protection : client.protection with
  | guarded =>
    rw [protection] at permitted
    simp only [Guard.redirectPolicy] at permitted
    split at permitted
    · cases permitted
    · next few => exact Nat.le_trans (Nat.le_of_not_le few) (Nat.le_max_left ..)
  | plain =>
    rw [protection] at permitted
    simp only [Library.redirectPolicy] at permitted
    split at permitted
    · cases permitted
    · next few => exact Nat.le_trans (Nat.le_of_not_lt few) (Nat.le_max_right ..)

theorem room_lt_of_policy {client : Client} {previous : List Url} {visited u : Url}
    (permitted : client.policy (previous ++ [visited]) u = .ok ()) :
    client.longest + 1 - (previous ++ [visited]).length < client.longest + 1 - previous.length := by
  have few := length_le_of_policy permitted
  rw [List.length_append, List.length_singleton] at few ⊢
  omega

end Client

/-- Sends a request and follows redirects, given the addresses that led to it; `next` gets the last response, or
why there is none. -/
def exchange (client : Client) (previous : List Url) (request : Request)
    (next : Except Failure Response → Talk) : Talk :=
  if !client.library.canBuild request.url then
    next (.error (ClientError.failure ⟨.building request.url.text, none⟩))
  else .connect request fun found =>
    match client.connect request found with
    | .error e => next (.error e.failure)
    | .ok () => .send request fun answer =>
      match answer with
      | none => next (.error (ClientError.failure ⟨.sending request.url.text, none⟩))
      | some response =>
        match client.library.redirect? response request.url with
        | none => next (.ok response)
        | some u =>
          match _permitted : client.policy (previous ++ [request.url]) u with
          | .error cause =>
            next (.error (ClientError.failure ⟨.redirecting request.url.text, some cause⟩))
          | .ok () =>
            exchange client (previous ++ [request.url]) (request.redirected response.status u) next
-- the policy lets a redirect pass only while few addresses have been requested
termination_by client.longest + 1 - previous.length
decreasing_by exact Client.room_lt_of_policy _permitted

def Client.react (client : Client) (previous : List Url) (request : Request)
    (next : Except Failure Response → Talk) (answer : Option Response) : Talk :=
  match answer with
  | none => next (.error (ClientError.failure ⟨.sending request.url.text, none⟩))
  | some response =>
    match client.library.redirect? response request.url with
    | none => next (.ok response)
    | some u =>
      match client.policy (previous ++ [request.url]) u with
      | .error cause => next (.error (ClientError.failure ⟨.redirecting request.url.text, some cause⟩))
      | .ok () =>
        exchange client (previous ++ [request.url]) (request.redirected response.status u) next

theorem exchange_eq (client : Client) (previous : List Url) (request : Request)
    (next : Except Failure Response → Talk) : exchange client previous request next =
      if !client.library.canBuild request.url then
        next (.error (ClientError.failure ⟨.building request.url.text, none⟩))
      else .connect request fun found =>
        match client.connect request found with
        | .error e => next (.error e.failure)
        | .ok () => .send request (client.react previous request next) := by
  rw [exchange]
  congr 2
  funext found
  congr 1
  funext _
  congr 1
  funext answer
  unfold Client.react
  congr 1
  funext response
  congr 1
  funext u
  cases client.policy (previous ++ [request.url]) u <;> rfl

/-- What holds of a chain wherever it still holds after another redirect holds of every chain. -/
theorem Client.policy_induction (client : Client) {motive : List Url → Prop}
    (step : ∀ previous,
      (∀ visited u, client.policy (previous ++ [visited]) u = .ok () → motive (previous ++ [visited])) →
        motive previous) (previous : List Url) : motive previous :=
  step previous fun visited _ _permitted => client.policy_induction step (previous ++ [visited])
termination_by client.longest + 1 - previous.length
decreasing_by exact Client.room_lt_of_policy _permitted

def Client.send (client : Client) (request : Request) (next : Except Failure Response → Talk) :
    Talk :=
  exchange client [] request next

end Herald.Http
