import Herald.Http.Exchange
import Herald.Proofs.Guard

/-! Which requests a conversation can send at all. A property that every request of it has, whatever the
peer answers, holds of the requests of each single run. The redirects of a guarded client lead to safe
addresses only. -/
namespace Herald.Http

/-- Every request has a property, whatever the answers to requests are; the guard is fixed. -/
def Talk.SendsOnly (guard : Url → Review) (P : Request → Prop) : Talk → Prop
  | .done _ => True
  | .crashed _ => True
  | .pause _ next => next.SendsOnly guard P
  | .check u next => (next (guard u).verdict).SendsOnly guard P
  | .connect _ next => ∀ found, (next found).SendsOnly guard P
  | .send request next => P request ∧ ∀ answer, (next answer).SendsOnly guard P

theorem Talk.SendsOnly.converse {world : World} {P : Request → Prop} {talk : Talk}
    {sent : List Request} (only : talk.SendsOnly world.guard P) (before : ∀ r ∈ sent, P r) :
    ∀ r ∈ (talk.converse world sent).requests, P r := by
  induction talk generalizing sent with
  | done => exact before
  | crashed => exact before
  | pause _ _ ih => exact ih only before
  | check u _ ih => exact ih _ only before
  | connect request _ ih => exact ih _ (only _) before
  | send request next ih =>
    obtain ⟨here, later⟩ := only
    have sofar : ∀ r ∈ request :: sent, P r := by
      intro r mem
      rcases List.mem_cons.1 mem with rfl | mem
      · exact here
      · exact before r mem
    exact ih _ (later _) sofar

def Request.IsSafe (r : Request) : Prop := r.url.IsSafe

theorem Request.isSafe_to {u : Url} (safe : u.IsSafe) (method : Method)
    (contentType : Option String) (body : List Char) :
    (Request.to method u contentType body).IsSafe := by
  unfold Request.to
  split
  · refine safe.congr rfl ?_
    cases h : u.authority <;> simp [Url.host, Url.withoutCredentials, h]
  · exact safe

theorem Request.url_redirected (r : Request) (status : Nat) (u : Url) :
    (r.redirected status u).url = u := by
  unfold Request.redirected
  split <;> rfl

theorem isSettled_of_redirect? {library : Library} {response : Response} {base u : Url}
    (settled : base.IsSettled) (asked : library.redirect? response base = some u) : u.IsSettled := by
  unfold Library.redirect? at asked
  split at asked
  · have found := (Option.filter_eq_some_iff.1 asked).1
    obtain ⟨text, -, joined⟩ := Option.bind_eq_some_iff.1 found
    cases h : Url.join base text with
    | error => simp [h, Except.toOption] at joined
    | ok v =>
      rw [h] at joined
      cases joined
      exact Url.isSettled_of_join settled h
  · cases asked

namespace Client

variable {library : Library} {guard : Url → Review} {request : Request}
  {next : Except Failure Response → Talk}

theorem sendsOnly_exchange {previous : List Url} (safe : request.IsSafe)
    (after : ∀ answer, (next answer).SendsOnly guard Request.IsSafe) :
    (exchange (guarded library) previous request next).SendsOnly guard Request.IsSafe := by
  -- by induction on the redirects that the policy still permits
  induction previous using (guarded library).policy_induction generalizing request with
  | step previous ih =>
    rw [exchange_eq]
    split
    · exact after _
    · intro found
      dsimp only
      split
      · exact after _
      · refine ⟨safe, fun answer => ?_⟩
        unfold react
        split
        · exact after _
        · split
          · exact after _
          · next u asked =>
            split
            · exact after _
            · next permitted =>
              have settled : u.IsSettled := isSettled_of_redirect? safe.isSettled asked
              have passed := (Guard.redirectPolicy_eq_ok_iff.1 permitted).2
              refine ih request.url u permitted ?_
              unfold Request.IsSafe
              rw [Request.url_redirected]
              exact (Guard.checkRedirect_eq_ok_iff settled).1 passed

theorem sendsOnly_send (safe : request.IsSafe)
    (after : ∀ answer, (next answer).SendsOnly guard Request.IsSafe) :
    ((guarded library).send request next).SendsOnly guard Request.IsSafe :=
  sendsOnly_exchange safe after

end Client

end Herald.Http
