import Herald.Proofs.Http.Chain

/-! What a guarded client does not let through. A redirect to an address that may not be contacted, and a name that
stands for such an address when a connection is made, end the exchange with the objection of the guard, behind
whatever errors of the library; and no exchange ends with an objection otherwise. -/
namespace Herald.Http

@[simp] theorem Library.objection?_wrap (library : Library) (cause : Cause) :
    (library.wrap cause).objection? = cause.objection? := by
  unfold Library.wrap
  induction library.wraps with
  | nil => rfl
  | cons text wraps ih => exact ih

theorem failure_eq_validation_iff {fault : TransportFault} {cause : Cause} {objection : Objection} :
    ClientError.failure ⟨fault, some cause⟩ = .validation objection ↔ cause.objection? = some objection := by
  rw [ClientError.failure_of_some]
  cases cause.objection? <;> simp

theorem Guard.objection?_cause_iff {unresolved : Guard.Unresolved} {objection : Objection} :
    unresolved.cause.objection? = some objection ↔ unresolved = .disallowed objection := by
  cases unresolved <;> simp [Guard.Unresolved.cause, Cause.objection?]

namespace Client

variable {client : Client} {world : World} {previous : List Url} {sent made redirects : List Request}
  {request : Request} {objection : Objection} {answer : Except Failure Response} {response : Response} {u : Url}

/-- Somewhere on the chain of a request the guard of the client stands in the way, given the addresses that led to
the request and the requests before it: the name of a host stands for an address that may not be contacted, or the
answer redirects to such an address. -/
inductive Blocked (client : Client) (world : World) :
    List Url → List Request → Request → Objection → Prop
  | connection {previous : List Url} {sent : List Request} {request : Request} {name : List Char}
      {found : Guard.Answer} {objection : Objection} :
    client.protection = .guarded → client.library.canBuild request.url = true →
    request.url.host = some (.domain name) → world.lookUp sent request = some found →
    Guard.resolve found = .error (.disallowed objection) →
    Blocked client world previous sent request objection
  | redirect {previous : List Url} {sent : List Request} {request : Request} {response : Response} {u : Url}
      {objection : Objection} :
    client.protection = .guarded → client.ready world sent request = .ok () →
    world.peer sent request = some response → client.library.redirect? response request.url = some u →
    (previous ++ [request.url]).length < Guard.maxRedirects → Guard.checkRedirect u = .error objection →
    Blocked client world previous sent request objection
  | later {previous : List Url} {sent : List Request} {request : Request} {response : Response} {u : Url}
      {objection : Objection} :
    client.ready world sent request = .ok () →
    world.peer sent request = some response → client.library.redirect? response request.url = some u →
    client.policy (previous ++ [request.url]) u = .ok () →
    Blocked client world (previous ++ [request.url]) (request :: sent)
      (request.redirected response.status u) objection →
    Blocked client world previous sent request objection

theorem resolve_eq_disallowed_iff {found : Guard.Answer} :
    client.resolve found = .error (.disallowed objection) ↔
      client.protection = .guarded ∧ Guard.resolve found = .error (.disallowed objection) := by
  unfold resolve
  cases client.protection with
  | guarded => simp
  | plain => cases found <;> simp [Except.mapError]

theorem policy_objects_iff :
    (∃ cause, client.policy previous u = .error cause ∧ cause.objection? = some objection) ↔
      client.protection = .guarded ∧ previous.length < Guard.maxRedirects ∧
        Guard.checkRedirect u = .error objection := by
  unfold policy
  cases client.protection with
  | guarded => simpa using Guard.redirectPolicy_objects_iff
  | plain =>
    simp only [Library.redirectPolicy, reduceCtorEq, false_and, iff_false]
    rintro ⟨cause, refused, objects⟩
    split at refused
    · cases refused
      cases objects
    · cases refused

theorem connect_eq_validation_iff {found : Option Guard.Answer} :
    (client.connect request found).mapError ClientError.failure = .error (.validation objection) ↔
      ∃ name answer, request.url.host = some (.domain name) ∧ found = some answer ∧
        client.resolve answer = .error (.disallowed objection) := by
  unfold connect
  split
  · next name answer host =>
    cases resolved : client.resolve answer with
    | ok _ => simp [host, resolved, Except.mapError]
    | error unresolved =>
      simp only [Except.mapError, Except.error.injEq, failure_eq_validation_iff, Library.objection?_wrap,
        Guard.objection?_cause_iff]
      simp [host, resolved]
  · next other =>
    simp only [Except.mapError, reduceCtorEq, false_iff]
    rintro ⟨name, answer, host, found, -⟩
    exact other name answer host found

theorem ready_eq_validation_iff : client.ready world sent request = .error (.validation objection) ↔
    client.protection = .guarded ∧ client.library.canBuild request.url = true ∧ ∃ name found,
      request.url.host = some (.domain name) ∧ world.lookUp sent request = some found ∧
        Guard.resolve found = .error (.disallowed objection) := by
  unfold ready
  split
  · next builds =>
    rw [connect_eq_validation_iff]
    simp only [resolve_eq_disallowed_iff, builds, true_and]
    grind
  · next unwritten => simp [unwritten]

theorem blocked_of_ready (refused : client.ready world sent request = .error (.validation objection)) :
    client.Blocked world previous sent request objection := by
  obtain ⟨guarded, builds, name, found, host, looked, fails⟩ := ready_eq_validation_iff.1 refused
  exact .connection guarded builds host looked fails

theorem Follows.blocked (follows : client.Follows world previous sent request redirects
    (some (.error (.validation objection)))) (ready : client.ready world sent request = .ok ()) :
    client.Blocked world previous sent request objection := by
  generalize found : some (Except.error (Failure.validation objection)) = end_ at follows
  induction follows with
  | waits => cases found
  | fails => cases found
  | answers => cases found
  | @barred _ _ _ _ u cause answered asked refused =>
    have fails := Except.error.inj (Option.some.inj found)
    have objects := failure_eq_validation_iff.1 fails.symm
    obtain ⟨guarded, few, checked⟩ := policy_objects_iff.1 ⟨cause, refused, objects⟩
    exact .redirect guarded ready answered asked few checked
  | unsent answered asked permitted refused =>
    cases found
    exact .later ready answered asked permitted (blocked_of_ready refused)
  | redirects answered asked permitted onward _ ih =>
    exact .later ready answered asked permitted (ih onward found)

theorem Blocked.ends (blocked : client.Blocked world previous sent request objection) :
    client.ready world sent request = .error (.validation objection) ∨
      client.ready world sent request = .ok () ∧ ∀ redirects answer,
        client.Follows world previous sent request redirects (some answer) →
          answer = .error (.validation objection) := by
  induction blocked with
  | connection guarded builds host looked fails =>
    exact .inl (ready_eq_validation_iff.2 ⟨guarded, builds, _, _, host, looked, fails⟩)
  | redirect guarded ready answered asked few checked =>
    refine .inr ⟨ready, fun redirects answer follows => ?_⟩
    obtain ⟨cause, refused, objects⟩ := policy_objects_iff.2 ⟨guarded, few, checked⟩
    rcases follows.of_redirect answered asked with ⟨other, policy, rfl⟩ | ⟨permitted, -⟩
    · cases refused.symm.trans policy
      rw [failure_eq_validation_iff.2 objects]
    · cases refused.symm.trans permitted
  | later ready answered asked permitted _ ih =>
    refine .inr ⟨ready, fun redirects answer follows => ?_⟩
    rcases follows.of_redirect answered asked with
      ⟨cause, refused, -⟩ | ⟨-, ⟨failure, refused, rfl⟩ | ⟨onward, more, follows⟩⟩
    · cases permitted.symm.trans refused
    · rcases ih with kept | ⟨onward, -⟩
      · exact congrArg Except.error (Except.error.inj (refused.symm.trans kept))
      · cases refused.symm.trans onward
    · rcases ih with kept | ⟨-, ends⟩
      · cases onward.symm.trans kept
      · exact ends _ _ follows

end Client

end Herald.Http
