import Herald.Proofs.Delivery.Run
import Herald.Proofs.Http.Traffic

/-! Chains of requests: a request and the redirects that a client follows from it. In an exchange a client
sends a single chain, and what the exchange goes on with is the answer at the end of the chain. -/
namespace Herald.Http

/-- A request, the requests it was redirected to, and what came of them in the end, if that is known. -/
structure Chain where
  first : Request
  redirects : List Request := []
  answer : Option (Except Failure Response) := none

def Chain.requests (c : Chain) : List Request := c.first :: c.redirects

def Client.ready (client : Client) (world : World) (sent : List Request) (request : Request) :
    Except Failure Unit :=
  if client.library.canBuild request.url then
    (client.connect request (world.lookUp sent request)).mapError ClientError.failure
  else .error (.http (.building request.url.text))

/-- From a request a client follows these redirects, given the addresses that led to it and the requests before
it, the last one first. As long as a response is waited for there is no answer. -/
inductive Client.Follows (client : Client) (world : World) :
    List Url → List Request → Request → List Request → Option (Except Failure Response) → Prop
  | waits {previous : List Url} {sent : List Request} {request : Request} :
    Follows client world previous sent request [] none
  | fails {previous : List Url} {sent : List Request} {request : Request} :
    world.peer sent request = none →
    Follows client world previous sent request [] (some (.error (.http (.sending request.url.text))))
  | answers {previous : List Url} {sent : List Request} {request : Request} {response : Response} :
    world.peer sent request = some response → client.library.redirect? response request.url = none →
    Follows client world previous sent request [] (some (.ok response))
  | barred {previous : List Url} {sent : List Request} {request : Request} {response : Response} {u : Url}
      {cause : Cause} :
    world.peer sent request = some response → client.library.redirect? response request.url = some u →
    client.policy (previous ++ [request.url]) u = .error cause →
    Follows client world previous sent request []
      (some (.error (ClientError.failure ⟨.redirecting request.url.text, some cause⟩)))
  | unsent {previous : List Url} {sent : List Request} {request : Request} {response : Response} {u : Url}
      {failure : Failure} :
    world.peer sent request = some response → client.library.redirect? response request.url = some u →
    client.policy (previous ++ [request.url]) u = .ok () →
    client.ready world (request :: sent) (request.redirected response.status u) = .error failure →
    Follows client world previous sent request [] (some (.error failure))
  | redirects {previous : List Url} {sent : List Request} {request : Request} {response : Response} {u : Url}
      {more : List Request} {answer : Option (Except Failure Response)} :
    world.peer sent request = some response → client.library.redirect? response request.url = some u →
    client.policy (previous ++ [request.url]) u = .ok () →
    client.ready world (request :: sent) (request.redirected response.status u) = .ok () →
    Follows client world (previous ++ [request.url]) (request :: sent)
      (request.redirected response.status u) more answer →
    Follows client world previous sent request (request.redirected response.status u :: more) answer

/-- Chains that are sent one after another, given the requests before them. Only the last one may still
wait for its answer. -/
def Chain.InTurn (client : Client) (world : World) : List Request → List Chain → Prop
  | _, [] => True
  | sent, c :: rest =>
    client.ready world sent c.first = .ok () ∧
      client.Follows world [] sent c.first c.redirects c.answer ∧
      (rest ≠ [] → c.answer.isSome) ∧ InTurn client world (c.requests.reverse ++ sent) rest

/-- A conversation makes these requests, given those before it, and goes on as another one. -/
inductive Talk.Reaches (world : World) : List Request → Talk → List Request → Talk → Prop
  | refl {sent : List Request} {talk : Talk} : Reaches world sent talk [] talk
  | connect {sent made : List Request} {request : Request} {next : Option Guard.Answer → Talk} {talk : Talk} :
    Reaches world sent (next (world.lookUp sent request)) made talk →
    Reaches world sent (.connect request next) made talk
  | send {sent made : List Request} {request : Request} {next : Option Response → Talk} {talk : Talk} :
    Reaches world (request :: sent) (next (world.peer sent request)) made talk →
    Reaches world sent (.send request next) (request :: made) talk

variable {client : Client} {world : World} {previous : List Url} {sent made : List Request} {request : Request}
  {next : Except Failure Response → Talk}

namespace Talk.Reaches

variable {talk later : Talk}

theorem converse (reaches : talk.Reaches world sent made later) :
    talk.converse world sent = later.converse world (made.reverse ++ sent) := by
  induction reaches with
  | refl => rfl
  | connect _ ih => exact ih
  | send _ ih => rw [Talk.converse, ih, List.reverse_cons, List.append_assoc]; rfl

theorem deeds (reaches : talk.Reaches world sent made later) : (talk.course world sent).deeds =
    made.map .sent ++ (later.course world (made.reverse ++ sent)).deeds := by
  induction reaches with
  | refl => rfl
  | connect _ ih => simp only [course, Course.deeds_turnIf, ih]
  | send _ ih =>
    simp only [course, Course.deeds, Course.deeds_turnIf, ih, List.map_cons, List.cons_append,
      List.reverse_cons, List.append_assoc, List.nil_append]

theorem result (reaches : talk.Reaches world sent made later) :
    (talk.course world sent).result = (later.course world (made.reverse ++ sent)).result := by
  rw [result_course, result_course, reaches.converse]

end Talk.Reaches

namespace Client

theorem ready_eq_ok_iff : client.ready world sent request = .ok () ↔
    client.library.canBuild request.url = true ∧
      client.connect request (world.lookUp sent request) = .ok () := by
  unfold ready
  split
  · next builds => cases client.connect request (world.lookUp sent request) <;> simp [builds, Except.mapError]
  · next unwritten => simp [unwritten]

theorem reaches_of_ready (ready : client.ready world sent request = .ok ()) {talk : Talk}
    (onward : (client.react previous request next (world.peer sent request)).Reaches world (request :: sent)
      made talk) :
    (exchange client previous request next).Reaches world sent (request :: made) talk := by
  obtain ⟨builds, connected⟩ := ready_eq_ok_iff.1 ready
  rw [exchange_eq, builds, if_neg (by simp)]
  refine .connect ?_
  rw [connected]
  exact .send onward

theorem reaches_of_not_ready {failure : Failure} (refused : client.ready world sent request = .error failure) :
    (exchange client previous request next).Reaches world sent [] (next (.error failure)) := by
  unfold ready at refused
  rw [exchange_eq]
  split at refused
  · next builds =>
    rw [builds, if_neg (by simp)]
    refine .connect ?_
    cases connected : client.connect request (world.lookUp sent request) with
    | ok _ => rw [connected] at refused; cases refused
    | error e =>
      rw [connected] at refused
      cases refused
      exact .refl
  · next unwritten =>
    cases refused
    rw [if_pos (by simpa using unwritten)]
    exact .refl

theorem ready_cases (client : Client) (world : World) (sent : List Request) (request : Request) :
    client.ready world sent request = .ok () ∨
      ∃ failure, client.ready world sent request = .error failure := by
  cases client.ready world sent request with
  | ok _ => exact .inl rfl
  | error failure => exact .inr ⟨failure, rfl⟩

theorem exists_error_of_ready {failure : Failure} (refused : client.ready world sent request = .error failure) :
    ∃ e : ClientError, e.failure = failure := by
  unfold ready at refused
  split at refused
  · cases connected : client.connect request (world.lookUp sent request) with
    | ok _ => rw [connected] at refused; cases refused
    | error e =>
      rw [connected] at refused
      exact ⟨e, Except.error.inj refused⟩
  · exact ⟨⟨.building request.url.text, none⟩, Except.error.inj refused⟩

namespace Follows

variable {redirects : List Request} {answer : Except Failure Response}

theorem cut {answer : Option (Except Failure Response)}
    (follows : client.Follows world previous sent request redirects answer) {part : List Request}
    (front : part <+: redirects) : client.Follows world previous sent request part none := by
  induction follows generalizing part with
  | redirects answered asked permitted ready _ ih =>
    rcases List.prefix_cons_iff.1 front with rfl | ⟨_, rfl, within⟩
    · exact .waits
    · exact .redirects answered asked permitted ready (ih within)
  | _ =>
    obtain rfl : part = [] := List.prefix_nil.1 front
    exact .waits

/-- An exchange sends its chain and goes on with the answer at the end of it. -/
theorem reaches (follows : client.Follows world previous sent request redirects (some answer))
    (ready : client.ready world sent request = .ok ()) (next : Except Failure Response → Talk) :
    (exchange client previous request next).Reaches world sent (request :: redirects) (next answer) := by
  generalize found : some answer = end_ at follows
  induction follows with
  | waits => cases found
  | fails answered =>
    cases found
    refine reaches_of_ready ready ?_
    simp only [react, answered]
    exact .refl
  | answers answered asked =>
    cases found
    refine reaches_of_ready ready ?_
    simp only [react, answered, asked]
    exact .refl
  | barred answered asked refused =>
    cases found
    refine reaches_of_ready ready ?_
    simp only [react, answered, asked, refused]
    exact .refl
  | unsent answered asked permitted refused =>
    cases found
    refine reaches_of_ready ready ?_
    simp only [react, answered, asked, permitted]
    exact reaches_of_not_ready refused
  | redirects answered asked permitted onward _ ih =>
    refine reaches_of_ready ready ?_
    simp only [react, answered, asked, permitted]
    exact ih onward found

/-- A chain whose first response redirects ends with what keeps the client from following, or is that of the next
request from there on. -/
theorem of_redirect {response : Response} {u : Url}
    (follows : client.Follows world previous sent request redirects (some answer))
    (answered : world.peer sent request = some response)
    (asked : client.library.redirect? response request.url = some u) :
    (∃ cause, client.policy (previous ++ [request.url]) u = .error cause ∧
      answer = .error (ClientError.failure ⟨.redirecting request.url.text, some cause⟩)) ∨
    client.policy (previous ++ [request.url]) u = .ok () ∧
      ((∃ failure, client.ready world (request :: sent) (request.redirected response.status u) = .error failure ∧
          answer = .error failure) ∨
        client.ready world (request :: sent) (request.redirected response.status u) = .ok () ∧
          ∃ more, client.Follows world (previous ++ [request.url]) (request :: sent)
            (request.redirected response.status u) more (some answer)) := by
  cases follows with
  | fails other => cases answered.symm.trans other
  | answers other returned =>
    cases answered.symm.trans other
    cases asked.symm.trans returned
  | barred other again refused =>
    cases answered.symm.trans other
    cases asked.symm.trans again
    exact .inl ⟨_, refused, rfl⟩
  | unsent other again permitted refused =>
    cases answered.symm.trans other
    cases asked.symm.trans again
    exact .inr ⟨permitted, .inl ⟨_, refused, rfl⟩⟩
  | redirects other again permitted ready onward =>
    cases answered.symm.trans other
    cases asked.symm.trans again
    exact .inr ⟨permitted, .inr ⟨ready, _, onward⟩⟩

theorem exists_error {failure : Failure}
    (follows : client.Follows world previous sent request redirects (some (.error failure))) :
    ∃ e : ClientError, e.failure = failure := by
  generalize found : some (Except.error failure) = end_ at follows
  induction follows with
  | waits => cases found
  | fails => cases found; exact ⟨⟨.sending _, none⟩, rfl⟩
  | answers => cases found
  | barred => cases found; exact ⟨_, rfl⟩
  | unsent _ _ _ refused => cases found; exact exists_error_of_ready refused
  | redirects _ _ _ _ _ ih => exact ih found

end Follows

theorem exists_follows (client : Client) (world : World) (previous : List Url) (sent : List Request)
    (request : Request) :
    ∃ redirects answer, client.Follows world previous sent request redirects (some answer) := by
  induction previous using client.policy_induction generalizing sent request with
  | step previous ih =>
    cases answered : world.peer sent request with
    | none => exact ⟨_, _, .fails answered⟩
    | some response =>
      cases asked : client.library.redirect? response request.url with
      | none => exact ⟨_, _, .answers answered asked⟩
      | some u =>
        cases permitted : client.policy (previous ++ [request.url]) u with
        | error cause => exact ⟨_, _, .barred answered asked permitted⟩
        | ok _ =>
          rcases client.ready_cases world (request :: sent) (request.redirected response.status u) with
            ready | ⟨failure, refused⟩
          · obtain ⟨redirects, answer, onward⟩ :=
              ih request.url u permitted (request :: sent) (request.redirected response.status u)
            exact ⟨_, _, .redirects answered asked permitted ready onward⟩
          · exact ⟨_, _, .unsent answered asked permitted refused⟩

/-- What a client makes of a request, given the requests before it, and what it comes to. A request that cannot be
sent comes to the reason why; any other is sent, and its redirects after it. -/
inductive Obtains (client : Client) (world : World) (sent : List Request) (request : Request) :
    List Request → Except Failure Response → Prop
  | unsent {failure : Failure} : client.ready world sent request = .error failure →
    Obtains client world sent request [] (.error failure)
  | sent {redirects : List Request} {answer : Except Failure Response} :
    client.ready world sent request = .ok () →
    client.Follows world [] sent request redirects (some answer) →
    Obtains client world sent request (request :: redirects) answer

theorem exists_obtains (client : Client) (world : World) (sent : List Request) (request : Request) :
    ∃ made answer, client.Obtains world sent request made answer := by
  rcases client.ready_cases world sent request with ready | ⟨failure, refused⟩
  · obtain ⟨redirects, answer, follows⟩ := client.exists_follows world [] sent request
    exact ⟨_, _, .sent ready follows⟩
  · exact ⟨_, _, .unsent refused⟩

theorem Obtains.head?_eq_iff {answer : Except Failure Response}
    (obtains : client.Obtains world sent request made answer) :
    made.head? = some request ↔ client.ready world sent request = .ok () := by
  cases obtains with
  | unsent refused => simp [refused]
  | sent ready _ => simp [ready]

theorem Obtains.of_not_ready {answer : Except Failure Response} {failure : Failure}
    (obtains : client.Obtains world sent request made answer)
    (refused : client.ready world sent request = .error failure) : made = [] ∧ answer = .error failure := by
  cases obtains with
  | unsent other =>
    cases refused.symm.trans other
    exact ⟨rfl, rfl⟩
  | sent ready _ => cases refused.symm.trans ready

theorem Obtains.reaches {answer : Except Failure Response}
    (obtains : client.Obtains world sent request made answer) (next : Except Failure Response → Talk) :
    (client.send request next).Reaches world sent made (next answer) := by
  cases obtains with
  | unsent refused => exact reaches_of_not_ready refused
  | sent ready follows => exact follows.reaches ready next

end Client

end Herald.Http
