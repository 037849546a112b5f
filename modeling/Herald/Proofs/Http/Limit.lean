import Herald.Proofs.Http.Chain

/-! How many redirects a guarded client follows. Its policy counts the addresses that were requested already, and
the first of them is no redirect: a chain is followed to its end if it has fewer redirects than the limit. Otherwise,
and so in every circle, the exchange ends with an error where the policy finds the limit reached. -/
namespace Herald.Http

/-- The answers of a peer lead from a request to these others, by redirects to addresses that the guard lets pass
and that the client can send requests to; and in the end to a response that asks for no redirect, if the end is
given. -/
inductive Client.Leads (client : Client) (world : World) :
    List Request → Request → List Request → Option Response → Prop
  | here {sent : List Request} {request : Request} : Leads client world sent request [] none
  | ends {sent : List Request} {request : Request} {response : Response} :
    world.peer sent request = some response → client.library.redirect? response request.url = none →
    Leads client world sent request [] (some response)
  | on {sent : List Request} {request : Request} {response : Response} {u : Url} {more : List Request}
      {ending : Option Response} :
    world.peer sent request = some response → client.library.redirect? response request.url = some u →
    Guard.checkRedirect u = .ok () →
    client.ready world (request :: sent) (request.redirected response.status u) = .ok () →
    Leads client world (request :: sent) (request.redirected response.status u) more ending →
    Leads client world sent request (request.redirected response.status u :: more) ending

/-- However a conversation goes on, sending a request means that it and these redirects are sent, and that it goes
on with the answer. -/
def Client.Comes (client : Client) (world : World) (sent : List Request) (request : Request)
    (redirects : List Request) (answer : Except Failure Response) : Prop :=
  ∀ next, (client.send request next).converse world sent =
    (next answer).converse world ((request :: redirects).reverse ++ sent)

def Client.Circles (client : Client) (world : World) (request : Request) : Prop :=
  ∃ round, round.getLast? = some request ∧ ∀ sent, client.Leads world sent request round none

variable {library : Library} {client : Client} {world : World} {previous : List Url} {sent : List Request}
  {request : Request} {redirects way : List Request} {ending : Option Response} {answer : Except Failure Response}
  {response : Response}

namespace Client

theorem Follows.comes (follows : client.Follows world [] sent request redirects (some answer))
    (ready : client.ready world sent request = .ok ()) : client.Comes world sent request redirects answer :=
  fun next => (follows.reaches ready next).converse

theorem Comes.not_error (comes : client.Comes world sent request redirects (.ok response)) {others : List Request}
    {failure : Failure} : ¬ client.Comes world sent request others (.error failure) := by
  intro fails
  have both := (comes fun answer => .done (answer.map fun _ => ())).symm.trans (fails _)
  have results := congrArg Ending.result both
  cases results

theorem policy_of_few {u : Url} (few : previous.length < Guard.maxRedirects)
    (passed : Guard.checkRedirect u = .ok ()) : (guarded library).policy previous u = .ok () :=
  Guard.redirectPolicy_eq_ok_iff.2 ⟨few, passed⟩

theorem policy_of_many (many : Guard.maxRedirects ≤ previous.length) (u : Url) :
    (guarded library).policy previous u = .error (.stated "too many redirects") :=
  Guard.redirectPolicy_of_many many u

namespace Leads

theorem follows (leads : (guarded library).Leads world sent request redirects (some response))
    (few : previous.length + redirects.length < Guard.maxRedirects) :
    (guarded library).Follows world previous sent request redirects (some (.ok response)) := by
  generalize found : some response = end_ at leads
  induction leads generalizing previous with
  | here => cases found
  | ends answered asked =>
    cases found
    exact .answers answered asked
  | @on _ request _ _ _ _ answered asked passed ready _ ih =>
    rw [List.length_cons] at few
    have counted : (previous ++ [request.url]).length = previous.length + 1 := List.length_append
    exact .redirects answered asked (policy_of_few (by omega) passed) ready (ih (by omega) found)

theorem exhausts (leads : (guarded library).Leads world sent request redirects ending)
    (room : previous.length < Guard.maxRedirects)
    (many : Guard.maxRedirects ≤ previous.length + redirects.length) :
    ∃ url, (guarded library).Follows world previous sent request
      (redirects.take (Guard.maxRedirects - (previous.length + 1)))
      (some (.error (.http (.redirecting url)))) := by
  -- the request itself is counted before its first redirect is judged, so one redirect less is followed
  induction leads generalizing previous with
  | here => exact absurd room (Nat.not_lt.2 many)
  | ends => exact absurd room (Nat.not_lt.2 many)
  | @on _ request _ u _ _ answered asked passed ready _ ih =>
    rw [List.length_cons] at many
    have counted : (previous ++ [request.url]).length = previous.length + 1 := List.length_append
    by_cases more : (previous ++ [request.url]).length < Guard.maxRedirects
    · obtain ⟨url, follows⟩ := ih more (by omega)
      have left : Guard.maxRedirects - (previous.length + 1) =
          Guard.maxRedirects - ((previous ++ [request.url]).length + 1) + 1 := by omega
      rw [left, List.take_succ_cons]
      exact ⟨url, .redirects answered asked (policy_of_few more passed) ready follows⟩
    · have left : Guard.maxRedirects - (previous.length + 1) = 0 := by omega
      rw [left, List.take_zero]
      exact ⟨_, .barred answered asked (policy_of_many (Nat.le_of_not_lt more) u)⟩

theorem exists_onward (leads : client.Leads world sent request way none) : ∃ before, ∀ redirects ending,
    client.Leads world before (way.getLast?.getD request) redirects ending →
    client.Leads world sent request (way ++ redirects) ending := by
  generalize found : none = end_ at leads
  induction leads with
  | here => exact ⟨_, fun _ _ onward => onward⟩
  | ends => cases found
  | on answered asked passed ready _ ih =>
    obtain ⟨before, joins⟩ := ih found
    refine ⟨before, fun redirects ending onward => ?_⟩
    rw [List.getLast?_cons, Option.getD_some] at onward
    exact .on answered asked passed ready (joins redirects ending onward)

end Leads

theorem Circles.exists_leads (circles : client.Circles world request) (n : Nat) (sent : List Request) :
    ∃ redirects, n ≤ redirects.length ∧ client.Leads world sent request redirects none := by
  obtain ⟨round, last, leads⟩ := circles
  induction n generalizing sent with
  | zero => exact ⟨[], Nat.le_refl _, .here⟩
  | succ n ih =>
    obtain ⟨before, joins⟩ := (leads sent).exists_onward
    obtain ⟨redirects, long, onward⟩ := ih before
    rw [last, Option.getD_some] at joins
    have some_ : 0 < round.length := List.length_pos_iff.2 (by rintro rfl; cases last)
    exact ⟨round ++ redirects, by rw [List.length_append]; omega, joins redirects none onward⟩

/-- A guarded client follows a chain of redirects to addresses that it lets pass to its end if and only if there are
no more than nine. If there are more, however the chain goes on, it makes ten requests and ends with an error; and so
it does wherever the answers lead into a circle. -/
theorem guarded_follows_nine (ready : (guarded library).ready world sent request = .ok ()) :
    (∀ redirects response, (guarded library).Leads world sent request redirects (some response) →
      ((guarded library).Comes world sent request redirects (.ok response) ↔ redirects.length ≤ 9)) ∧
    (∀ redirects ending, (guarded library).Leads world sent request redirects ending → 9 < redirects.length →
      ∃ url, (guarded library).Comes world sent request (redirects.take 9)
        (.error (.http (.redirecting url)))) ∧
    ∀ way, (guarded library).Leads world sent request way none →
      (guarded library).Circles world (way.getLast?.getD request) →
      ∃ redirects url, redirects.length = 9 ∧
        (guarded library).Comes world sent request redirects (.error (.http (.redirecting url))) := by
  have stops : ∀ redirects ending, (guarded library).Leads world sent request redirects ending →
      9 < redirects.length → ∃ url, (guarded library).Comes world sent request (redirects.take 9)
        (.error (.http (.redirecting url))) := by
    intro redirects ending leads many
    have limit : Guard.maxRedirects ≤ ([] : List Url).length + redirects.length := by
      rw [List.length_nil, Nat.zero_add]
      exact many
    obtain ⟨url, follows⟩ := leads.exhausts (by decide) limit
    exact ⟨url, follows.comes ready⟩
  refine ⟨fun redirects response leads => ⟨fun comes => ?_, fun few => ?_⟩, stops, fun way leads circles => ?_⟩
  · refine Nat.le_of_not_lt fun many => ?_
    obtain ⟨url, fails⟩ := stops redirects _ leads many
    exact comes.not_error fails
  · have limit : ([] : List Url).length + redirects.length < Guard.maxRedirects := by
      rw [List.length_nil, Nat.zero_add]
      exact Nat.lt_succ_of_le few
    exact (leads.follows limit).comes ready
  · obtain ⟨before, joins⟩ := leads.exists_onward
    obtain ⟨redirects, long, round⟩ := circles.exists_leads 10 before
    have many : 9 < (way ++ redirects).length := by rw [List.length_append]; omega
    obtain ⟨url, fails⟩ := stops _ none (joins redirects none round) many
    exact ⟨(way ++ redirects).take 9, url, by rw [List.length_take]; omega, fails⟩

end Client

/-! ### A peer that redirects so many times -/

def home : Url := ⟨"http".toList, some ⟨[], none, some (.domain "a.example".toList), none⟩, ['/'], none, none⟩

def askHome : Request := ⟨.get, home, none, none, []⟩

def arrived : Response := ⟨200, none, []⟩

def turned : Response := ⟨302, some (Text.Utf8.encode ['/']), []⟩

/-- The first requests are redirected home, all others arrive. -/
def turning (n : Nat) : World where
  guard _ := {}
  peer sent _ := some (if sent.length < n then turned else arrived)

theorem redirect?_turned : Library.usual.redirect? turned home = some home := by decide +kernel

theorem ready_turning (n : Nat) (sent : List Request) :
    Client.guarded.ready (turning n) sent askHome = .ok () := by
  have builds : Library.usual.canBuild home = true := by decide +kernel
  exact Client.ready_eq_ok_iff.2 ⟨builds, rfl⟩

theorem leads_turning (k : Nat) {n : Nat} (left : sent.length + k = n) :
    Client.guarded.Leads (turning n) sent askHome (List.replicate k askHome) (some arrived) := by
  induction k generalizing sent with
  | zero =>
    have arrives : (turning n).peer sent askHome = some arrived := by
      simp only [turning, if_neg (show ¬ sent.length < n by omega)]
    exact .ends arrives rfl
  | succ k ih =>
    have more : (turning n).peer sent askHome = some turned := by
      simp only [turning, if_pos (show sent.length < n by omega)]
    have passed : Guard.checkRedirect home = .ok () := rfl
    exact .on more redirect?_turned passed (ready_turning n _)
      (ih (by rw [List.length_cons, Nat.add_right_comm, Nat.add_assoc, left]))

/-- Nine redirects are followed. -/
theorem Client.guarded_follows_turning : Client.guarded.ready (turning 9) [] askHome = .ok () ∧
    Client.guarded.Leads (turning 9) [] askHome (List.replicate 9 askHome) (some arrived) ∧
    Client.guarded.Comes (turning 9) [] askHome (List.replicate 9 askHome) (.ok arrived) := by
  have ready := ready_turning 9 []
  have leads := leads_turning 9 (show ([] : List Request).length + 9 = 9 from rfl)
  exact ⟨ready, leads, ((guarded_follows_nine ready).1 _ _ leads).2 (by decide)⟩

/-- Ten redirects are too many. -/
theorem Client.guarded_not_follows_ten : ∃ world redirects response,
    Client.guarded.Leads world [] askHome redirects (some response) ∧ redirects.length = Guard.maxRedirects ∧
    ¬ Client.guarded.Comes world [] askHome redirects (.ok response) ∧
    ∃ url, Client.guarded.Comes world [] askHome (redirects.take 9) (.error (.http (.redirecting url))) := by
  have leads := leads_turning 10 (show ([] : List Request).length + 10 = 10 from rfl)
  obtain ⟨url, follows⟩ := leads.exhausts (show ([] : List Url).length < Guard.maxRedirects by decide) (by decide)
  have fails := follows.comes (ready_turning 10 [])
  exact ⟨_, _, _, leads, List.length_replicate, fun comes => comes.not_error fails, url, fails⟩

end Herald.Http
