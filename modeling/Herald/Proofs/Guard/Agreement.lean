import Herald.Proofs.Guard

/-! How far the checks of the guard agree. An address whose host needs no look-up is judged alike before a request
and at a redirect. Where a name is looked up, the check before a request and the choice of addresses to connect to
judge the answer alike, and a redirect leaves it to the latter. -/
namespace Herald

open Herald.Net

structure Url.LooksUp (u : Url) (name : List Char) : Prop where
  web : u.scheme = "http".toList ∨ u.scheme = "https".toList
  host : u.host = some (.domain name)
  some_ : name ≠ []

/-- There is nothing to look up: the scheme is another, there is no host, or the host is an address. -/
inductive Url.StandsAlone (u : Url) : Prop
  | scheme : ¬ (u.scheme = "http".toList ∨ u.scheme = "https".toList) → StandsAlone u
  | missing : u.host = none → StandsAlone u
  | empty : u.host = some (.domain []) → StandsAlone u
  | literal {address : Address} : u.host = some (.literal address) → StandsAlone u

theorem Url.standsAlone_or_looksUp (u : Url) : u.StandsAlone ∨ ∃ name, u.LooksUp name := by
  by_cases web : u.scheme = "http".toList ∨ u.scheme = "https".toList
  · cases host : u.host with
    | none => exact .inl (.missing host)
    | some h =>
      cases h with
      | literal address => exact .inl (.literal host)
      | domain name =>
        by_cases nothing : name = []
        · exact .inl (.empty (nothing ▸ host))
        · exact .inr ⟨name, web, host, nothing⟩
  · exact .inl (.scheme web)

namespace Guard

def Allows (addresses : List Address) : Prop :=
  addresses ≠ [] ∧ ∀ a ∈ addresses, isDisallowed a = false

def Bars (addresses : List Address) (a : Address) : Prop :=
  ∃ before after, addresses = before ++ a :: after ∧ (∀ b ∈ before, isDisallowed b = false) ∧
    isDisallowed a = true

theorem checkAddresses_eq_noAddresses_iff {addresses : List Address} :
    checkAddresses addresses = .error .noAddresses ↔ addresses = [] := by
  unfold checkAddresses
  split
  · simp [*]
  · split <;> simp [*]

theorem checkAddresses_eq_address_iff {addresses : List Address} {a : Address} :
    checkAddresses addresses = .error (.address a) ↔ Bars addresses a := by
  have found : checkAddresses addresses = .error (.address a) ↔ addresses.find? isDisallowed = some a := by
    unfold checkAddresses
    split
    · next nothing => simp [nothing]
    · split <;> simp [*]
  rw [found, List.find?_eq_some_iff_append, Bars]
  simp only [Bool.not_eq_true', ← exists_and_left]
  grind

variable {u : Url}

theorem check_eq_checkRedirect (alone : u.StandsAlone) (answer : Answer) :
    check u answer = checkRedirect u := by
  cases alone with
  | scheme other =>
    have refused : checkScheme u = .error (.scheme (String.ofList u.scheme)) := by
      rw [checkScheme, if_neg (by simpa using other)]
    simp only [check, checkRedirect, refused, bind, Except.bind]
  | missing host => simp only [check, checkRedirect, host]
  | empty host => simp only [check, checkRedirect, host, if_pos]
  | literal host => simp only [check, checkRedirect, host]

variable {name : List Char}

theorem check_of_lookup (looks : u.LooksUp name) (addresses : List Address) :
    check u (.ok addresses) = checkAddresses addresses := by
  simp only [check, checkScheme_eq_ok_iff.2 looks.web, looks.host, looks.some_, if_false]
  rfl

theorem check_of_failed_lookup (looks : u.LooksUp name) (reason : String) :
    check u (.error reason) = .error (.lookup reason) := by
  simp only [check, checkScheme_eq_ok_iff.2 looks.web, looks.host, looks.some_, if_false]
  rfl

theorem resolve_eq_ok_iff {addresses chosen : List Address} :
    resolve (.ok addresses) = .ok chosen ↔ chosen = addresses ∧ checkAddresses addresses = .ok () := by
  rw [resolve]
  cases checkAddresses addresses with
  | ok => simp [eq_comm]
  | error objection => simp

theorem resolve_eq_disallowed_iff {addresses : List Address} {objection : Objection} :
    resolve (.ok addresses) = .error (.disallowed objection) ↔
      checkAddresses addresses = .error objection := by
  rw [resolve]
  cases checkAddresses addresses <;> simp

/-- Either nothing is looked up, and a redirect is judged like a first request; or the check before a request and
the choice of addresses judge the answer alike, name the same cause, and all of the answer is chosen. In both
cases a redirect passes what passes as a first request. -/
theorem checks_agree (u : Url) (answer : Answer) :
    (u.StandsAlone ∨ ∃ name, u.LooksUp name) ∧
      (u.StandsAlone → check u answer = checkRedirect u) ∧
      (∀ name, u.LooksUp name →
        (∀ reason, answer = .error reason →
          check u answer = .error (.lookup reason) ∧ resolve answer = .error (.lookup reason)) ∧
        ∀ addresses, answer = .ok addresses →
          (check u answer = .ok () ↔ Allows addresses) ∧
          (∀ chosen, resolve answer = .ok chosen ↔ chosen = addresses ∧ Allows addresses) ∧
          (addresses = [] →
            check u answer = .error .noAddresses ∧ resolve answer = .error (.disallowed .noAddresses)) ∧
          ∀ a, Bars addresses a →
            check u answer = .error (.address a) ∧ resolve answer = .error (.disallowed (.address a))) ∧
      (check u answer = .ok () → checkRedirect u = .ok ()) := by
  refine ⟨u.standsAlone_or_looksUp, fun alone => check_eq_checkRedirect alone answer, ?_, checkRedirect_of_check⟩
  intro name looks
  constructor
  · rintro reason rfl
    exact ⟨check_of_failed_lookup looks reason, rfl⟩
  · rintro addresses rfl
    rw [check_of_lookup looks]
    refine ⟨checkAddresses_eq_ok_iff, fun chosen => ?_, fun nothing => ?_, fun a bars => ?_⟩
    · rw [resolve_eq_ok_iff, checkAddresses_eq_ok_iff, Allows]
    · have refused := checkAddresses_eq_noAddresses_iff.2 nothing
      exact ⟨refused, resolve_eq_disallowed_iff.2 refused⟩
    · have refused := checkAddresses_eq_address_iff.2 bars
      exact ⟨refused, resolve_eq_disallowed_iff.2 refused⟩

/-- Of an answer with public and private addresses, both checks name the first private one. -/
theorem checks_agree_of_mixed :
    let u : Url := { scheme := "https".toList, authority := some { host := some (.domain "a.example".toList) } }
    let answer : Answer := .ok [.v4 0x08080808, .v6 1, .v4 0x0A000001]
    check u answer = .error (.address (.v6 1)) ∧
      resolve answer = .error (.disallowed (.address (.v6 1))) := by
  intro u answer
  have looks : u.LooksUp "a.example".toList := ⟨by decide, rfl, by decide⟩
  have bars : Bars [.v4 0x08080808, .v6 1, .v4 0x0A000001] (.v6 1) :=
    ⟨[.v4 0x08080808], [.v4 0x0A000001], rfl, by decide, by decide⟩
  exact ((checks_agree u answer).2.2.1 _ looks).2 _ rfl |>.2.2.2 _ bars

end Guard

end Herald
