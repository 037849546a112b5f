import Herald.Guard
import Herald.Proofs.Text.Blank
import Herald.Proofs.Url.Host

/-! What the checks of the guard let pass. Both the check before a request and the check of a redirect
pass an address only if it is safe; for an address that was read, the check of a redirect passes exactly
the safe ones. -/
namespace Herald

open Herald.Net

/-- A host that may be contacted: an allowed address, or a name that spells no address at all. -/
def Host.IsSafe : Host → Prop
  | .literal a => Guard.isDisallowed a = false
  | .domain name => name ≠ [] ∧ Url.spelledIpv4? name = none

structure Url.IsSafe (u : Url) : Prop where
  web : u.scheme = "http".toList ∨ u.scheme = "https".toList
  host : ∃ h, u.host = some h ∧ h.IsSafe

theorem Host.IsSafe.isSettled {h : Host} (safe : h.IsSafe) : h.IsSettled := by
  cases h with
  | literal a => trivial
  | domain name => exact safe

theorem Url.IsSafe.isSettled {u : Url} (safe : u.IsSafe) : u.IsSettled := by
  intro _
  obtain ⟨h, host, safe⟩ := safe.host
  exact ⟨h, host, safe.isSettled⟩

theorem Url.IsSafe.congr {u v : Url} (safe : u.IsSafe) (scheme : v.scheme = u.scheme)
    (host : v.host = u.host) : v.IsSafe :=
  ⟨scheme ▸ safe.web, host ▸ safe.host⟩

theorem Url.family_of_web {u : Url} (web : u.scheme = "http".toList ∨ u.scheme = "https".toList) :
    u.family = .web := by
  unfold family
  rcases web with h | h <;> rw [h] <;> decide

namespace Guard

theorem checkScheme_eq_ok_iff {u : Url} :
    checkScheme u = .ok () ↔ u.scheme = "http".toList ∨ u.scheme = "https".toList := by
  unfold checkScheme
  split
  · next web =>
    rw [Bool.or_eq_true, decide_eq_true_eq, decide_eq_true_eq] at web
    exact iff_of_true rfl web
  · next other =>
    rw [Bool.or_eq_true, decide_eq_true_eq, decide_eq_true_eq] at other
    exact iff_of_false (fun passed => by cases passed) other

theorem checkAddresses_eq_ok_iff {addresses : List Address} :
    checkAddresses addresses = .ok () ↔
      addresses ≠ [] ∧ ∀ a ∈ addresses, isDisallowed a = false := by
  unfold checkAddresses
  split
  · simp [*]
  · next nonempty =>
    split
    · next a found =>
      have bad := List.find?_some found
      have mem := List.mem_of_find?_eq_some found
      simp only [reduceCtorEq, false_iff, not_and]
      intro _ allowed
      rw [allowed a mem] at bad
      cases bad
    · next none =>
      simpa [nonempty] using none

theorem checkRedirect_eq_ok_iff {u : Url} (settled : u.IsSettled) :
    checkRedirect u = .ok () ↔ u.IsSafe := by
  constructor
  · intro passed
    simp only [checkRedirect, bind, Except.bind] at passed
    split at passed
    · cases passed
    · next web =>
      have web := checkScheme_eq_ok_iff.1 web
      obtain ⟨h, host, settled⟩ := settled (Url.family_of_web web)
      refine ⟨web, h, host, ?_⟩
      rw [host] at passed
      cases h with
      | literal a => exact (checkAddresses_eq_ok_iff.1 passed).2 a (by simp)
      | domain name => exact settled
  · rintro ⟨web, h, host, safe⟩
    simp only [checkRedirect, checkScheme_eq_ok_iff.2 web, bind, Except.bind, host]
    cases h with
    | literal a =>
      have allowed : isDisallowed a = false := safe
      exact checkAddresses_eq_ok_iff.2 ⟨by simp, by simpa using allowed⟩
    | domain name => simp [safe.1]

theorem checkRedirect_of_check {u : Url} {answer : Answer} (passed : check u answer = .ok ()) :
    checkRedirect u = .ok () := by
  simp only [check, checkRedirect, bind, Except.bind] at passed ⊢
  split at passed
  · cases passed
  · split at passed
    · cases passed
    · exact passed
    · next name _ =>
      split at passed
      · cases passed
      · next nonempty => simp [nonempty]

theorem isSafe_of_check {u : Url} {answer : Answer} (settled : u.IsSettled)
    (passed : check u answer = .ok ()) : u.IsSafe :=
  (checkRedirect_eq_ok_iff settled).1 (checkRedirect_of_check passed)

theorem redirectPolicy_of_many {previous : List Url} (many : maxRedirects ≤ previous.length) (u : Url) :
    redirectPolicy previous u = .error (.stated "too many redirects") := if_pos many

theorem redirectPolicy_of_few {previous : List Url} (few : previous.length < maxRedirects) (u : Url) :
    redirectPolicy previous u = (checkRedirect u).mapError .disallowed := if_neg (Nat.not_le.2 few)

theorem redirectPolicy_eq_ok_iff {previous : List Url} {u : Url} :
    redirectPolicy previous u = .ok () ↔ previous.length < maxRedirects ∧ checkRedirect u = .ok () := by
  rcases Nat.lt_or_ge previous.length maxRedirects with few | many
  · rw [redirectPolicy_of_few few]
    cases checkRedirect u <;> simp [Except.mapError, few]
  · simp [redirectPolicy_of_many many, Nat.not_lt.2 many]

theorem redirectPolicy_objects_iff {previous : List Url} {u : Url} {objection : Objection} :
    (∃ cause, redirectPolicy previous u = .error cause ∧ cause.objection? = some objection) ↔
      previous.length < maxRedirects ∧ checkRedirect u = .error objection := by
  rcases Nat.lt_or_ge previous.length maxRedirects with few | many
  · rw [redirectPolicy_of_few few]
    cases checkRedirect u <;> simp [Except.mapError, few, Cause.objection?]
  · simp [redirectPolicy_of_many many, Nat.not_lt.2 many, Cause.objection?]

theorem parse_of_target? {target : String} {u : Url} (named : target? target = .ok u) :
    Url.parse (Text.trim target.toList) = .ok u := by
  unfold target? at named
  split at named
  · cases named
  · split at named
    · next parsed => cases named; exact parsed
    · cases named

theorem target?_eq_ok_iff {target : String} {u : Url} :
    target? target = .ok u ↔ Url.parse (Text.trim target.toList) = .ok u := by
  refine ⟨parse_of_target?, fun parsed => ?_⟩
  have ink : Text.allBlank target = false := by
    refine Bool.eq_false_iff.2 fun blank => ?_
    rw [Text.trim_eq_nil_iff.2 (List.all_eq_true.1 blank), Url.parse_nil] at parsed
    cases parsed
  simp [target?, ink, parsed]

theorem isSettled_of_target? {target : String} {u : Url} (named : target? target = .ok u) :
    u.IsSettled :=
  Url.isSettled_of_parse (parse_of_target? named)

end Guard

end Herald
