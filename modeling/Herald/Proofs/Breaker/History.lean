import Herald.Registry
import Mathlib.Data.List.Induction

/-! The breaker of a host after any history of calls on any hosts. What counts is the list of the failures
of that host since its last success: how many there are modulo the limit, and the time of the last one
that filled a round of the limit. -/
namespace Herald

namespace Breaker

theorem Rule.limit_pos (rule : Rule) : 0 < rule.limit := by
  unfold limit
  omega

/-- The breaker after failures at some times and no success since. -/
def ofFailures (rule : Rule) (times : List Nat) : Breaker where
  failures := times.length % rule.limit
  openUntil :=
    if times.length < rule.limit then none
    else (times[times.length / rule.limit * rule.limit - 1]?).map (· + rule.cooldown)

@[simp] theorem ofFailures_nil (rule : Rule) : ofFailures rule [] = {} := by
  simp [ofFailures, rule.limit_pos]

theorem ofFailures_within {rule : Rule} {times : List Nat} {now : Nat}
    (within : times.length % rule.limit + 1 < rule.limit) :
    ofFailures rule (times ++ [now]) =
      { ofFailures rule times with failures := times.length % rule.limit + 1 } := by
  have count : (times.length + 1) % rule.limit = times.length % rule.limit + 1 := by
    rw [Nat.add_mod, Nat.mod_eq_of_lt (by omega : 1 < rule.limit), Nat.mod_eq_of_lt within]
  have rounds : (times.length + 1) / rule.limit = times.length / rule.limit :=
    Nat.succ_div_of_mod_ne_zero (by omega)
  have whole := Nat.div_add_mod' times.length rule.limit
  by_cases first : times.length < rule.limit
  · have small := Nat.mod_eq_of_lt first
    have still : times.length + 1 < rule.limit := by omega
    simp [ofFailures, count, first, still]
  · have beyond : ¬ times.length + 1 < rule.limit := by omega
    have inside : times.length / rule.limit * rule.limit - 1 < times.length := by
      have := rule.limit_pos
      omega
    simp [ofFailures, count, rounds, first, beyond, List.getElem?_append_left inside]

theorem ofFailures_full {rule : Rule} {times : List Nat} {now : Nat}
    (full : ¬ times.length % rule.limit + 1 < rule.limit) :
    ofFailures rule (times ++ [now]) = ⟨0, some (now + rule.cooldown)⟩ := by
  have pos := rule.limit_pos
  have below := Nat.mod_lt times.length pos
  have whole := Nat.div_add_mod' times.length rule.limit
  have total : times.length + 1 = (times.length / rule.limit + 1) * rule.limit := by
    rw [Nat.add_mul]
    omega
  have count : (times.length + 1) % rule.limit = 0 := by rw [total, Nat.mul_mod_left]
  have rounds : (times.length + 1) / rule.limit * rule.limit - 1 = times.length := by
    rw [Nat.div_mul_cancel (Nat.dvd_of_mod_eq_zero count)]
    omega
  have reached : ¬ times.length + 1 < rule.limit := by
    have := Nat.le_of_dvd (by omega) (Nat.dvd_of_mod_eq_zero count)
    omega
  simp [ofFailures, count, rounds, reached]

/-- The next failure would open the breaker for a cooldown whose end cannot be expressed. -/
def Overflows (rule : Rule) (times : List Nat) (now : Nat) : Prop :=
  rule.limit ∣ times.length + 1 ∧ endOfTime ≤ now + rule.cooldown

theorem dvd_iff_full {rule : Rule} {times : List Nat} :
    rule.limit ∣ times.length + 1 ↔ ¬ times.length % rule.limit + 1 < rule.limit := by
  have pos := rule.limit_pos
  have below := Nat.mod_lt times.length pos
  rw [Nat.dvd_iff_mod_eq_zero, ← Nat.mod_add_mod]
  constructor
  · intro whole within
    rw [Nat.mod_eq_of_lt within] at whole
    omega
  · intro full
    rw [show times.length % rule.limit + 1 = rule.limit by omega, Nat.mod_self]

theorem recordFailure_ofFailures {rule : Rule} {times : List Nat} {now : Nat}
    (fits : ¬ Overflows rule times now) :
    ((ofFailures rule times).recordFailure rule now).1 = ofFailures rule (times ++ [now]) ∧
      ((ofFailures rule times).recordFailure rule now).2 ≠ .overflowed := by
  unfold recordFailure
  split
  · next within => exact ⟨(ofFailures_within within).symm, by simp⟩
  · next full =>
    have room : now + rule.cooldown < endOfTime :=
      Nat.lt_of_not_le fun late => fits ⟨dvd_iff_full.2 full, late⟩
    simp [ofFailures_full full, room]

theorem overflowed_of_overflows {rule : Rule} {times : List Nat} {now : Nat}
    (overflows : Overflows rule times now) :
    ((ofFailures rule times).recordFailure rule now).2 = .overflowed := by
  obtain ⟨full, late⟩ := overflows
  have full : ¬ (ofFailures rule times).failures + 1 < rule.limit := dvd_iff_full.1 full
  simp [recordFailure, full, Nat.not_lt.2 late]

inductive Ask
  | failure
  | success
  | isOpen
  | snapshot
  deriving DecidableEq, Repr

structure Call where
  host : String
  time : Nat
  ask : Ask
  deriving DecidableEq, Repr

def Call.isAbout (c : Call) (host : String) (ask : Ask) : Bool := c.host == host && c.ask == ask

/-- The times of the failures of a host since its last success. -/
def failureTimes (host : String) (history : List Call) : List Nat :=
  ((history.reverse.takeWhile fun c => !c.isAbout host .success).filter
    (·.isAbout host .failure)).reverse.map Call.time

@[simp] theorem failureTimes_nil (host : String) : failureTimes host [] = [] := rfl

theorem failureTimes_failure {host : String} {history : List Call} {c : Call}
    (about : c.isAbout host .failure = true) :
    failureTimes host (history ++ [c]) = failureTimes host history ++ [c.time] := by
  have other : c.isAbout host .success = false := by
    simp_all [Call.isAbout]
  simp [failureTimes, about, other]

theorem failureTimes_success {host : String} {history : List Call} {c : Call}
    (about : c.isAbout host .success = true) : failureTimes host (history ++ [c]) = [] := by
  simp [failureTimes, about]

theorem failureTimes_other {host : String} {history : List Call} {c : Call}
    (failure : c.isAbout host .failure = false) (success : c.isAbout host .success = false) :
    failureTimes host (history ++ [c]) = failureTimes host history := by
  simp [failureTimes, failure, success]

theorem failureTimes_filter (host : String) (history : List Call) :
    failureTimes host (history.filter (·.host == host)) = failureTimes host history := by
  induction history using List.reverseRecOn with
  | nil => rfl
  | append_singleton history c ih =>
    rw [List.filter_append]
    by_cases own : c.host = host
    · have kept : [c].filter (·.host == host) = [c] := by simp [own]
      rw [kept]
      by_cases failure : c.isAbout host .failure = true
      · rw [failureTimes_failure failure, failureTimes_failure failure, ih]
      · by_cases success : c.isAbout host .success = true
        · rw [failureTimes_success success, failureTimes_success success]
        · simp only [Bool.not_eq_true] at failure success
          rw [failureTimes_other failure success, failureTimes_other failure success, ih]
    · have dropped : [c].filter (·.host == host) = [] := by simp [own]
      have foreign (ask : Ask) : c.isAbout host ask = false := by simp [Call.isAbout, own]
      rw [dropped, List.append_nil, ih, failureTimes_other (foreign _) (foreign _)]

end Breaker

namespace Registry

open Breaker

def call (r : Registry) (c : Call) : Except Crash Registry :=
  match c.ask with
  | .failure =>
    match r.recordFailure c.host c.time with
    | (_, .overflowed) => .error .time
    | (r, _) => .ok r
  | .success => .ok (r.recordSuccess c.host)
  | .isOpen => .ok r
  | .snapshot => .ok r

def calls (r : Registry) (history : List Call) : Except Crash Registry := history.foldlM call r

/-- What a history comes to: the breaker of every host is that of its own failures. -/
structure Accounts (rule : Rule) (history : List Call) (r : Registry) : Prop where
  ruled : r.rule = rule
  breaker : ∀ host, (r.host host).breaker = ofFailures rule (failureTimes host history)

theorem accounts_new (slots : Nat) (rule : Rule) : Accounts rule [] ⟨slots, rule, {}⟩ :=
  ⟨rfl, fun _ => (ofFailures_nil rule).symm⟩

theorem Accounts.setHost {rule : Rule} {history : List Call} {r : Registry}
    (accounts : Accounts rule history r) {c : Call} {breaker : Breaker}
    (own : breaker = ofFailures rule (failureTimes c.host (history ++ [c]))) :
    Accounts rule (history ++ [c])
      (r.setHost c.host { r.host c.host with breaker := breaker }) := by
  refine ⟨accounts.ruled, fun host => ?_⟩
  by_cases same : host = c.host
  · rw [same, host_setHost_self, own]
  · have foreign (ask : Ask) : c.isAbout host ask = false := by
      simp [Call.isAbout, Ne.symm same]
    rw [host_setHost_other r same, failureTimes_other (foreign _) (foreign _)]
    exact accounts.breaker host

theorem Accounts.unchanged {rule : Rule} {history : List Call} {r : Registry}
    (accounts : Accounts rule history r) {c : Call} (failure : c.ask ≠ .failure)
    (success : c.ask ≠ .success) : Accounts rule (history ++ [c]) r := by
  refine ⟨accounts.ruled, fun host => ?_⟩
  rw [failureTimes_other (by simp [Call.isAbout, failure]) (by simp [Call.isAbout, success])]
  exact accounts.breaker host

theorem Accounts.call {rule : Rule} {history : List Call} {r : Registry}
    (accounts : Accounts rule history r) {c : Call}
    (fits : c.ask = .failure → ¬ Overflows rule (failureTimes c.host history) c.time) :
    ∃ next, r.call c = .ok next ∧ Accounts rule (history ++ [c]) next := by
  cases asked : c.ask with
  | failure =>
    have about : c.isAbout c.host .failure = true := by simp [Call.isAbout, asked]
    obtain ⟨made, counts⟩ := recordFailure_ofFailures (fits asked)
    have recorded : r.recordFailure c.host c.time =
        (r.setHost c.host { r.host c.host with breaker :=
            ((ofFailures rule (failureTimes c.host history)).recordFailure rule c.time).1 },
          ((ofFailures rule (failureTimes c.host history)).recordFailure rule c.time).2) := by
      rw [← accounts.breaker, ← accounts.ruled]
      rfl
    refine ⟨_, ?_, accounts.setHost (made.trans (by rw [failureTimes_failure about]))⟩
    -- the branch of an overflow is ruled out by `counts`
    simp only [Registry.call, asked, recorded]
  | success =>
    have about : c.isAbout c.host .success = true := by simp [Call.isAbout, asked]
    have own : ({} : Breaker) = ofFailures rule (failureTimes c.host (history ++ [c])) := by
      rw [failureTimes_success about, ofFailures_nil]
    exact ⟨_, by simp only [Registry.call, asked]; rfl, accounts.setHost own⟩
  | isOpen =>
    exact ⟨r, by simp [Registry.call, asked], accounts.unchanged (by simp [asked]) (by simp [asked])⟩
  | snapshot =>
    exact ⟨r, by simp [Registry.call, asked], accounts.unchanged (by simp [asked]) (by simp [asked])⟩

theorem accounts_calls {rule : Rule} {history : List Call} (slots : Nat)
    (room : ∀ c ∈ history, c.ask = .failure → c.time + rule.cooldown < endOfTime) :
    ∃ r, calls ⟨slots, rule, {}⟩ history = .ok r ∧ Accounts rule history r := by
  induction history using List.reverseRecOn with
  | nil => exact ⟨_, rfl, accounts_new slots rule⟩
  | append_singleton history c ih =>
    obtain ⟨r, made, accounts⟩ := ih fun c mem => room c (by simp [mem])
    obtain ⟨next, called, accounts⟩ := accounts.call fun failure overflows =>
      absurd overflows.2 (Nat.not_le.2 (room c (by simp) failure))
    refine ⟨next, ?_, accounts⟩
    rw [calls, List.foldlM_append]
    rw [calls] at made
    simp [made, called, bind, Except.bind, pure, Except.pure]

theorem Accounts.call_eq_error_iff {rule : Rule} {history : List Call} {r : Registry}
    (accounts : Accounts rule history r) (c : Call) : (∃ crash, r.call c = .error crash) ↔
      c.ask = .failure ∧ Overflows rule (failureTimes c.host history) c.time := by
  constructor
  · rintro ⟨crash, crashed⟩
    by_contra none_
    obtain ⟨next, called, -⟩ := accounts.call fun failure overflows => none_ ⟨failure, overflows⟩
    simp [crashed] at called
  · rintro ⟨failure, overflows⟩
    have recorded : (r.recordFailure c.host c.time).2 = .overflowed := by
      simp only [Registry.recordFailure, accounts.breaker, accounts.ruled]
      exact overflowed_of_overflows overflows
    simp only [Registry.call, failure]
    generalize r.recordFailure c.host c.time = made at recorded
    obtain ⟨later, what⟩ := made
    obtain rfl : what = .overflowed := recorded
    exact ⟨.time, rfl⟩

theorem accounts_of_calls {slots : Nat} {rule : Rule} {history : List Call} {r : Registry}
    (made : calls ⟨slots, rule, {}⟩ history = .ok r) : Accounts rule history r := by
  induction history using List.reverseRecOn generalizing r with
  | nil => exact Except.ok.inj made ▸ accounts_new slots rule
  | append_singleton history c ih =>
    rw [calls, List.foldlM_append] at made
    cases before : history.foldlM call ⟨slots, rule, {}⟩ with
    | error crash => simp [before, bind, Except.bind] at made
    | ok mid =>
      have accounts := ih before
      have single : [c].foldlM call mid = mid.call c := by
        rw [List.foldlM_cons]
        exact bind_pure _
      have called : mid.call c = .ok r := by
        rw [before] at made
        exact single.symm.trans made
      obtain ⟨next, is, accounts⟩ := accounts.call fun failure overflows => by
        obtain ⟨crash, crashed⟩ := (accounts.call_eq_error_iff c).2 ⟨failure, overflows⟩
        simp [crashed] at called
      exact Except.ok.inj (called.symm.trans is) ▸ accounts

end Registry

namespace Breaker

/-- After any history on any hosts, in any order of times, the breaker of a host is determined by its own
failures since its last success: it counts them modulo the limit, and it is open until a cooldown after
the last one that filled a round. No count reaches the limit, so a count of 32 bits never overflows, and
without the calls on other hosts the breaker is the same. -/
theorem breaker_of_calls (slots : Nat) (rule : Rule) (history : List Call)
    (room : ∀ c ∈ history, c.ask = .failure → c.time + rule.cooldown < endOfTime) (host : String) :
    ∃ r, Registry.calls ⟨slots, rule, {}⟩ history = .ok r ∧
      let b := (r.host host).breaker
      let times := failureTimes host history
      let limit := max 1 rule.threshold
      b.failures = times.length % limit ∧
      (times.length < limit → b.openUntil = none) ∧
      (limit ≤ times.length → ∃ t, times[times.length / limit * limit - 1]? = some t ∧
        b.openUntil = some (t + rule.cooldown)) ∧
      (∀ now, b.isOpen now = true ↔ ∃ until_, b.openUntil = some until_ ∧ now < until_) ∧
      b.failures < limit ∧
      (rule.threshold < 0x100000000 → b.failures + 1 < 0x100000000) ∧
      ∃ alone, Registry.calls ⟨slots, rule, {}⟩ (history.filter (·.host == host)) = .ok alone ∧
        (alone.host host).breaker = b := by
  obtain ⟨r, made, accounts⟩ := Registry.accounts_calls slots room
  have roomAlone : ∀ c ∈ history.filter (·.host == host),
      c.ask = .failure → c.time + rule.cooldown < endOfTime :=
    fun c mem => room c (List.mem_filter.1 mem).1
  obtain ⟨alone, madeAlone, own⟩ := Registry.accounts_calls slots roomAlone
  refine ⟨r, made, ?_⟩
  have breaker := accounts.breaker host
  have limit : rule.limit = max 1 rule.threshold := rfl
  have small : (failureTimes host history).length % rule.limit < rule.limit :=
    Nat.mod_lt _ rule.limit_pos
  dsimp only
  rw [breaker, ← limit]
  refine ⟨rfl, fun few => if_pos few, fun many => ?_, fun now => ?_, small, fun word => ?_,
    alone, madeAlone, ?_⟩
  · have inside : (failureTimes host history).length / rule.limit * rule.limit - 1 <
        (failureTimes host history).length := by
      have := Nat.div_mul_le_self (failureTimes host history).length rule.limit
      have := rule.limit_pos
      omega
    refine ⟨_, List.getElem?_eq_getElem inside, ?_⟩
    simp [ofFailures, Nat.not_lt.2 many, List.getElem?_eq_getElem inside]
  · unfold isOpen
    cases (ofFailures rule (failureTimes host history)).openUntil <;> simp
  · have count : (ofFailures rule (failureTimes host history)).failures < rule.limit := small
    omega
  · rw [own.breaker, failureTimes_filter]

/-- Three failures of a host with a limit of two, and one of another host in between. -/
theorem breaker_of_three_failures :
    let history : List Call :=
      [⟨"a", 1, .failure⟩, ⟨"b", 2, .failure⟩, ⟨"a", 3, .failure⟩, ⟨"a", 4, .failure⟩]
    (∀ c ∈ history, c.ask = .failure → c.time + 10 < endOfTime) ∧
      ∃ r, Registry.calls ⟨2, ⟨2, 10⟩, {}⟩ history = .ok r ∧
        (r.host "a").breaker.failures = 1 ∧ (r.host "a").breaker.openUntil = some 13 := by
  intro history
  have room : ∀ c ∈ history, c.ask = .failure → c.time + 10 < endOfTime := by decide
  have times : failureTimes "a" history = [1, 3, 4] := by decide
  obtain ⟨r, made, failures, -, opened, -⟩ := breaker_of_calls 2 ⟨2, 10⟩ history room "a"
  rw [times] at failures opened
  obtain ⟨t, last, opened⟩ := opened (by decide)
  cases last
  exact ⟨room, r, made, failures, opened⟩

end Breaker

end Herald
