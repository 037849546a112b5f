import Herald.Proofs.Isolation.Agenda
import Mathlib.Data.Nat.Nth
import Mathlib.Data.Set.Finite.Basic

/-! The jobs on one host among all jobs. Their places and tickets, numbered as if they were alone, keep
their order among all. -/
namespace Herald

/-- Guests have the first tickets. -/
structure Selection where
  jobs : List Job
  key : String
  guests : Nat

namespace Selection

variable (s : Selection)

/-- Whether the job at a place is on the host. The places beyond the last job count as such. -/
def owns (place : Nat) : Bool := (s.jobs[place]?).all (·.host == s.key)

noncomputable def place (i : Nat) : Nat := Nat.nth (fun p => s.owns p = true) i

noncomputable def ticket (t : Nat) : Nat :=
  if t < s.guests then t else s.guests + s.place (t - s.guests)

noncomputable def number : Nat → Nat
  | 0 => 0
  | i + 1 => s.place i + 1

noncomputable def turn (rounds : Nat → Nat) (t : Turn) : Turn :=
  ⟨t.due, rounds t.round, s.number t.number⟩

theorem endless : (Set.ofPred fun p => s.owns p = true).Infinite := by
  refine Set.infinite_of_forall_exists_gt fun n => ⟨max n s.jobs.length + 1, ?_, by omega⟩
  have beyond : s.jobs[max n s.jobs.length + 1]? = none :=
    List.getElem?_eq_none (by omega)
  show s.owns _ = true
  simp [owns, beyond]

theorem place_strictMono : StrictMono s.place := Nat.nth_strictMono s.endless

@[simp] theorem owns_place (i : Nat) : s.owns (s.place i) = true :=
  Nat.nth_mem_of_infinite s.endless i

theorem exists_place {place : Nat} (own : s.owns place = true) : ∃ i, s.place i = place := by
  have mem : place ∈ Set.range s.place :=
    (Nat.range_nth_of_infinite s.endless).symm ▸ own
  exact mem

@[simp] theorem place_inj {i j : Nat} : s.place i = s.place j ↔ i = j :=
  s.place_strictMono.injective.eq_iff

@[simp] theorem ticket_own (i : Nat) : s.ticket (s.guests + i) = s.guests + s.place i := by
  simp [ticket]

theorem ticket_guest {t : Nat} (guest : t < s.guests) : s.ticket t = t := if_pos guest

theorem ticket_injective : Function.Injective s.ticket := by
  intro a b same
  have inj : s.place (a - s.guests) = s.place (b - s.guests) → a - s.guests = b - s.guests :=
    s.place_inj.1
  unfold ticket at same
  split at same
  · split at same
    · exact same
    · omega
  · split at same
    · omega
    · have := inj (by omega)
      omega

theorem number_strictMono : StrictMono s.number := by
  refine strictMono_nat_of_lt_succ fun i => ?_
  cases i with
  | zero => exact Nat.succ_pos _
  | succ i => exact Nat.succ_lt_succ (s.place_strictMono (Nat.lt_succ_self i))

theorem precedes_turn {rounds : Nat → Nat} (mono : StrictMono rounds) (a b : Turn) :
    (s.turn rounds a).precedes (s.turn rounds b) = a.precedes b := by
  rw [Bool.eq_iff_iff, Turn.precedes_iff, Turn.precedes_iff]
  simp only [turn, mono.lt_iff_lt, mono.injective.eq_iff, s.number_strictMono.lt_iff_lt]

theorem turn_byPlace (current : Turn) (count other i due : Nat) :
    Fairness.byPlace.turn (s.turn id current) count (s.place i) due =
      s.turn id (Fairness.byPlace.turn current other i due) := by
  have less : s.number current.number < s.place i + 1 ↔ current.number < i + 1 :=
    s.number_strictMono.lt_iff_lt (b := i + 1)
  simp only [Fairness.turn, turn, id, less]
  split
  · rfl
  · split <;> rfl

end Selection

end Herald
