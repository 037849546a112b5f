import Herald.Proofs.Interleaving.Trace
import Herald.Proofs.Isolation.Mirror

/-! Hosts are isolated from each other. What becomes of the deliveries to a host and of the host itself is the
same if all jobs for other hosts are left out. -/
namespace Herald

namespace Floor

variable {s : Selection} {f g : Floor}

section Start

theorem mirrors_start (s : Selection) (r : Registry) (fairness : Fairness) (now : Nat)
    (numbered : ∀ t, (r.host s.key).pool.Has t → t < s.guests) :
    Mirrors s { registry := r, fairness := fairness, now := now, tickets := s.guests }
      { registry := r, fairness := fairness, now := now, tickets := s.guests } where
  fairness := rfl
  rule := rfl
  slots := rfl
  host := by
    have held : (r.host s.key).pool.held.map s.ticket = (r.host s.key).pool.held :=
      (List.map_congr_left fun t mem => s.ticket_guest (numbered t (.inl mem))).trans (List.map_id _)
    have waiting : (r.host s.key).pool.waiting.map s.ticket = (r.host s.key).pool.waiting :=
      (List.map_congr_left fun t mem => s.ticket_guest (numbered t (.inr mem))).trans (List.map_id _)
    simp only [HostState.relabel, SlotPool.relabel, held, waiting]
  here _ := rfl
  log := rfl
  agenda := ⟨id, rfl, strictMono_id, fun _ => rfl, fun _ => ⟨by simp, by simp⟩⟩

theorem unseen_add (f : Floor) (job : Job) (foreign : s.owns f.deliveries.length = false) :
    Unseen s f (f.add job) := by
  have joined : Unseen s f (f.join job) := by
    refine ⟨rfl, rfl, rfl, rfl, fun place own => ?_, rfl, rfl, Nat.le_refl _⟩
    have ne : place ≠ f.deliveries.length := fun same => by simp [same, foreign] at own
    rw [getElem?_join, if_neg ne]
  exact joined.trans (unseen_schedule _ _ foreign)

theorem Mirrors.length (mirrors : Mirrors s f g) :
    g.deliveries.length = Nat.count (fun place => s.owns place = true) f.deliveries.length := by
  refine eq_of_forall_lt_iff fun i => ?_
  have absent : f.deliveries[s.place i]? = none ↔ g.deliveries[i]? = none := by
    rw [mirrors.here i, Option.map_eq_none_iff]
  rw [List.getElem?_eq_none_iff, List.getElem?_eq_none_iff] at absent
  rw [Nat.lt_nth_iff_count_lt s.endless, ← Selection.place]
  omega

theorem Mirrors.place_length (mirrors : Mirrors s f g)
    (own : s.owns f.deliveries.length = true) : s.place g.deliveries.length = f.deliveries.length := by
  rw [Selection.place, mirrors.length, Nat.nth_count own]

theorem Mirrors.add (mirrors : Mirrors s f g) (inStep : InStep s f g)
    (planned : Planned s.guests f) (alone : Planned s.guests g) (job : Job)
    (own : s.owns f.deliveries.length = true) : Mirrors s (f.add job) (g.add job) := by
  have last := mirrors.place_length own
  have joined : Mirrors s (f.join job) (g.join job) := by
    obtain ⟨rounds, aligned⟩ := mirrors.agenda
    refine ⟨mirrors.fairness, mirrors.rule, mirrors.slots, mirrors.host, fun i => ?_, mirrors.log,
      rounds, ⟨aligned.agenda, aligned.mono, aligned.byPlace, aligned.byArrival⟩⟩
    have here : s.place i = f.deliveries.length ↔ i = g.deliveries.length := by
      rw [← last, s.place_inj]
    have ticket : f.tickets = s.ticket g.tickets := by
      rw [planned.tickets, alone.tickets, s.ticket_own, last]
    simp only [getElem?_join, here]
    split
    · rw [ticket]
      rfl
    · exact mirrors.here i
  have scheduled := joined.schedule ⟨inStep.now, inStep.current⟩ g.deliveries.length f.now
  rw [last] at scheduled
  rw [add_eq_join, add_eq_join, ← inStep.now]
  exact scheduled

theorem Mirrors.addAll (mirrors : Mirrors s f g) (inStep : InStep s f g)
    (planned : Planned s.guests f) (alone : Planned s.guests g) {jobs : List Job}
    (rest : s.jobs = f.jobs ++ jobs) :
    Mirrors s (f.addAll jobs) (g.addAll (jobs.filter (·.host == s.key))) := by
  induction jobs generalizing f g with
  | nil => exact mirrors
  | cons job jobs ih =>
    have own : s.owns f.deliveries.length = (job.host == s.key) := by
      have length : f.jobs.length = f.deliveries.length := List.length_map _
      simp [Selection.owns, rest, ← length]
    have left : s.jobs = (f.add job).jobs ++ jobs := by
      rw [rest, Floor.jobs, Floor.jobs]
      simp [Floor.add, Floor.schedule]
    cases here : job.host == s.key with
    | true =>
      rw [List.filter_cons_of_pos (by exact here)]
      exact ih (mirrors.add inStep planned alone job (own.trans here)) ⟨inStep.now, inStep.current⟩
        (planned.add job) (alone.add job) left
    | false =>
      rw [List.filter_cons_of_neg (by simp [here])]
      exact ih (mirrors.unseen (unseen_add f job (own.trans here))) ⟨inStep.now, inStep.current⟩
        (planned.add job) alone left

end Start

def places (f : Floor) (key : String) : List Nat :=
  (List.range f.deliveries.length).filter fun place => f.host? place == some key

/-- What happened to the delivery at a place, and when. -/
def history (f : Floor) (place : Nat) : List (Nat × Happening) :=
  (f.log.reverse.filter (·.place == place)).map fun e => (e.time, e.what)

theorem filterMap_range {α : Type} (l : List α) :
    (List.range l.length).filterMap (l[·]?) = l := by
  induction l with
  | nil => rfl
  | cons a l ih =>
    rw [List.length_cons, List.range_succ_eq_map, List.filterMap_cons, List.filterMap_map]
    simpa [Function.comp_def] using ih

theorem filterMap_places (f : Floor) (key : String) :
    (f.places key).filterMap (f.deliveries[·]?) = f.deliveries.filter (·.job.host == key) := by
  conv_rhs => rw [← filterMap_range f.deliveries, List.filter_filterMap]
  rw [places, List.filterMap_filter]
  refine List.filterMap_congr fun place _ => ?_
  rw [host?]
  cases f.deliveries[place]? with
  | none => rfl
  | some d => simp [Option.filter]

theorem places_eq_filter (lists : s.Lists f) :
    f.places s.key = (List.range f.deliveries.length).filter s.owns := by
  refine List.filter_congr fun place mem => ?_
  have there := List.getElem?_eq_getElem (List.mem_range.1 mem)
  rw [lists.owns there, host?, there]
  simp

theorem filter_range (s : Selection) (n : Nat) :
    (List.range n).filter s.owns =
      (List.range (Nat.count (fun place => s.owns place = true) n)).map s.place := by
  induction n with
  | zero => rfl
  | succ n ih =>
    rw [List.range_succ, List.filter_append, ih, Nat.count_succ]
    by_cases own : s.owns n = true
    · have last : s.place (Nat.count (fun place => s.owns place = true) n) = n := Nat.nth_count own
      simp [own, List.range_succ, last]
    · simp [own]

theorem Mirrors.places (mirrors : Mirrors s f g) (lists : s.Lists f) :
    f.places s.key = (List.range g.deliveries.length).map s.place := by
  rw [places_eq_filter lists, filter_range, mirrors.length]

theorem Mirrors.history (mirrors : Mirrors s f g) (i : Nat) :
    f.history (s.place i) = g.history i := by
  have own : f.log.filter (·.place == s.place i) =
      (f.log.filter (s.owns ·.place)).filter (·.place == s.place i) := by
    rw [List.filter_filter]
    refine List.filter_congr fun e _ => ?_
    by_cases same : e.place = s.place i
    · simp [same]
    · simp [same]
  have moved : (g.log.map s.told).filter (·.place == s.place i) =
      (g.log.filter (·.place == i)).map s.told := by
    rw [List.filter_map]
    refine congrArg _ (List.filter_congr fun e _ => ?_)
    rw [Bool.eq_iff_iff]
    simp [Selection.told]
  simp only [Floor.history, List.filter_reverse, own, mirrors.log, moved, List.map_reverse,
    List.map_map]
  rfl

theorem Mirrors.deliveries (mirrors : Mirrors s f g) (lists : s.Lists f) :
    f.deliveries.filter (·.job.host == s.key) = g.deliveries.map (Delivery.relabel s.ticket) := by
  conv_rhs => rw [← filterMap_range g.deliveries, List.map_filterMap]
  rw [← filterMap_places, mirrors.places lists, List.filterMap_map]
  exact List.filterMap_congr fun i _ => mirrors.here i

theorem places_of_all (f : Floor) (key : String) (all : ∀ job ∈ f.jobs, job.host = key) :
    f.places key = List.range f.deliveries.length := by
  refine List.filter_eq_self.2 fun place mem => ?_
  have there := List.getElem?_eq_getElem (List.mem_range.1 mem)
  have own := all _ (List.mem_map_of_mem (List.mem_of_getElem? there))
  rw [host?, there]
  simpa using own

theorem mirrors_played (r : Registry) (fairness : Fairness) (now guests : Nat) (jobs : List Job)
    (key : String) (numbered : ∀ ticket, (r.host key).pool.Has ticket → ticket < guests) :
    let start : Floor := { registry := r, fairness := fairness, now := now, tickets := guests }
    let all := (start.addAll jobs).playWhile fun _ _ => true
    let alone := (start.addAll (jobs.filter (·.host == key))).playWhile fun _ _ => true
    all.jobs = jobs ∧ alone.jobs = jobs.filter (·.host == key) ∧
      all.agenda = [] ∧ alone.agenda = [] ∧ Selection.Lists ⟨jobs, key, guests⟩ all ∧
      Mirrors ⟨jobs, key, guests⟩ all alone := by
  intro start all alone
  let s : Selection := ⟨jobs, key, guests⟩
  have planned (these : List Job) : Planned guests (start.addAll these) :=
    (planned_start r fairness now guests).addAll these
  have begun : Mirrors s (start.addAll jobs) (start.addAll (jobs.filter (·.host == key))) :=
    (mirrors_start s r fairness now numbered).addAll ⟨rfl, fun _ => rfl⟩
      (planned_start r fairness now guests) (planned_start r fairness now guests) rfl
  have listed (these : List Job) : (start.addAll these).jobs = these := by
    rw [jobs_addAll]
    rfl
  have plays : Plays (start.addAll jobs) all := plays_playWhile (planned jobs)
  have playsAlone : Plays (start.addAll (jobs.filter (·.host == key))) alone :=
    plays_playWhile (planned _)
  obtain ⟨ends, ending, mirrors, lists⟩ := begun.plays plays (planned jobs) (planned _)
    (by rw [Selection.Lists, listed])
  obtain rfl := ending.unique playsAlone
  exact ⟨(plays.jobs (planned jobs)).trans (listed jobs),
    (playsAlone.jobs (planned _)).trans (listed _), plays.agenda, playsAlone.agenda, lists, mirrors⟩

theorem Mirrors.histories (mirrors : Mirrors s f g) (lists : s.Lists f)
    (own : ∀ job ∈ g.jobs, job.host = s.key) :
    (f.places s.key).map f.history = (g.places s.key).map g.history := by
  rw [places_of_all g s.key own, mirrors.places lists, List.map_map]
  exact List.map_congr_left fun i _ => mirrors.history i

/-- Hosts are isolated from each other. However a list of jobs is started together, and whatever state the
hosts are in, the deliveries to a host end as they would without all jobs for other hosts: with the same
reports, after the same waits for a slot and with the same calls at the same times. The breaker and the slots
of the host end the same as well. Only the tickets that name the deliveries differ. -/
theorem hosts_isolated (r : Registry) (fairness : Fairness) (now guests : Nat) (jobs : List Job)
    (key : String) (numbered : ∀ ticket, (r.host key).pool.Has ticket → ticket < guests) :
    let start : Floor := { registry := r, fairness := fairness, now := now, tickets := guests }
    let all := (start.addAll jobs).playWhile fun _ _ => true
    let alone := (start.addAll (jobs.filter (·.host == key))).playWhile fun _ _ => true
    all.jobs = jobs ∧ alone.jobs = jobs.filter (·.host == key) ∧
    all.agenda = [] ∧ alone.agenda = [] ∧
    (all.places key).map all.history = (alone.places key).map alone.history ∧
    ∃ label : Nat → Nat, Function.Injective label ∧ (∀ ticket < guests, label ticket = ticket) ∧
      all.deliveries.filter (·.job.host == key) = alone.deliveries.map (Delivery.relabel label) ∧
      all.registry.host key = (alone.registry.host key).relabel label := by
  intro start all alone
  let s : Selection := ⟨jobs, key, guests⟩
  obtain ⟨allJobs, ownJobs, idle, idleAlone, lists, mirrors⟩ :=
    mirrors_played r fairness now guests jobs key numbered
  refine ⟨allJobs, ownJobs, idle, idleAlone, mirrors.histories lists fun job mem => ?_, s.ticket,
    s.ticket_injective, fun _ => s.ticket_guest, mirrors.deliveries lists, mirrors.host⟩
  rw [ownJobs] at mem
  exact beq_iff_eq.1 (List.mem_filter.1 mem).2

/-- Two slots, one of which a guest holds. Two deliveries to this host with one to another between them: each
fails twice, and the later one to this host waits for the slot and is rejected. -/
theorem hosts_isolated_of_two :
    let r : Registry := (⟨2, ⟨1, 60000⟩, {}⟩ : Registry).setHost "a" { pool := ⟨1, [0], []⟩ }
    let reset : Failure := .http (.stated "reset")
    let job (host : String) : Job := { host := host, timeout := 1000, delays := [5],
                                       operation := fun _ => .done (.error reset) }
    let jobs := [job "a", job "b", job "a"]
    let start : Floor := { registry := r, fairness := .byPlace, now := 0, tickets := 1 }
    let all := (start.addAll jobs).playWhile fun _ _ => true
    let alone := (start.addAll (jobs.filter (·.host == "a"))).playWhile fun _ _ => true
    all.places "a" = [0, 2] ∧ alone.places "a" = [0, 1] ∧
      all.history 0 = alone.history 0 ∧ all.history 2 = alone.history 1 ∧
      (all.registry.host "a").breaker = (alone.registry.host "a").breaker ∧
      (all.registry.host "a").pool.available = (alone.registry.host "a").pool.available := by
  intro r reset job jobs start all alone
  have guest : (r.host "a").pool = ⟨1, [0], []⟩ := by decide
  obtain ⟨-, -, -, -, histories, label, -, -, -, host⟩ :=
    hosts_isolated r .byPlace 0 1 jobs "a" fun ticket has => by
      simpa [SlotPool.Has, guest] using has
  have places : all.places "a" = [0, 2] := by decide
  have placesAlone : alone.places "a" = [0, 1] := by decide
  have both : [all.history 0, all.history 2] = [alone.history 0, alone.history 1] := by
    rw [places, placesAlone] at histories
    exact histories
  obtain ⟨first, second⟩ := List.cons.inj both
  refine ⟨places, placesAlone, first, (List.cons.inj second).1, ?_, ?_⟩
  · rw [host, HostState.breaker_relabel]
  · rw [host, HostState.available_relabel]

end Floor

end Herald
