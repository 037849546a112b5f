import Herald.Proofs.Delivery.Run
import Herald.Proofs.Interleaving.Access

/-! The deeds of each delivery as the log tells them, however the deliveries are interleaved. Those of a
delivery that runs and the steps it has left make up its run; a delivery that was barred or rejected has
none. -/
namespace Herald

def Happening.deed? : Happening → Option Deed
  | .deed done => some done
  | _ => none

theorem Deed.deeds_seen (deed : Deed) (recorded : Option Breaker.Recorded) :
    (deed.seen recorded).filterMap Happening.deed? = [deed] := by
  rcases recorded with _ | _ | _ | _ <;> rfl

namespace Delivery

def Progress.deeds (p : Progress) : List Deed := p.seen.filterMap Happening.deed?

@[simp] theorem deeds_finish (d : Delivery) (now : Nat) (host : HostState) (ending : Ending) :
    (d.finish now host ending).deeds = [] := rfl

theorem Barred.congr {d other : Delivery} {hasPools : Bool} {ending : Ending}
    (barred : d.Barred hasPools ending) (job : other.job = d.job) (begun : other.begun = d.begun) :
    other.Barred hasPools ending := by
  cases barred with
  | noSlots none_ => exact .noSlots none_
  | late late => exact .late (by rw [job, begun]; exact late)
  | refused refused => exact .refused (job ▸ refused)

/-- The deeds of a delivery up to now, which fit what is left of its run. -/
inductive Traced (d : Delivery) (hasPools : Bool) : List Deed → Prop
  | waits : d.stage = .arriving ∨ d.stage = .queued → Traced d hasPools []
  | barred {ending : Ending} : d.stage = .over ending → d.Barred hasPools ending →
    Traced d hasPools []
  | rejected : d.stage = .over (.reported (.rejected d.job.host)) → Traced d hasPools []
  | runs {due : Nat} {past steps : List Step} : d.stage = .running due steps →
    d.job.run.steps = past ++ steps → Traced d hasPools (Step.deeds past)
  | ended : d.stage = .over d.job.ending → Traced d hasPools (Step.deeds d.job.run.steps)
  | crashed {attempt : Attempt} {result : Except Failure Unit} {past rest : List Step} :
    d.stage = .over (.crashed .time) →
    d.job.run.steps = past ++ .act (.ended attempt result) :: rest →
    Traced d hasPools (Step.deeds past)

variable {d : Delivery} {rule : Breaker.Rule} {hasPools : Bool} {now : Nat} {host : HostState}
  {p : Progress} {deeds : List Deed}

theorem Traced.eq_nil (traced : d.Traced hasPools deeds)
    (early : d.stage = .arriving ∨ d.stage = .queued) : deeds = [] := by
  cases traced with
  | waits => rfl
  | barred finished => simp [finished] at early
  | rejected finished => simp [finished] at early
  | runs running => simp [running] at early
  | ended finished => simp [finished] at early
  | crashed finished => simp [finished] at early

theorem Traced.split (traced : d.Traced hasPools deeds) {due : Nat} {steps : List Step}
    (running : d.stage = .running due steps) :
    ∃ past, d.job.run.steps = past ++ steps ∧ deeds = Step.deeds past := by
  cases traced with
  | waits early => simp [running] at early
  | barred finished => simp [running] at finished
  | rejected finished => simp [running] at finished
  | runs same split =>
    obtain ⟨rfl, rfl⟩ : _ = due ∧ _ = steps := by simpa [running] using same.symm
    exact ⟨_, split, rfl⟩
  | ended finished => simp [running] at finished
  | crashed finished => simp [running] at finished

theorem Enters.early {pool : SlotPool} (enters : d.Enters pool) :
    d.stage = .arriving ∨ d.stage = .queued :=
  enters.imp And.left fun granted => (isGranted_iff.1 granted).1

theorem over_of_accessed {ending : Ending} (accessed : d.Accessed rule hasPools now host p)
    (finished : d.stage = .over ending) : p.delivery.stage = .over ending := by
  cases accessed with
  | idles => exact finished
  | asks arriving => simp [finished] at arriving
  | barred before => simp [finished, isGranted] at before
  | rejected enters => have early := enters.early; simp [finished] at early
  | admitted enters => have early := enters.early; simp [finished] at early
  | rests running => simp [finished] at running
  | acts running => simp [finished] at running
  | crashes running => simp [finished] at running
  | ends running => simp [finished] at running

/-- Every access keeps the trace. -/
theorem traced_of_accessed (traced : d.Traced hasPools deeds)
    (accessed : d.Accessed rule hasPools now host p) :
    p.delivery.Traced hasPools (deeds ++ p.deeds) := by
  cases accessed with
  | idles => simpa [Progress.deeds] using traced
  | asks arriving =>
    rw [traced.eq_nil (.inl arriving)]
    exact .waits (.inr rfl)
  | barred before barred =>
    have early := before.imp_right fun granted => (isGranted_iff.1 granted).1
    rw [traced.eq_nil early, deeds_finish, List.append_nil]
    exact .barred rfl (barred.congr rfl rfl)
  | rejected enters =>
    rw [traced.eq_nil enters.early, deeds_finish, List.append_nil]
    exact .rejected rfl
  | admitted enters =>
    rw [traced.eq_nil enters.early]
    exact .runs rfl (List.nil_append _).symm
  | @rests _ ms rest running =>
    obtain ⟨past, split, rfl⟩ := traced.split running
    have on : d.job.run.steps = (past ++ [.wait ms]) ++ rest := by simpa using split
    have same : Step.deeds past ++ [] = Step.deeds (past ++ [.wait ms]) := by simp
    simp only [Progress.deeds, List.filterMap_nil, same]
    exact .runs rfl on
  | @acts _ deed rest _ recorded running =>
    obtain ⟨past, split, rfl⟩ := traced.split running
    have on : d.job.run.steps = (past ++ [.act deed]) ++ rest := by simpa using split
    have same : Step.deeds past ++ [deed] = Step.deeds (past ++ [.act deed]) := by simp
    simp only [Progress.deeds, Deed.deeds_seen, same]
    exact .runs rfl on
  | @crashes _ deed rest _ running noticed =>
    obtain ⟨past, split, rfl⟩ := traced.split running
    rw [deeds_finish, List.append_nil]
    cases deed with
    | ended attempt result => exact .crashed rfl split
    | _ => simp [Breaker.notice] at noticed
  | ends running =>
    obtain ⟨past, split, rfl⟩ := traced.split running
    rw [deeds_finish, List.append_nil, ← List.append_nil past, ← split]
    exact .ended rfl

end Delivery

namespace Floor

def trace (f : Floor) (place : Nat) : List (Nat × Deed) :=
  (f.log.reverse.filter (·.place == place)).filterMap fun e => e.what.deed?.map (Prod.mk e.time)

variable {f later : Floor} {place : Nat} {d : Delivery}

theorem entries_self {now : Nat} {seen : List Happening}
    (log : later.log = (seen.map (Entry.mk now place)).reverse ++ f.log) :
    later.log.reverse.filter (·.place == place) =
      f.log.reverse.filter (·.place == place) ++ seen.map (Entry.mk now place) := by
  have own : (seen.map (Entry.mk now place)).filter (·.place == place) = seen.map (Entry.mk now place) :=
    List.filter_eq_self.2 (by simp)
  rw [log, List.reverse_append, List.reverse_reverse, List.filter_append, own]

theorem entries_other {now other : Nat} {seen : List Happening} (ne : other ≠ place)
    (log : later.log = (seen.map (Entry.mk now other)).reverse ++ f.log) :
    later.log.reverse.filter (·.place == place) = f.log.reverse.filter (·.place == place) := by
  have foreign : (seen.map (Entry.mk now other)).filter (·.place == place) = [] := by
    simp [List.filter_map, Function.comp_def, ne]
  rw [log, List.reverse_append, List.reverse_reverse, List.filter_append, foreign, List.append_nil]

theorem trace_self {now : Nat} {p : Delivery.Progress}
    (log : later.log = (p.seen.map (Entry.mk now place)).reverse ++ f.log) :
    later.trace place = f.trace place ++ p.deeds.map (Prod.mk now) := by
  have new : (p.seen.map (Entry.mk now place)).filterMap
      (fun e => e.what.deed?.map (Prod.mk e.time)) = p.deeds.map (Prod.mk now) := by
    rw [Delivery.Progress.deeds, List.filterMap_map, List.map_filterMap]
    rfl
  rw [trace, entries_self log, List.filterMap_append, new, trace]

theorem trace_other {now other : Nat} {seen : List Happening} (ne : other ≠ place)
    (log : later.log = (seen.map (Entry.mk now other)).reverse ++ f.log) :
    later.trace place = f.trace place := by
  rw [trace, entries_other ne log, trace]

theorem Touched.trace {time : Nat} {p : Delivery.Progress}
    (touched : Touched f time place d p later) :
    later.trace place = f.trace place ++ p.deeds.map (Prod.mk (max f.now time)) :=
  trace_self touched.log

def host? (f : Floor) (place : Nat) : Option String := (f.deliveries[place]?).map (·.job.host)

theorem Touched.host? {time : Nat} {p : Delivery.Progress}
    (touched : Touched f time place d p later) (other : Nat) : later.host? other = f.host? other := by
  by_cases same : place = other
  · subst same
    simp [Floor.host?, touched.here, touched.there, touched.accessed.job]
  · simp [Floor.host?, touched.elsewhere same]

theorem Touched.host {time : Nat} {p : Delivery.Progress}
    (touched : Touched f time place d p later) : later.host? place = some d.job.host := by
  rw [touched.host?, Floor.host?, touched.there, Option.map_some]

theorem at_move (m : Move) (there : f.deliveries[place]? = some d) :
    ((f.move m).deliveries[place]? = some d ∧ (f.move m).trace place = f.trace place) ∨
    ∃ time p, m = .touch time place ∧ Touched f time place d p (f.move m) := by
  cases m with
  | add job =>
    have inside := (List.getElem?_eq_some_iff.1 there).1
    have added : (f.move (.add job)).deliveries =
        f.deliveries ++ [{ job := job, ticket := f.tickets }] := rfl
    exact .inl ⟨by rw [added, List.getElem?_append_left inside, there], rfl⟩
  | pass time => exact .inl ⟨there, rfl⟩
  | touch time other =>
    by_cases same : other = place
    · subst same
      obtain ⟨p, touched⟩ := touched time there
      exact .inr ⟨time, p, rfl, touched⟩
    · refine .inl ?_
      cases elsewhere : f.deliveries[other]? with
      | none =>
        rw [move, touch_of_none elsewhere]
        exact ⟨there, rfl⟩
      | some o =>
        obtain ⟨p, touched⟩ := touched time elsewhere
        exact ⟨(touched.elsewhere same).trans there, trace_other same touched.log⟩

theorem at_move_of_none (m : Move) (absent : f.deliveries[place]? = none) :
    (f.move m).trace place = f.trace place ∧
    ∀ new, (f.move m).deliveries[place]? = some new → m = .add new.job ∧ new.stage = .arriving := by
  cases m with
  | add job =>
    refine ⟨rfl, fun new there => ?_⟩
    have added : (f.move (.add job)).deliveries =
        f.deliveries ++ [{ job := job, ticket := f.tickets }] := rfl
    have last : place = f.deliveries.length := by
      have outside := List.getElem?_eq_none_iff.1 absent
      have inside := (List.getElem?_eq_some_iff.1 there).1
      rw [added, List.length_append, List.length_singleton] at inside
      omega
    rw [added, last, List.getElem?_concat_length] at there
    obtain rfl := Option.some.inj there
    exact ⟨rfl, rfl⟩
  | pass time => exact ⟨rfl, fun new there => by simp [move, absent] at there⟩
  | touch time other =>
    cases elsewhere : f.deliveries[other]? with
    | none =>
      rw [move, touch_of_none elsewhere]
      exact ⟨rfl, fun new there => by simp [absent] at there⟩
    | some o =>
      have ne : other ≠ place := fun same => by simp [← same, elsewhere] at absent
      obtain ⟨p, touched⟩ := touched time elsewhere
      refine ⟨trace_other ne touched.log, fun new there => ?_⟩
      have still := touched.elsewhere ne
      rw [absent] at still
      exact absurd there (by simp [move, still])

theorem exists_of_moves (there : f.deliveries[place]? = some d) (ms : List Move) :
    ∃ later, (f.moves ms).deliveries[place]? = some later ∧ later.job = d.job := by
  induction ms generalizing f d with
  | nil => exact ⟨d, there, rfl⟩
  | cons m ms ih =>
    rcases at_move m there with ⟨still, -⟩ | ⟨time, p, -, touched⟩
    · exact ih still
    · obtain ⟨later, at_, job⟩ := ih touched.here
      exact ⟨later, at_, job.trans touched.accessed.job⟩

theorem exists_of_add (f : Floor) (job : Job) (ms : List Move) :
    ∃ d, (f.moves (.add job :: ms)).deliveries[f.deliveries.length]? = some d ∧ d.job = job := by
  have new : (f.move (.add job)).deliveries[f.deliveries.length]? =
      some { job := job, ticket := f.tickets } := by
    simp [move, add, schedule]
  exact exists_of_moves new ms

theorem job_of_moves {ms : List Move} (there : (f.moves ms).deliveries[place]? = some d) :
    (∃ old, f.deliveries[place]? = some old ∧ old.job = d.job) ∨ .add d.job ∈ ms := by
  induction ms generalizing f with
  | nil => exact .inl ⟨d, there, rfl⟩
  | cons m ms ih =>
    rcases ih there with ⟨mid, at_, job⟩ | later
    · cases before : f.deliveries[place]? with
      | none =>
        have new := (at_move_of_none m before).2 mid at_
        exact .inr (by simp [new.1, job])
      | some old =>
        rcases at_move m before with ⟨still, -⟩ | ⟨time, p, -, touched⟩
        · rw [still] at at_
          exact .inl ⟨old, rfl, Option.some.inj at_ ▸ job⟩
        · rw [touched.here] at at_
          have own := touched.accessed.job
          exact .inl ⟨old, rfl, by rw [← own, Option.some.inj at_, job]⟩
    · exact .inr (List.mem_cons_of_mem _ later)

theorem add_mem_of_moves {ms : List Move} (empty : f.deliveries = [])
    (mem : d ∈ (f.moves ms).deliveries) : .add d.job ∈ ms := by
  obtain ⟨place, there⟩ := List.mem_iff_getElem?.1 mem
  exact (job_of_moves there).resolve_left (by simp [empty])

/-- The log tells of every delivery what fits its stage, and of no others. -/
structure Traced (f : Floor) : Prop where
  here : ∀ {place : Nat} {d : Delivery}, f.deliveries[place]? = some d →
    d.Traced f.registry.hasPools ((f.trace place).map Prod.snd)
  nowhere : ∀ {place : Nat}, f.deliveries[place]? = none → f.trace place = []

theorem traced_start (r : Registry) (fairness : Fairness) (now : Nat) :
    Traced { registry := r, fairness := fairness, now := now } :=
  ⟨fun there => by simp at there, fun _ => rfl⟩

theorem rule_move (f : Floor) (m : Move) : (f.move m).registry.rule = f.registry.rule ∧
    (f.move m).registry.slots = f.registry.slots := by
  cases m with
  | add job => exact ⟨rfl, rfl⟩
  | pass time => exact ⟨rfl, rfl⟩
  | touch time place =>
    simp only [move, touch]
    split <;> exact ⟨rfl, rfl⟩

theorem hasPools_move (f : Floor) (m : Move) :
    (f.move m).registry.hasPools = f.registry.hasPools := by
  rw [Registry.hasPools, Registry.hasPools, (f.rule_move m).2]

theorem hasPools_moves (f : Floor) (ms : List Move) :
    (f.moves ms).registry.hasPools = f.registry.hasPools := by
  induction ms generalizing f with
  | nil => rfl
  | cons m ms ih => exact (ih (f.move m)).trans (f.hasPools_move m)

theorem Traced.move (traced : f.Traced) (m : Move) : (f.move m).Traced := by
  constructor
  · intro place d there
    rw [hasPools_move]
    cases before : f.deliveries[place]? with
    | none =>
      obtain ⟨same, new⟩ := at_move_of_none m before
      rw [same, traced.nowhere before]
      exact .waits (.inl (new d there).2)
    | some old =>
      have own := traced.here before
      rcases at_move m before with ⟨still, same⟩ | ⟨time, p, -, touched⟩
      · rw [same]
        rw [still] at there
        exact Option.some.inj there ▸ own
      · have on := Delivery.traced_of_accessed own touched.accessed
        rw [touched.here] at there
        rw [touched.trace]
        obtain rfl := Option.some.inj there
        simpa [Function.comp_def] using on
  · intro place absent
    cases before : f.deliveries[place]? with
    | none => exact (at_move_of_none m before).1.trans (traced.nowhere before)
    | some old =>
      rcases at_move m before with ⟨still, -⟩ | ⟨_, _, -, touched⟩
      · simp [absent] at still
      · have here := touched.here
        simp [absent] at here

theorem Traced.moves (traced : f.Traced) (ms : List Move) : (f.moves ms).Traced := by
  induction ms generalizing f with
  | nil => exact traced
  | cons m ms ih => exact ih (traced.move m)

end Floor

end Herald
