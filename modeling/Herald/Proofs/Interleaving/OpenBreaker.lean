import Herald.Proofs.Delivery.Report
import Herald.Proofs.Interleaving.Slots
import Herald.Proofs.Interleaving.Trace

/-! What an open breaker stops. While it is open nobody gets past it, so only deliveries that have been past
it before go on, no more of them than there are slots; each has so many attempts left at most as its job
allows, and the one whose failure opened the breaker has started one of them already. -/
namespace Herald

def Happening.isCall (what : Happening) : Bool := what.deed?.any Deed.isCall

def Happening.opens : Happening → Bool
  | .opened => true
  | _ => false

/-- A job that takes a slot and makes so many attempts at most. -/
structure Job.Bounded (most : Nat) (j : Job) : Prop where
  needsSlot : j.needsSlot = true
  few : j.delays.length + 1 ≤ most
  own : ∀ i, ∀ deed ∈ (j.operation i).deeds, deed.isOwn = true

theorem Service.bounded_job (s : Service) (destination : Destination) (event : Event) :
    (s.job destination event).Bounded s.config.policy.maxAttempts := by
  refine ⟨rfl, Nat.le_of_eq s.length_delays, fun i => ?_⟩
  simp only [job]
  split
  · exact Http.Talk.isOwn_of_mem_course
  · simp [Course.deeds]

theorem Service.bounded_hookJob (s : Service) (event : Event) (hook : Hook) :
    (s.hookJob event hook).Bounded s.config.policy.maxAttempts :=
  let bounded := s.bounded_job (Locator.classify hook.url) event
  ⟨bounded.needsSlot, bounded.few, bounded.own⟩

theorem Course.calls_attempt {course : Course} (own : ∀ deed ∈ course.deeds, deed.isOwn = true)
    (l : Limits) (index time : Nat) :
    ∃ rest, Step.deeds (course.attempt l index time).steps = .called :: rest ∧
      rest.countP Deed.isCall = 0 := by
  obtain ⟨inner, within, deeds⟩ := deeds_attempt own l index time
  refine ⟨inner ++ closing index time (course.attempt l index time), deeds, ?_⟩
  have last : (closing index time (course.attempt l index time)).countP Deed.isCall = 0 := by
    unfold closing
    split <;> rfl
  have others : inner.countP Deed.isCall = 0 := by
    refine List.countP_eq_zero.2 fun deed mem => ?_
    rcases within deed mem with rfl | own
    · simp [Deed.isCall]
    · cases deed <;> simp_all [Deed.isCall, Deed.isOwn]
  rw [List.countP_append, others, last]

theorem calls_attemptsFrom {operation : Nat → Course}
    (own : ∀ i, ∀ deed ∈ (operation i).deeds, deed.isOwn = true) (l : Limits) (delays : List Nat)
    (index time : Nat) :
    ∃ rest, Step.deeds (attemptsFrom l operation delays index time).steps = .called :: rest ∧
      rest.countP Deed.isCall ≤ delays.length := by
  refine attemptsFrom_induction (P := fun delays _ _ s => ∃ rest,
    Step.deeds s.steps = .called :: rest ∧ rest.countP Deed.isCall ≤ delays.length)
    ?_ ?_ ?_ ?_ delays index time
  · rintro delays index time _ rfl -
    obtain ⟨rest, deeds, none_⟩ := Course.calls_attempt (own index) l index time
    exact ⟨rest, deeds, by omega⟩
  · rintro index time _ _ rfl -
    obtain ⟨rest, deeds, none_⟩ := Course.calls_attempt (own index) l index time
    exact ⟨rest, deeds, by omega⟩
  · rintro delay delays index time _ _ _ _ rfl - rfl -
    obtain ⟨rest, deeds, none_⟩ := Course.calls_attempt (own index) l index time
    exact ⟨rest, by simp [deeds, (l.rested _ delay).deeds], by omega⟩
  · rintro delay delays index time _ _ _ rfl - rfl - ⟨later, again, few⟩
    obtain ⟨rest, deeds, none_⟩ := Course.calls_attempt (own index) l index time
    refine ⟨rest ++ .called :: later, ?_, ?_⟩
    · simp [Stretch.after, deeds, (l.rested _ delay).deeds, again]
    · simp only [List.countP_append, List.countP_cons, List.length_cons, Deed.isCall, none_]
      simp only [if_true]
      omega

namespace Delivery

def callsLeft (d : Delivery) : Nat :=
  match d.stage with
  | .running _ steps => (Step.deeds steps).countP Deed.isCall
  | _ => 0

def callsLeftOn (key : String) (d : Delivery) : Nat := if d.job.host = key then d.callsLeft else 0

def waits (d : Delivery) : Bool :=
  match d.stage with
  | .arriving => true
  | .queued => true
  | _ => false

theorem waits_iff {d : Delivery} :
    d.waits = true ↔ d.stage = .arriving ∨ d.stage = .queued := by
  cases stage : d.stage <;> simp [waits, stage]

variable {d : Delivery} {rule : Breaker.Rule} {hasPools : Bool} {now : Nat} {host : HostState}
  {p : Progress}

theorem callsLeft_of_not_running (idle : d.stage.isRunning = false) : d.callsLeft = 0 := by
  unfold callsLeft
  split
  · next running => simp [running, Stage.isRunning] at idle
  · rfl

theorem callsLeft_le {most : Nat} {deeds : List Deed} (traced : d.Traced hasPools deeds)
    (bounded : d.job.Bounded most) : d.callsLeft ≤ most ∧ (deeds ≠ [] → d.callsLeft < most) := by
  have room := bounded.few
  cases stage : d.stage with
  | running due steps =>
    obtain ⟨past, split, rfl⟩ := traced.split stage
    obtain ⟨rest, calls, few⟩ := calls_attemptsFrom bounded.own d.job.limits d.job.delays 1 0
    have whole : Step.deeds past ++ Step.deeds steps = .called :: rest := by
      rw [← Step.deeds_append, ← split]
      exact calls
    have left : d.callsLeft = (Step.deeds steps).countP Deed.isCall := by
      rw [callsLeft, stage]
    cases begun : Step.deeds past with
    | nil =>
      rw [begun, List.nil_append] at whole
      refine ⟨?_, fun some_ => absurd rfl some_⟩
      simp only [left, whole, List.countP_cons, Deed.isCall, if_true]
      omega
    | cons first others =>
      rw [begun, List.cons_append] at whole
      obtain ⟨-, rfl⟩ := List.cons.inj whole
      rw [List.countP_append] at few
      omega
  | _ =>
    have none_ : d.callsLeft = 0 := callsLeft_of_not_running (by rw [stage]; rfl)
    omega

theorem Traced.of_nil {most : Nat} (traced : d.Traced hasPools []) (bounded : d.job.Bounded most)
    (idle : d.stage.isRunning = false) : d.stage = .arriving ∨ d.stage = .queued ∨
      ∃ ending, d.stage = .over ending ∧
        (ending = .reported (.rejected d.job.host) ∨ d.Barred hasPools ending) := by
  obtain ⟨calls, starts, -⟩ := calls_attemptsFrom bounded.own d.job.limits d.job.delays 1 0
  have starts : Step.deeds d.job.run.steps = .called :: calls := starts
  generalize none_ : ([] : List Deed) = deeds at traced
  cases traced with
  | waits early => exact early.imp_right .inl
  | barred finished barred => exact .inr (.inr ⟨_, finished, .inr barred⟩)
  | rejected finished => exact .inr (.inr ⟨_, finished, .inl rfl⟩)
  | runs running => simp [running, Stage.isRunning] at idle
  | ended => simp [starts] at none_
  | crashed _ split =>
    -- the run does not begin with the end of an attempt
    rw [split, Step.deeds_append, ← none_, List.nil_append, Step.deeds_act] at starts
    cases (List.cons.inj starts).1

theorem calls_of_accessed (accessed : d.Accessed rule hasPools now host p)
    (isOpen : host.breaker.isOpen now = true) :
    p.seen.countP Happening.isCall + p.delivery.callsLeft ≤ d.callsLeft := by
  have quiet (ending : Ending) : [Happening.over ending].countP Happening.isCall = 0 := rfl
  cases accessed with
  | idles => simp
  | asks => simp [callsLeft]
  | barred => simp [finish, callsLeft, quiet]
  | rejected => simp [finish, callsLeft, quiet]
  | admitted _ closed => simp [isOpen] at closed
  | rests running => simp [callsLeft, running]
  | @acts _ deed rest _ recorded running =>
    have once : (deed.seen recorded).countP Happening.isCall = [deed].countP Deed.isCall := by
      rcases recorded with _ | _ | _ | _ <;> rfl
    simp only [callsLeft, running, once, Step.deeds_act]
    exact Nat.le_of_eq (by rw [← List.countP_append, List.singleton_append])
  | crashes => simp [finish, callsLeft, quiet]
  | ends => simp [finish, callsLeft, quiet]

theorem isRunning_of_accessed (accessed : d.Accessed rule hasPools now host p)
    (isOpen : host.breaker.isOpen now = true) (running : p.delivery.stage.isRunning = true) :
    d.stage.isRunning = true := by
  cases accessed with
  | idles => exact running
  | asks => cases running
  | barred => cases running
  | rejected => cases running
  | admitted _ closed => simp [isOpen] at closed
  | rests same => simp [same, Stage.isRunning]
  | acts same => simp [same, Stage.isRunning]
  | crashes same => simp [same, Stage.isRunning]
  | ends same => simp [same, Stage.isRunning]

theorem deeds_of_not_running (accessed : d.Accessed rule hasPools now host p)
    (idle : d.stage.isRunning = false) : p.deeds = [] := by
  cases accessed with
  | acts same => simp [same, Stage.isRunning] at idle
  | _ => rfl

theorem acts_of_opened (accessed : d.Accessed rule hasPools now host p)
    (opened : .opened ∈ p.seen) :
    ∃ due attempt result rest,
      d.stage = .running due (.act (.ended attempt result) :: rest) ∧
      p.delivery.stage = .running now rest ∧ p.deeds = [.ended attempt result] := by
  cases accessed with
  | @acts due deed rest _ recorded running noticed =>
    cases deed with
    | ended attempt result => exact ⟨due, attempt, result, rest, running, rfl, Deed.deeds_seen _ _⟩
    | _ =>
      obtain ⟨-, rfl⟩ := Prod.mk.inj noticed
      simp [Deed.seen] at opened
  | _ => simp [finish] at opened

end Delivery

namespace Floor

/-- The breaker of a host is open at each of some moves. -/
def StaysOpen (key : String) : Floor → List Move → Prop
  | _, [] => True
  | f, m :: ms =>
    (f.registry.host key).breaker.isOpen (f.move m).now = true ∧ StaysOpen key (f.move m) ms

instance decidableStaysOpen (key : String) : (f : Floor) → (ms : List Move) →
    Decidable (StaysOpen key f ms)
  | _, [] => .isTrue trivial
  | f, m :: ms =>
    have : Decidable (StaysOpen key (f.move m) ms) := decidableStaysOpen key (f.move m) ms
    inferInstanceAs (Decidable (_ ∧ _))

def isCallOn (f : Floor) (key : String) (e : Entry) : Bool :=
  e.what.isCall && f.host? e.place == some key

def Runs (f : Floor) (key : String) (place : Nat) : Prop :=
  ∃ d, f.deliveries[place]? = some d ∧ d.job.host = key ∧ d.stage.isRunning = true

def callsLeft (f : Floor) (key : String) : Nat :=
  Delivery.total (Delivery.callsLeftOn key) f.deliveries

variable {f g later : Floor} {key : String} {place : Nat} {d : Delivery}

/-- What deliveries to a host do while its breaker is open: some entries more in the log, with no more calls
than were left, by deliveries that were past the breaker before. -/
structure Spent (key : String) (f later : Floor) (new : List Entry) : Prop where
  log : later.log = new ++ f.log
  calls : new.countP (later.isCallOn key) + later.callsLeft key ≤ f.callsLeft key
  callers : ∀ e ∈ new, later.isCallOn key e = true → f.Runs key e.place
  runs : ∀ place, later.Runs key place → f.Runs key place
  hosts : ∀ place host, f.host? place = some host → later.host? place = some host
  placed : ∀ e ∈ new, ∃ host, later.host? e.place = some host

theorem Spent.refl (key : String) (f : Floor) : Spent key f f [] :=
  ⟨rfl, by simp, by simp, fun _ runs => runs, fun _ _ there => there, by simp⟩

theorem Spent.trans {new more : List Entry} (first : Spent key f g new)
    (second : Spent key g later more) : Spent key f later (more ++ new) := by
  -- the host of an entry is known when it is made and stays the same
  have same : ∀ e ∈ new, later.isCallOn key e = g.isCallOn key e := by
    intro e mem
    obtain ⟨host, there⟩ := first.placed e mem
    rw [isCallOn, isCallOn, there, second.hosts _ _ there]
  refine ⟨by rw [second.log, first.log, List.append_assoc], ?_, ?_,
    fun place runs => first.runs place (second.runs place runs),
    fun place host there => second.hosts place host (first.hosts place host there), ?_⟩
  · have before := first.calls
    have after := second.calls
    have older : new.countP (later.isCallOn key) = new.countP (g.isCallOn key) :=
      List.countP_congr fun e mem => by rw [same e mem]
    rw [List.countP_append, older]
    omega
  · intro e mem call
    rcases List.mem_append.1 mem with mem | mem
    · exact first.runs e.place (second.callers e mem call)
    · exact first.callers e mem (same e mem ▸ call)
  · intro e mem
    rcases List.mem_append.1 mem with mem | mem
    · exact second.placed e mem
    · obtain ⟨host, there⟩ := first.placed e mem
      exact ⟨host, second.hosts _ _ there⟩

theorem Touched.countP_isCallOn {time : Nat} {p : Delivery.Progress}
    (touched : Touched f time place d p later) (key : String) :
    (p.seen.map (Entry.mk (max f.now time) place)).reverse.countP (later.isCallOn key) =
      if d.job.host = key then p.seen.countP Happening.isCall else 0 := by
  have here := touched.host
  rw [List.countP_reverse, List.countP_map]
  split
  · next own =>
    exact List.countP_congr fun what _ => by simp [isCallOn, here, own]
  · next foreign =>
    refine List.countP_eq_zero.2 fun what _ => ?_
    simp [isCallOn, here, foreign]

theorem Touched.spent {time : Nat} {p : Delivery.Progress}
    (touched : Touched f time place d p later)
    (isOpen : (f.registry.host key).breaker.isOpen (max f.now time) = true) :
    Spent key f later (p.seen.map (Entry.mk (max f.now time) place)).reverse := by
  have job := touched.accessed.job
  refine ⟨touched.log, ?_, ?_, ?_, fun other host there => (touched.host? other).trans there, ?_⟩
  · have sums : later.callsLeft key + d.callsLeftOn key =
        f.callsLeft key + p.delivery.callsLeftOn key := by
      rw [callsLeft, touched.deliveries]
      exact Delivery.total_set touched.there p.delivery
    rw [touched.countP_isCallOn]
    simp only [Delivery.callsLeftOn, job] at sums
    by_cases own : d.job.host = key
    · subst own
      have few := Delivery.calls_of_accessed touched.accessed isOpen
      simp only [if_true] at sums ⊢
      omega
    · simp only [own, if_false] at sums ⊢
      omega
  · intro e mem call
    obtain ⟨what, seen, rfl⟩ := List.mem_map.1 (List.mem_reverse.1 mem)
    obtain ⟨isCall, host⟩ := Bool.and_eq_true_iff.1 call
    rw [touched.host] at host
    refine ⟨d, touched.there, by simpa using host, ?_⟩
    by_contra idle
    have none_ := Delivery.deeds_of_not_running touched.accessed (by simpa using idle)
    have silent := List.filterMap_eq_nil_iff.1 none_ what seen
    simp [Happening.isCall, silent] at isCall
  · rintro other ⟨o, at_, rfl, running⟩
    by_cases same : place = other
    · subst same
      rw [touched.here] at at_
      obtain rfl := Option.some.inj at_
      rw [job] at isOpen
      exact ⟨d, touched.there, by rw [job],
        Delivery.isRunning_of_accessed touched.accessed isOpen running⟩
    · exact ⟨o, (touched.elsewhere same).symm.trans at_, rfl, running⟩
  · intro e mem
    obtain ⟨what, -, rfl⟩ := List.mem_map.1 (List.mem_reverse.1 mem)
    exact ⟨d.job.host, touched.host⟩

theorem spent_move (m : Move)
    (isOpen : (f.registry.host key).breaker.isOpen (f.move m).now = true) :
    ∃ new, Spent key f (f.move m) new := by
  cases m with
  | add job =>
    have added : (f.move (.add job)).deliveries =
        f.deliveries ++ [{ job := job, ticket := f.tickets }] := rfl
    refine ⟨[], rfl, ?_, by simp, ?_, ?_, by simp⟩
    · simp [callsLeft, added, Delivery.total_append, Delivery.callsLeftOn, Delivery.callsLeft]
    · rintro place ⟨d, there, host, running⟩
      cases before : f.deliveries[place]? with
      | none =>
        have new := (at_move_of_none (.add job) before).2 d there
        simp [new.2, Stage.isRunning] at running
      | some old =>
        have inside := (List.getElem?_eq_some_iff.1 before).1
        rw [added, List.getElem?_append_left inside] at there
        exact ⟨d, before ▸ there, host, running⟩
    · intro place host there
      obtain ⟨d, before, is⟩ := Option.map_eq_some_iff.1 there
      have inside := (List.getElem?_eq_some_iff.1 before).1
      rw [host?, added, List.getElem?_append_left inside, before, Option.map_some, is]
  | pass time => exact ⟨[], rfl, by simp [callsLeft, move], by simp, fun _ runs => runs,
      fun _ _ there => there, by simp⟩
  | touch time place =>
    cases there : f.deliveries[place]? with
    | none =>
      refine ⟨[], ?_⟩
      rw [move, touch_of_none there]
      exact ⟨rfl, by simp [callsLeft], by simp, fun _ runs => runs, fun _ _ there => there, by simp⟩
    | some d =>
      obtain ⟨p, touched⟩ := touched time there
      rw [move, touched.now] at isOpen
      exact ⟨_, touched.spent isOpen⟩

/-- Any accesses while the breaker is open. -/
theorem spent_moves {ms : List Move} (isOpen : f.StaysOpen key ms) :
    ∃ new, Spent key f (f.moves ms) new := by
  induction ms generalizing f with
  | nil => exact ⟨[], .refl key f⟩
  | cons m ms ih =>
    obtain ⟨new, first⟩ := spent_move m isOpen.1
    obtain ⟨more, second⟩ := ih isOpen.2
    exact ⟨more ++ new, first.trans second⟩

structure Idle (f : Floor) (place : Nat) : Prop where
  trace : f.trace place = []
  rests : ∀ d, f.deliveries[place]? = some d → d.stage.isRunning = false

theorem Idle.move (idle : f.Idle place) (m : Move)
    (isOpen : (f.registry.host key).breaker.isOpen (f.move m).now = true)
    (own : ∀ host, f.host? place = some host → host = key) : (f.move m).Idle place := by
  cases before : f.deliveries[place]? with
  | none =>
    obtain ⟨same, new⟩ := at_move_of_none m before
    exact ⟨same.trans idle.trace, fun d there => by rw [(new d there).2]; rfl⟩
  | some d =>
    have rests := idle.rests d before
    obtain rfl := own d.job.host (by rw [host?, before, Option.map_some])
    rcases at_move m before with ⟨still, same⟩ | ⟨time, p, -, touched⟩
    · exact ⟨same.trans idle.trace, fun other there => by
        rw [still] at there
        exact Option.some.inj there ▸ rests⟩
    · rw [touched.now] at isOpen
      refine ⟨?_, fun other there => ?_⟩
      · rw [touched.trace, idle.trace, Delivery.deeds_of_not_running touched.accessed rests]
        rfl
      · rw [touched.here] at there
        obtain rfl := Option.some.inj there
        by_contra running
        have before := Delivery.isRunning_of_accessed touched.accessed isOpen (by simpa using running)
        simp [rests] at before

theorem Idle.touch_other {time other : Nat} (idle : f.Idle other) (ne : place ≠ other) :
    (f.touch time place).Idle other := by
  cases there : f.deliveries[place]? with
  | none =>
    rw [touch_of_none there]
    exact ⟨idle.trace, idle.rests⟩
  | some d =>
    obtain ⟨p, touched⟩ := touched time there
    exact ⟨(trace_other ne touched.log).trans idle.trace,
      fun o at_ => idle.rests o ((touched.elsewhere ne).symm.trans at_)⟩

theorem Traced.idle (traced : f.Traced)
    (early : ∀ d, f.deliveries[place]? = some d → d.stage = .arriving ∨ d.stage = .queued) :
    f.Idle place := by
  refine ⟨?_, fun d there => ?_⟩
  · cases there : f.deliveries[place]? with
    | none => exact traced.nowhere there
    | some d => simpa using (traced.here there).eq_nil (early d there)
  · rcases early d there with arriving | queued
    · rw [arriving]; rfl
    · rw [queued]; rfl

theorem Idle.moves {ms : List Move} (idle : f.Idle place) (isOpen : f.StaysOpen key ms)
    (own : (f.moves ms).host? place = some key) : (f.moves ms).Idle place := by
  induction ms generalizing f with
  | nil => exact idle
  | cons m ms ih =>
    obtain ⟨new, spent⟩ := spent_moves isOpen
    refine ih (idle.move m isOpen.1 fun host there => ?_) isOpen.2 own
    have last := spent.hosts place host there
    rw [own] at last
    exact (Option.some.inj last).symm

theorem trace_of_over {ending : Ending} (there : f.deliveries[place]? = some d)
    (finished : d.stage = .over ending) (ms : List Move) :
    (f.moves ms).trace place = f.trace place := by
  induction ms generalizing f d with
  | nil => rfl
  | cons m ms ih =>
    rcases at_move m there with ⟨still, same⟩ | ⟨time, p, -, touched⟩
    · exact (ih still finished).trans same
    · have idle : d.stage.isRunning = false := by rw [finished]; rfl
      have none_ := Delivery.deeds_of_not_running touched.accessed idle
      refine (ih touched.here (Delivery.over_of_accessed touched.accessed finished)).trans ?_
      rw [touched.trace, none_, List.map_nil, List.append_nil]

theorem callsLeft_lt {slots most : Nat} {guests : List (String × Nat)} (kept : Kept slots guests f)
    (traced : f.Traced) (bounded : ∀ d ∈ f.deliveries, d.job.host = key → d.job.Bounded most)
    (runs : f.Runs key place) (begun : f.trace place ≠ []) :
    f.callsLeft key < max 1 slots * most := by
  obtain ⟨d, there, host, running⟩ := runs
  have occupies : ∀ d ∈ f.deliveries, d.job.host = key → d.stage.isRunning = true →
      (d.job.host == key && d.occupies (f.pool key)) = true := by
    intro d mem host running
    simp [Delivery.occupies, host, running, (bounded d mem host).needsSlot]
  have mem := List.mem_of_getElem? there
  have less : f.callsLeft key <
      (f.deliveries.countP fun d => d.job.host == key && d.occupies (f.pool key)) * most := by
    refine Delivery.total_lt (fun d mem => ?_) there (occupies d mem host running) ?_
    · obtain ⟨place, there⟩ := List.mem_iff_getElem?.1 mem
      unfold Delivery.callsLeftOn
      by_cases own : d.job.host = key
      · have le := (Delivery.callsLeft_le (traced.here there) (bounded d mem own)).1
        cases idle : d.stage.isRunning with
        | false => simp [Delivery.callsLeft_of_not_running idle]
        | true =>
          rw [if_pos own, if_pos (occupies d mem own idle)]
          exact le
      · simp [own]
    · rw [Delivery.callsLeftOn, if_pos host]
      exact (Delivery.callsLeft_le (traced.here there) (bounded d mem host)).2 (by simpa using begun)
  exact Nat.lt_of_lt_of_le less (Nat.mul_le_mul_right most (kept.countP_occupies_le key))

theorem since_of_append {new : List Entry} (log : later.log = new ++ f.log) :
    later.since f.log.length = new.reverse := by
  simp [since, log]

theorem runs_of_opened {time : Nat} (there : f.host? place = some key)
    (opens : ∃ e ∈ (f.touch time place).since f.log.length, e.what.opens = true) :
    f.Runs key place ∧ (f.touch time place).Runs key place ∧
      (f.touch time place).trace place ≠ [] ∧
      ∀ other, (f.touch time place).Runs key other → f.Runs key other := by
  obtain ⟨d, at_, host⟩ := Option.map_eq_some_iff.1 there
  obtain ⟨p, touched⟩ := touched time at_
  obtain ⟨e, mem, opened⟩ := opens
  rw [since_of_append touched.log, List.reverse_reverse] at mem
  obtain ⟨what, seen, rfl⟩ := List.mem_map.1 mem
  obtain rfl : what = .opened := by
    cases what <;> first | rfl | cases opened
  obtain ⟨due, attempt, result, rest, before, after, deeds⟩ :=
    Delivery.acts_of_opened touched.accessed seen
  have own : f.Runs key place := ⟨d, at_, host, by rw [before]; rfl⟩
  refine ⟨own, ⟨p.delivery, touched.here, by rw [touched.accessed.job, host], by rw [after]; rfl⟩,
    by simp [touched.trace, deeds], fun other ⟨o, there, same, running⟩ => ?_⟩
  by_cases ours : place = other
  · exact ours ▸ own
  · exact ⟨o, (touched.elsewhere ours).symm.trans there, same, running⟩

/-- A delivery that was not past the breaker when it opened comes to nothing as long as it is open. -/
theorem rests_while_open {later : List Move} {time other most : Nat} (traced : f.Traced)
    (runs : f.Runs key place) (stays : (f.touch time place).StaysOpen key later)
    (at_ : ((f.touch time place).moves later).deliveries[other]? = some d) (host : d.job.host = key)
    (bounded : d.job.Bounded most)
    (early : ∀ old, f.deliveries[other]? = some old →
      old.stage = .arriving ∨ old.stage = .queued) :
    let h := (f.touch time place).moves later
    h.trace other = [] ∧ (d.stage = .arriving ∨ d.stage = .queued ∨
      ∃ ending, d.stage = .over ending ∧
        (ending = .reported (.rejected key) ∨ d.Barred f.registry.hasPools ending) ∧
        ∀ more, (h.moves more).trace other = []) := by
  intro h
  have ne : place ≠ other := by
    rintro rfl
    obtain ⟨o, there, -, running⟩ := runs
    rcases early o there with arriving | queued
    · simp [arriving, Stage.isRunning] at running
    · simp [queued, Stage.isRunning] at running
  have last : h.host? other = some key := by rw [host?, at_, Option.map_some, host]
  have quiet : h.Idle other := ((traced.idle early).touch_other ne).moves stays last
  have pools : h.registry.hasPools = f.registry.hasPools :=
    (hasPools_moves _ later).trans (f.hasPools_move (.touch time place))
  have told : d.Traced h.registry.hasPools ((h.trace other).map Prod.snd) :=
    ((traced.move (.touch time place)).moves later).here at_
  rw [quiet.trace, List.map_nil] at told
  refine ⟨quiet.trace, (told.of_nil bounded (quiet.rests d at_)).imp_right (Or.imp_right ?_)⟩
  rintro ⟨ending, finished, why⟩
  refine ⟨ending, finished, ?_, fun more => (trace_of_over at_ finished more).trans quiet.trace⟩
  rw [host] at why
  exact pools ▸ why

/-- While a breaker is open, from the failure that opens it on, deliveries to its host start fewer attempts
than all slots together allow, and only those do that were past the breaker before. All others come to
nothing: they wait, or they are rejected, unless they end before they look at the breaker at all. The
deliveries of a service are of this kind, and what they do in a turn is some accesses in a row. -/
theorem stopped_while_open (r : Registry) (idle : ∀ key, (r.host key).pool = .ofSize r.slots)
    (fairness : Fairness) (now : Nat) (key : String) (most : Nat) (earlier later : List Move)
    (time place : Nat)
    (bounded : ∀ job, .add job ∈ earlier ++ later → job.host = key → job.Bounded most) :
    let f := moves { registry := r, fairness := fairness, now := now } earlier
    let g := f.touch time place
    let h := g.moves later
    (f.host? place = some key → (∃ e ∈ g.since f.log.length, e.what.opens = true) →
      g.StaysOpen key later →
      (h.since g.log.length).countP (h.isCallOn key) ≤ max 1 r.slots * most - 1 ∧
      (∀ e ∈ h.since g.log.length, h.isCallOn key e = true → f.Runs key e.place) ∧
      ∀ other d, h.deliveries[other]? = some d → d.job.host = key →
        (∀ old, f.deliveries[other]? = some old → old.stage = .arriving ∨ old.stage = .queued) →
        h.trace other = [] ∧ (d.stage = .arriving ∨ d.stage = .queued ∨
          ∃ ending, d.stage = .over ending ∧
            (ending = .reported (.rejected key) ∨ d.Barred r.hasPools ending) ∧
            ∀ more, (h.moves more).trace other = [])) ∧
    (∀ (s : Service) (destination : Destination) (event : Event) (hook : Hook),
      (s.job destination event).Bounded s.config.policy.maxAttempts ∧
      (s.hookJob event hook).Bounded s.config.policy.maxAttempts) ∧
    ∀ (f : Floor) (turn : Turn) (place : Nat),
      ∃ n, (f.take turn place).Matches (f.moves (List.replicate (n + 1) (.touch turn.due place))) := by
  intro f g h
  refine ⟨fun there opens stays => ?_, fun s destination event hook =>
    ⟨s.bounded_job destination event, s.bounded_hookJob event hook⟩, matches_take⟩
  have kept : Kept r.slots [] f := (kept_idle idle fairness now).moves earlier
  have traced : f.Traced := (traced_start r fairness now).moves earlier
  obtain ⟨own, runs, begun, before⟩ := runs_of_opened there opens
  obtain ⟨new, spent⟩ := spent_moves stays
  have since : h.since g.log.length = new.reverse := since_of_append spent.log
  have after (ms : List Move) : g.moves ms =
      moves { registry := r, fairness := fairness, now := now }
        (earlier ++ .touch time place :: ms) := by
    simp [g, f, moves, move]
  have jobs (ms : List Move) (part : ms <+: later) :
      ∀ d ∈ (g.moves ms).deliveries, d.job.host = key → d.job.Bounded most := by
    intro d mem host
    rw [after] at mem
    have added := add_mem_of_moves rfl mem
    simp only [List.mem_append, List.mem_cons, reduceCtorEq, false_or] at added
    exact bounded d.job (List.mem_append.2 (added.imp_right fun mem => part.subset mem)) host
  have less : g.callsLeft key < max 1 r.slots * most :=
    callsLeft_lt (kept.touch time place) (traced.move (.touch time place))
      (jobs [] List.nil_prefix) runs begun
  have few : new.countP (h.isCallOn key) + h.callsLeft key ≤ g.callsLeft key := spent.calls
  rw [since]
  have pools : f.registry.hasPools = r.hasPools := hasPools_moves _ earlier
  refine ⟨by rw [List.countP_reverse]; omega,
    fun e mem call => before _ (spent.callers e (List.mem_reverse.1 mem) call),
    fun other d at_ host early => pools ▸ rests_while_open traced own stays at_ host
      (jobs later List.prefix_rfl d (List.mem_of_getElem? at_) host) early⟩

/-- One slot and two attempts each. The first delivery fails twice and opens the breaker both times; the
second one waits for the slot meanwhile and is rejected. -/
theorem stopped_while_open_of_two :
    let r : Registry := ⟨1, ⟨1, 60000⟩, {}⟩
    let reset : Failure := .http (.stated "reset")
    let job : Job := { host := "a", timeout := 1000, delays := [5],
                       operation := fun _ => .done (.error reset) }
    let earlier : List Move := [.add job, .add job] ++ List.replicate 4 (.touch 0 0)
    let later : List Move := .touch 0 1 :: List.replicate 5 (.touch 5 0) ++ [.touch 5 1]
    let f := moves { registry := r, fairness := .byArrival, now := 0 } earlier
    let g := f.touch 0 0
    let h := g.moves later
    (h.since g.log.length).countP (h.isCallOn "a") = 1 ∧
      (h.deliveries[1]?).any Delivery.isOver = true ∧ h.trace 1 = [] := by
  intro r reset job earlier later f g h
  have bounded : ∀ other, .add other ∈ earlier ++ later → other.host = "a" → other.Bounded 2 := by
    intro other mem _
    obtain rfl : other = job := by simpa [earlier, later] using mem
    exact ⟨rfl, by decide, fun _ => by simp [job, Course.deeds]⟩
  have finished : (h.deliveries[1]?).any Delivery.isOver = true := by decide
  have called : 0 < (h.since g.log.length).countP (h.isCallOn "a") := by decide
  have waits : ∀ old, f.deliveries[1]? = some old → old.stage = .arriving ∨ old.stage = .queued := by
    intro old there
    have early : (f.deliveries[1]?).all Delivery.waits = true := by decide
    rw [there] at early
    exact Delivery.waits_iff.1 early
  have own : h.host? 1 = some "a" := by decide
  rw [host?, Option.map_eq_some_iff] at own
  obtain ⟨d, there, host⟩ := own
  have first : f.host? 0 = some "a" := by decide
  have opens : ∃ e ∈ g.since f.log.length, e.what.opens = true := by decide
  have stays : StaysOpen "a" g later := by decide
  obtain ⟨few, -, others⟩ :=
    (stopped_while_open r (fun _ => rfl) .byArrival 0 "a" 2 earlier later 0 0 bounded).1
      first opens stays
  exact ⟨Nat.le_antisymm few called, finished, (others 1 d there host waits).1⟩

end Floor

end Herald
