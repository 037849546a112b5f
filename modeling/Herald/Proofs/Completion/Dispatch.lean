import Herald.Proofs.Completion.Regular

/-! What a dispatch comes to. Either one delivery begins for each hook that was found, in the order of the
hooks, and each of these is run to its end once, or none begins at all. -/
namespace Herald

namespace Service

variable {s : Service} {lookup : Int → Lookup} {event : Event} {f : Floor} {owner : Int}

theorem dispatch_of_malformed {fault : OwnerFault}
    (malformed : Owner.parse event.memo.creator = .error fault) :
    s.dispatch lookup event f = ⟨f, .error (.invalidOwner fault), []⟩ := by
  simp only [dispatch, malformed]

def patience (s : Service) (answer : Lookup) : Nat := min answer.wait s.config.fetchTimeoutMs

theorem dispatch_of_late (named : Owner.parse event.memo.creator = .ok owner)
    (late : s.config.fetchTimeoutMs < (lookup owner).wait) :
    s.dispatch lookup event f = ⟨f.passUntil (f.now + s.patience (lookup owner)),
      .error (.configuration (.timedOut s.config.fetchTimeoutMs)), []⟩ := by
  simp only [dispatch, named, Lookup.within, late, if_true, patience,
    Nat.min_eq_right (Nat.le_of_lt late)]

theorem dispatch_of_fault (named : Owner.parse event.memo.creator = .ok owner)
    (inTime : (lookup owner).wait ≤ s.config.fetchTimeoutMs) {fault : LookupFault}
    (failed : (lookup owner).hooks = .error fault) :
    s.dispatch lookup event f = ⟨f.passUntil (f.now + s.patience (lookup owner)),
      .error (.configuration fault), []⟩ := by
  simp only [dispatch, named, Lookup.within, Nat.not_lt.2 inTime, if_false, failed, patience,
    Nat.min_eq_left inTime]

theorem dispatch_of_found (named : Owner.parse event.memo.creator = .ok owner)
    (inTime : (lookup owner).wait ≤ s.config.fetchTimeoutMs) {hooks : List Hook}
    (found : (lookup owner).hooks = .ok hooks) :
    (s.dispatch lookup event f).result = .ok hooks.length ∧
      (s.dispatch lookup event f).floor = (f.passUntil (f.now + s.patience (lookup owner))).addAll
        (hooks.map (s.hookJob event)) := by
  simp only [dispatch, named, Lookup.within, Nat.not_lt.2 inTime, if_false, found, patience,
    Nat.min_eq_left inTime]
  cases hooks with
  | nil => exact ⟨rfl, rfl⟩
  | cons hook hooks => exact ⟨rfl, rfl⟩

end Service

def Lookup.only (l : Lookup) (key : String) : Lookup :=
  { l with hooks := l.hooks.map (·.filter fun hook => (Locator.classify hook.url).hostKey == key) }

namespace Floor

variable {f : Floor}

theorem Regular.dispatch (regular : Regular f) (s : Service) (lookup : Int → Lookup) (event : Event) :
    Regular (s.dispatch lookup event f).floor :=
  dispatch_induction s lookup event (fun time before => before.passUntil time)
    (fun _ before => before.add _) regular

theorem exists_jobs_of_dispatch (s : Service) (lookup : Int → Lookup) (event : Event) (key : String)
    (idle : f.agenda = []) : ∃ time jobs,
      (s.dispatch lookup event f).floor = ({ f with now := time }).addAll jobs ∧
      (s.dispatch (fun owner => (lookup owner).only key) event f).floor =
        ({ f with now := time }).addAll (jobs.filter (·.host == key)) := by
  let only := fun owner => (lookup owner).only key
  cases named : Owner.parse event.memo.creator with
  | error fault =>
    refine ⟨f.now, [], ?_, ?_⟩
    · rw [Service.dispatch_of_malformed named]
      rfl
    · rw [Service.dispatch_of_malformed named]
      rfl
  | ok owner =>
    let time := f.now + s.patience (lookup owner)
    have waited : f.passUntil time = { f with now := max f.now time } := passUntil_of_idle idle time
    rcases Nat.lt_or_ge s.config.fetchTimeoutMs (lookup owner).wait with late | inTime
    · have lateToo : s.config.fetchTimeoutMs < (only owner).wait := late
      refine ⟨max f.now time, [], ?_, ?_⟩
      · rw [Service.dispatch_of_late named late]
        exact waited
      · rw [Service.dispatch_of_late named lateToo]
        exact waited
    · have inTimeToo : (only owner).wait ≤ s.config.fetchTimeoutMs := inTime
      cases found : (lookup owner).hooks with
      | error fault =>
        have none_ : (only owner).hooks = .error fault := by
          simp only [only, Lookup.only, found]
          rfl
        refine ⟨max f.now time, [], ?_, ?_⟩
        · rw [Service.dispatch_of_fault named inTime found]
          exact waited
        · rw [Service.dispatch_of_fault named inTimeToo none_]
          exact waited
      | ok hooks =>
        have own : (only owner).hooks =
            .ok (hooks.filter fun hook => (Locator.classify hook.url).hostKey == key) := by
          simp only [only, Lookup.only, found]
          rfl
        refine ⟨max f.now time, hooks.map (s.hookJob event), ?_, ?_⟩
        · rw [(Service.dispatch_of_found named inTime found).2, waited]
        · rw [(Service.dispatch_of_found named inTimeToo own).2, List.filter_map]
          exact congrArg (Floor.addAll · _) waited

theorem histories_dispatch (s : Service) (lookup : Int → Lookup) (event : Event) (r : Registry)
    (fairness : Fairness) (now guests : Nat) (key : String)
    (numbered : ∀ ticket, (r.host key).pool.Has ticket → ticket < guests) :
    let start : Floor := { registry := r, fairness := fairness, now := now, tickets := guests }
    let all := (s.dispatch lookup event start).floor.playWhile fun _ _ => true
    let alone := (s.dispatch (fun owner => (lookup owner).only key) event start).floor.playWhile
      fun _ _ => true
    (all.places key).map all.history = (alone.places key).map alone.history := by
  intro start all alone
  obtain ⟨time, jobs, begins, beginsAlone⟩ :=
    exists_jobs_of_dispatch s lookup event key (f := start) rfl
  obtain ⟨-, ownJobs, -, -, lists, mirrors⟩ := mirrors_played r fairness time guests jobs key numbered
  have histories := mirrors.histories lists fun job mem => by
    rw [ownJobs] at mem
    exact beq_iff_eq.1 (List.mem_filter.1 mem).2
  simp only [all, alone, begins, beginsAlone]
  exact histories

/-- A dispatch is all or nothing, and exact. An event without a proper creator starts nothing, whatever
could be looked up. A look-up that fails or takes too long starts nothing either: nothing but time passes.
Otherwise one delivery begins for each hook that was found, with the locator of this hook and with this
event. However deliveries are interleaved, it stays; the log tells of its end when it is over and not again,
and what it did fits a single run. Played to the end it is over. However the deliveries to other hosts end,
those to one host do what they would do alone. -/
theorem all_or_nothing (s : Service) (lookup : Int → Lookup) (event : Event) (f : Floor)
    (regular : Regular f) :
    let dispatched := s.dispatch lookup event f
    Regular dispatched.floor ∧
    (∀ fault, Owner.parse event.memo.creator = .error fault → ∀ other : Int → Lookup,
      s.dispatch other event f = ⟨f, .error (.invalidOwner fault), []⟩) ∧
    (∀ owner, Owner.parse event.memo.creator = .ok owner →
      let answer := lookup owner
      let limit := s.config.fetchTimeoutMs
      let waited := f.passUntil (f.now + min answer.wait limit)
      waited.jobs = f.jobs ∧
      (f.agenda = [] → waited = { f with now := f.now + min answer.wait limit }) ∧
      (limit < answer.wait →
        dispatched = ⟨waited, .error (.configuration (.timedOut limit)), []⟩) ∧
      (answer.wait ≤ limit → ∀ fault, answer.hooks = .error fault →
        dispatched = ⟨waited, .error (.configuration fault), []⟩) ∧
      (answer.wait ≤ limit → ∀ hooks, answer.hooks = .ok hooks →
        let last := dispatched.floor.playWhile fun _ _ => true
        dispatched.result = .ok hooks.length ∧
        dispatched.floor = waited.addAll (hooks.map (s.hookJob event)) ∧
        last.jobs = f.jobs ++ hooks.map (s.hookJob event) ∧
        ∀ i hook, hooks[i]? = some hook →
          let place := f.deliveries.length + i
          let destination := Locator.classify hook.url
          let job : Job := { s.job destination event with receiver := some destination }
          (∀ ms : List Move, let g := dispatched.floor.moves ms
            ∃ d, g.deliveries[place]? = some d ∧ d.job = job ∧
              g.endings place = d.ending?.toList ∧
              d.Traced g.registry.hasPools ((g.trace place).map Prod.snd)) ∧
          ∃ d ending, last.deliveries[place]? = some d ∧ d.job = job ∧ d.stage = .over ending ∧
            last.endings place = [ending] ∧
            d.Traced last.registry.hasPools ((last.trace place).map Prod.snd))) ∧
    ∀ (r : Registry) (fairness : Fairness) (now guests : Nat) (key : String),
      (∀ ticket, (r.host key).pool.Has ticket → ticket < guests) →
      let start : Floor := { registry := r, fairness := fairness, now := now, tickets := guests }
      let all := (s.dispatch lookup event start).floor.playWhile fun _ _ => true
      let alone := (s.dispatch (fun owner => (lookup owner).only key) event start).floor.playWhile
        fun _ _ => true
      (all.places key).map all.history = (alone.places key).map alone.history := by
  intro dispatched
  refine ⟨regular.dispatch s lookup event, fun fault malformed other =>
    Service.dispatch_of_malformed malformed, fun owner named => ?_,
    histories_dispatch s lookup event⟩
  intro answer limit waited
  have kept : waited.jobs = f.jobs := jobs_passUntil f _
  refine ⟨kept, fun idle => ?_, fun late => Service.dispatch_of_late named late,
    fun inTime fault failed => Service.dispatch_of_fault named inTime failed,
    fun inTime hooks found => ?_⟩
  · have passes : max f.now (f.now + min answer.wait limit) = f.now + min answer.wait limit :=
      Nat.max_eq_right (Nat.le_add_right _ _)
    rw [← passes]
    exact passUntil_of_idle idle _
  · intro last
    obtain ⟨result, begins⟩ : dispatched.result = .ok hooks.length ∧
        dispatched.floor = waited.addAll (hooks.map (s.hookJob event)) :=
      Service.dispatch_of_found named inTime found
    obtain ⟨jobs, complete⟩ := (regular.dispatch s lookup event).complete
    have all : dispatched.floor.jobs = f.jobs ++ hooks.map (s.hookJob event) := by
      rw [begins, jobs_addAll]
      exact congrArg (· ++ _) kept
    refine ⟨result, begins, jobs.trans all, fun i hook at_ => ?_⟩
    have begun : dispatched.floor.jobs[f.deliveries.length + i]? = some (s.hookJob event hook) := by
      have before : f.deliveries.length = f.jobs.length := (List.length_map _).symm
      rw [all, before, List.getElem?_append_right (Nat.le_add_right _ _), Nat.add_sub_cancel_left,
        List.getElem?_map, at_]
      rfl
    exact ⟨fun ms => (regular.dispatch s lookup event).interleaved ms begun, complete begun⟩

/-- Two hooks with the same blank address: both of them get their delivery. -/
theorem all_or_nothing_of_blank_hooks :
    let s : Service := { world := { guard := fun _ => {}, peer := fun _ _ => none } }
    let hook : Hook := { id := "1", url := "  " }
    let f : Floor := { registry := s.config.registry }
    let dispatched := s.dispatch (fun _ => ⟨10, .ok [hook, hook]⟩) ⟨.created, { creator := "users/1" }⟩ f
    let last := dispatched.floor.playWhile fun _ _ => true
    dispatched.result = .ok 2 ∧ (∃ ending, last.endings 0 = [ending]) ∧
      ∃ ending, last.endings 1 = [ending] := by
  intro s hook f dispatched last
  have start : Regular f := .start (fun _ => rfl) .byArrival 0
  obtain ⟨-, -, named, -⟩ := all_or_nothing s (fun _ => ⟨10, .ok [hook, hook]⟩)
    ⟨.created, { creator := "users/1" }⟩ f start
  obtain ⟨-, -, -, -, found⟩ := named 1 (by decide)
  obtain ⟨result, -, -, complete⟩ := found (by decide) [hook, hook] rfl
  obtain ⟨-, _, first, -, -, -, endsFirst, -⟩ := complete 0 hook rfl
  obtain ⟨-, _, second, -, -, -, endsSecond, -⟩ := complete 1 hook rfl
  exact ⟨result, ⟨first, endsFirst⟩, second, endsSecond⟩

end Floor

end Herald
