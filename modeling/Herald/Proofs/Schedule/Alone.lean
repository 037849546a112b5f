import Herald.Proofs.Schedule.Floor

/-! A delivery that has its host to itself. It begins when it arrives, and the breaker of the host is told of
its deeds and of nothing else. -/
namespace Herald

theorem SlotPool.isHeld_request {p : SlotPool} (free : 0 < p.available) (ticket : Nat) :
    (p.request ticket).isHeld ticket = true := by
  simp [request, isHeld, free]

namespace Delivery

/-- What becomes of a delivery that arrives at a time and has its host to itself, with the breaker of the
host before and now. -/
inductive Solo (d : Delivery) (rule : Breaker.Rule) (hasPools : Bool) (start : Breaker) (time : Nat)
    (trace : List (Nat × Deed)) (now : Breaker) : Prop
  | arriving : d.stage = .arriving → now = start → Solo d rule hasPools start time trace now
  | noSlots : d.stage = .over (.crashed .slots) → d.job.needsSlot = true → hasPools = false →
    Solo d rule hasPools start time trace now
  | late : d.stage = .over (.crashed .time) → Breaker.endOfTime ≤ time + d.job.timeout →
    Solo d rule hasPools start time trace now
  | refused {failure : Failure} : d.stage = .over (.refused failure) →
    d.job.refusal = some failure → Solo d rule hasPools start time trace now
  | rejected : d.stage = .over (.reported (.rejected d.job.host)) → start.isOpen time = true →
    d.begun = time → now = start → Solo d rule hasPools start time trace now
  | runs {due : Nat} {steps : List Step} : d.stage = .running due steps →
    start.isOpen time = false → d.begun = time → start.heard rule trace = some now →
    Solo d rule hasPools start time trace now
  | ended : d.stage = .over d.job.ending → start.isOpen time = false → d.begun = time →
    start.heard rule trace = some now → Solo d rule hasPools start time trace now
  | crashed : d.stage = .over (.crashed .time) → start.isOpen time = false → d.begun = time →
    start.heard rule (Step.timed time d.job.run.steps) = none →
    Solo d rule hasPools start time trace now

variable {d : Delivery} {rule : Breaker.Rule} {hasPools : Bool} {start : Breaker} {time now : Nat}
  {trace : List (Nat × Deed)} {host : HostState} {steps : List Step} {p : Progress}

theorem solo_of_went (closed : start.isOpen time = false) (begun : d.begun = time)
    (told : start.heard rule trace = some host.breaker)
    (parts : trace ++ Step.timed now steps = Step.timed d.begun d.job.run.steps)
    (went : Went d rule now host steps p) :
    p.delivery.Solo rule hasPools start time (trace ++ p.timed now) p.host.breaker := by
  have onward (deeds : List (Nat × Deed)) :
      start.heard rule (trace ++ deeds) = host.breaker.heard rule deeds := by
    rw [Breaker.heard_append, told, Option.bind_some]
  cases went with
  | rests becomes _ _ heard =>
    refine .runs (by rw [becomes]) closed (by rw [becomes]; exact begun) ?_
    rw [onward, heard]
  | ends becomes _ _ heard =>
    refine .ended (by rw [becomes]) closed (by rw [becomes]; exact begun) ?_
    rw [onward, heard]
  | crashes becomes _ heard =>
    refine .crashed (by rw [becomes]) closed (by rw [becomes]; exact begun) ?_
    rw [becomes]
    rw [← begun, ← parts, onward, heard]

theorem solo_of_commenced (commenced : Commenced d rule time host p)
    (told : host.breaker = start) :
    p.delivery.Solo rule hasPools start time (p.timed time) p.host.breaker := by
  subst told
  cases commenced with
  | late late => exact .late rfl late
  | refused refused => exact .refused rfl refused
  | rejected isOpen => exact .rejected rfl isOpen rfl rfl
  | begins closed went => exact solo_of_went closed rfl rfl (List.nil_append _) went

theorem Solo.eq_of_early {b : Breaker} (solo : d.Solo rule hasPools start time trace b)
    (early : d.stage = .arriving ∨ d.stage = .queued) : d.stage = .arriving ∧ b = start := by
  cases solo with
  | arriving arriving same => exact ⟨arriving, same⟩
  | _ => simp_all

theorem Solo.told_of_running {b : Breaker} (solo : d.Solo rule hasPools start time trace b)
    {due : Nat} (running : d.stage = .running due steps) :
    start.isOpen time = false ∧ d.begun = time ∧ start.heard rule trace = some b := by
  cases solo with
  | runs _ closed begun told => exact ⟨closed, begun, told⟩
  | _ => simp_all

/-- Each turn of a delivery keeps this, if it arrives on time and there is a slot for it. -/
theorem Solo.turn (solo : d.Solo rule hasPools start time trace host.breaker)
    (scheduled : d.Scheduled hasPools trace)
    (onTime : ∀ {due steps}, d.stage = .running due steps → now = due)
    (arrives : d.stage = .arriving → now = time ∧ 0 < host.pool.available)
    (acted : Acted d rule hasPools now host p) :
    p.delivery.Solo rule hasPools start time (trace ++ p.timed now) p.host.breaker := by
  cases acted with
  | idles => simpa [Progress.timed, Progress.deeds] using solo
  | asks arriving waits =>
    rw [SlotPool.isHeld_request (arrives arriving).2] at waits
    cases waits
  | noSlots _ needs none_ => exact .noSlots rfl needs none_
  | enters early commenced =>
    obtain ⟨arriving, same⟩ := solo.eq_of_early early
    obtain rfl := (arrives arriving).1
    rw [scheduled.eq_nil early]
    exact solo_of_commenced commenced same
  | goesOn running went =>
    obtain ⟨closed, begun, told⟩ := solo.told_of_running running
    obtain ⟨parts, -⟩ := scheduled.split running
    obtain rfl := onTime running
    exact solo_of_went closed begun told parts went

structure Admitted (job : Job) (hasPools : Bool) (start : Breaker) (time : Nat) : Prop where
  pools : job.needsSlot = true → hasPools = true
  inTime : time + job.timeout < Breaker.endOfTime
  unrefused : job.refusal = none
  closed : start.isOpen time = false

theorem Solo.of_admitted {b : Breaker} (solo : d.Solo rule hasPools start time trace b)
    (admitted : Admitted d.job hasPools start time)
    (recordable : start.heard rule (Step.timed time d.job.run.steps) ≠ none) :
    d.stage = .arriving ∨ (d.begun = time ∧ start.heard rule trace = some b ∧
      ((∃ due steps, d.stage = .running due steps) ∨ d.stage = .over d.job.ending)) := by
  obtain ⟨pools, inTime, unrefused, closed⟩ := admitted
  cases solo with
  | arriving arriving => exact .inl arriving
  | noSlots _ needs none_ => exact absurd (pools needs) (by simp [none_])
  | late _ late => omega
  | refused _ refused => simp [unrefused] at refused
  | rejected _ isOpen => simp [closed] at isOpen
  | runs running _ begun told => exact .inr ⟨begun, told, .inl ⟨_, _, running⟩⟩
  | ended finished _ begun told => exact .inr ⟨begun, told, .inr finished⟩
  | crashed _ _ _ lost => exact absurd lost recordable

theorem Solo.of_reported {b : Breaker} {report : DeliveryReport}
    (solo : d.Solo rule hasPools start time trace b) (onCourse : d.OnCourse rule hasPools)
    (finished : d.stage = .over (.reported report)) (ran : report ≠ .rejected d.job.host) :
    Admitted d.job hasPools start time ∧ d.begun = time ∧ start.heard rule trace = some b := by
  obtain ⟨pools, inTime, unrefused⟩ := (onCourse.ended finished).of_reported rfl
  cases solo with
  | ended _ closed begun told =>
    exact ⟨⟨pools, begun ▸ inTime, unrefused, closed⟩, begun, told⟩
  | _ => simp_all

end Delivery

namespace Floor

variable {f later : Floor} {turn : Turn} {place other : Nat} {d : Delivery} {p : Delivery.Progress}
  {start : Breaker} {time : Nat}

def breaker (f : Floor) (key : String) : Breaker := (f.registry.host key).breaker

theorem Took.breaker (took : Took f turn place d p later) :
    later.breaker d.job.host = p.host.breaker ∧
      ∀ {key : String}, key ≠ d.job.host → later.breaker key = f.breaker key := by
  simp only [Floor.breaker, took.registry]
  exact ⟨by rw [Registry.host_setHost_self], fun ne => by rw [Registry.host_setHost_other _ ne]⟩

/-- The delivery at a place has its host to itself since it arrived at a time. -/
structure Alone (place : Nat) (job : Job) (start : Breaker) (time : Nat) (f : Floor) : Prop where
  others : ∀ other o, other ≠ place → f.deliveries[other]? = some o → o.job.host = job.host →
    o.isOver = true
  solo : ∃ d, f.deliveries[place]? = some d ∧ d.job = job ∧
    d.Solo f.registry.rule f.registry.hasPools start time (f.trace place) (f.breaker job.host)
  arrives : ∀ d, f.deliveries[place]? = some d → d.stage = .arriving →
    ∀ e ∈ f.agenda, e.2 = place → e.1.due = time

theorem not_ready_of_over {pool : SlotPool} (finished : d.isOver = true) : ¬ d.Ready pool := by
  obtain ⟨ending, stage⟩ := Delivery.exists_of_isOver finished
  simp [Delivery.Ready, stage, Delivery.isGranted, Stage.isRunning]

theorem alone_add (sound : Sound f) (onTime : f.OnTime) (job : Job)
    (done : ∀ d ∈ f.deliveries, d.job.host = job.host → d.isOver = true) :
    Alone f.deliveries.length job (f.breaker job.host) f.now (f.add job) := by
  refine ⟨fun other o ne there host => ?_, ⟨_, by rw [getElem?_add, if_pos rfl], rfl, .arriving rfl rfl⟩,
    fun d _ _ e mem own => ?_⟩
  · rw [getElem?_add, if_neg ne] at there
    exact done o (List.mem_of_getElem? there) host
  · rcases List.mem_cons.1 mem with rfl | mem
    · exact due_turn onTime.current _ _
    · obtain ⟨o, there, -⟩ := sound.planned.ready e mem
      have inside := (List.getElem?_eq_some_iff.1 there).1
      omega

theorem Alone.take {job : Job} (alone : Alone place job start time f) (sound : Sound f)
    (onTime : f.OnTime) (first : first? f.agenda = some (turn, other))
    (took : Took f turn other d p later) : Alone place job start time later := by
  obtain ⟨own, there, rfl, solo⟩ := alone.solo
  have rule : later.registry.rule = f.registry.rule := by rw [took.registry]; rfl
  have ready : d.Ready (f.pool d.job.host) := by
    obtain ⟨o, at_, ready⟩ := sound.planned.ready _ (mem_of_first? first)
    rw [took.there] at at_
    obtain rfl := Option.some.inj at_
    exact ready
  have foreign (ne : other ≠ place) : d.job.host ≠ own.job.host := fun same =>
    not_ready_of_over (alone.others other d ne took.there same) ready
  refine ⟨fun o' o ne at_ host => ?_, ?_, fun o at_ arriving e mem mine => ?_⟩
  · by_cases taken : other = o'
    · subst taken
      rw [took.here] at at_
      obtain rfl := Option.some.inj at_
      exact absurd (took.job ▸ host) (foreign ne)
    · rw [took.elsewhere taken] at at_
      exact alone.others o' o ne at_ host
  · rw [rule, took.hasPools]
    by_cases taken : other = place
    · subst taken
      obtain rfl : d = own := Option.some.inj (took.there.symm.trans there)
      refine ⟨p.delivery, took.here, took.job, ?_⟩
      rw [took.trace, took.breaker.1]
      refine solo.turn (onTime.scheduled there) (onTime.due _ (mem_of_first? first) there)
        (fun arriving => ⟨alone.arrives d there arriving _ (mem_of_first? first) rfl, ?_⟩) took.acted
      have idle : (f.pool d.job.host).available = max 1 f.registry.slots := by
        refine sound.kept.available_of_idle (fun o mem host => ?_) (by simp)
        obtain ⟨place, at_⟩ := List.mem_iff_getElem?.1 mem
        by_cases mine : place = other
        · rw [mine, there] at at_
          obtain rfl := Option.some.inj at_
          rw [arriving]
          rfl
        · obtain ⟨ending, finished⟩ := Delivery.exists_of_isOver (alone.others place o mine at_ host)
          rw [finished]
          rfl
      have free : 0 < (f.pool d.job.host).available := by omega
      exact free
    · refine ⟨own, (took.elsewhere taken).trans there, rfl, ?_⟩
      rw [trace_other taken took.log, took.breaker.2 (foreign taken).symm]
      exact solo
  · rcases took.agenda e mem with ⟨before, ne⟩ | ⟨same, steps, running⟩ | ⟨w, waits, queued⟩
    · rw [took.elsewhere (mine ▸ Ne.symm ne)] at at_
      exact alone.arrives o at_ arriving e before mine
    · rw [← mine, same, took.here] at at_
      obtain rfl := Option.some.inj at_
      simp [arriving] at running
    · rw [← mine, waits] at at_
      obtain rfl := Option.some.inj at_
      simp [arriving] at queued

theorem Alone.playFor {job : Job} (alone : Alone place job start time f) (regular : Regular f)
    (goOn : Floor → Turn → Bool) (turns : Nat) :
    Alone place job start time (playFor goOn turns f) := by
  refine (playFor_induction (P := fun g => Regular g ∧ Alone place job start time g) goOn turns
    (fun first before => ?_) ⟨regular, alone⟩).2
  obtain ⟨regular, alone⟩ := before
  obtain ⟨d, p, took⟩ := took_take regular.sound.planned first
  exact ⟨.take first regular, alone.take regular.sound regular.onTime first took⟩

theorem now_playFor_le (regular : Regular f) {until_ : Nat} (early : f.now ≤ until_) (turns : Nat) :
    (Floor.playFor (fun _ turn => turn.due ≤ until_) turns f).now ≤ until_ := by
  induction turns generalizing f with
  | zero => exact early
  | succ turns ih =>
    unfold Floor.playFor
    split
    · exact early
    · next turn place first =>
      split
      · next may =>
        obtain ⟨d, p, took⟩ := took_take regular.sound.planned first
        exact ih (.take first regular) (took.now ▸ by simpa using may)
      · exact early

end Floor

end Herald
