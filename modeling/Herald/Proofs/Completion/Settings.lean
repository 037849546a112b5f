import Herald.Proofs.Breaker.History
import Herald.Proofs.Completion.Dispatch
import Herald.Proofs.Config.Words
import Herald.Proofs.Delivery.Attempts
import Herald.Proofs.Delivery.Scene
import Herald.Proofs.Order.Total

/-! Which settings make a delivery crash. A pool may have too many slots to be made, and the end of a
deadline or of a cooldown may lie beyond the end of time; all other settings are harmless, whatever their
values. -/
namespace Herald

theorem Job.exists_report {j : Job} (whole : ∀ i, ∃ result, (j.operation i).result = .ok result) :
    ∃ report, j.ending = .reported report := by
  have attempted {i : Nat} {deeds : List Deed} {result : Result}
      (attempts : (j.operation i).Attempts i deeds result) : ∃ r, result = .ok r := by
    cases attempts with
    | skipped _ ends => exact ⟨_, ends⟩
    | made _ _ ends => exact ⟨_, ends⟩
    | crashed goes =>
      obtain ⟨r, own⟩ := whole i
      cases goes with
      | whole _ same => simp [own] at same
      | cut _ _ failed => cases failed
  have runs : ∃ r, j.run.result = .ok r := by
    refine run_induction (P := fun _ _ _ result => ∃ r, result = .ok r) ?_ ?_ j.delays 1 0
    · rintro _ _ _ ended result attempts (rfl | ⟨_, other, -, -, cut⟩)
      · exact attempted attempts
      · exact ⟨_, cut⟩
    · exact fun _ _ _ _ _ _ _ _ rest => rest
  obtain ⟨r, ends⟩ := runs
  exact ⟨⟨j.host, Step.attempts j.run.steps, r⟩, by rw [Job.ending, ends]⟩

namespace Service

variable {s : Service}

def Delivers (s : Service) (job : Job) (event : Event) : Prop :=
  ∃ destination receiver, job = { s.job destination event with receiver := receiver }

theorem Delivers.exists_report {job : Job} {event : Event} (delivers : s.Delivers job event)
    (word : Order.sumIn event.memo.content < Order.quantityLimit) :
    ∃ report, job.ending = .reported report := by
  obtain ⟨destination, receiver, rfl⟩ := delivers
  have made : ∃ text, event.body = .ok text := by
    rcases event.body_cases with ⟨-, made⟩ | ⟨large, -⟩
    · exact made
    · exact absurd word (Nat.not_lt.2 large)
  obtain ⟨text, made⟩ := made
  refine Job.exists_report fun i => ?_
  obtain ⟨result, converses⟩ :=
    s.sender.result_of_body made s.world destination.channel destination.target
  refine ⟨result, ?_⟩
  have usual := s.jobIn_usual destination event
  have operation : (s.job destination event).operation i =
      (s.sender.send destination.channel destination.target event).paced (.usual s.world) [] := by
    rw [← usual]
    rfl
  rw [show ({ s.job destination event with receiver := receiver } : Job).operation i =
    (s.job destination event).operation i from rfl, operation, Http.Talk.paced_usual,
    Http.Talk.result_course, converses]

end Service

namespace Floor

structure Serves (s : Service) (f : Floor) : Prop where
  regular : Regular f
  slots : f.registry.slots = s.config.slotsPerHost
  rule : f.registry.rule = s.config.registry.rule
  jobs : ∀ job ∈ f.jobs, ∃ event, s.Delivers job event

variable {s : Service} {f : Floor}

theorem serves_start (s : Service) (fairness : Fairness) (now : Nat) :
    Serves s { registry := s.config.registry, fairness := fairness, now := now } :=
  ⟨.start (fun _ => rfl) fairness now, rfl, rfl, by simp [Floor.jobs]⟩

theorem rule_playFor (f : Floor) (goOn : Floor → Turn → Bool) (turns : Nat) :
    (playFor goOn turns f).registry.rule = f.registry.rule ∧
      (playFor goOn turns f).registry.slots = f.registry.slots :=
  playFor_induction (P := fun g => g.registry.rule = f.registry.rule ∧
    g.registry.slots = f.registry.slots) goOn turns
    (fun {g turn place} _ ⟨rule, slots⟩ =>
      ⟨(g.rule_take turn place).1.trans rule, (g.rule_take turn place).2.trans slots⟩) ⟨rfl, rfl⟩

theorem Serves.playFor (serves : Serves s f) (goOn : Floor → Turn → Bool) (turns : Nat) :
    Serves s (playFor goOn turns f) := by
  obtain ⟨rule, slots⟩ := rule_playFor f goOn turns
  exact ⟨serves.regular.playFor goOn turns, slots.trans serves.slots, rule.trans serves.rule,
    by rw [jobs_playFor]; exact serves.jobs⟩

theorem Serves.passUntil (serves : Serves s f) (time : Nat) : Serves s (f.passUntil time) := by
  obtain ⟨rule, slots⟩ := rule_playFor f (fun _ turn => turn.due ≤ time) f.effort
  exact ⟨serves.regular.passUntil time, slots.trans serves.slots, rule.trans serves.rule,
    by rw [jobs_passUntil]; exact serves.jobs⟩

theorem Serves.add (serves : Serves s f) {job : Job} {event : Event} (delivers : s.Delivers job event) :
    Serves s (f.add job) := by
  refine ⟨serves.regular.add job, serves.slots, serves.rule, fun other mem => ?_⟩
  rw [show f.add job = f.addAll [job] from rfl, jobs_addAll, List.mem_append,
    List.mem_singleton] at mem
  rcases mem with old | rfl
  · exact serves.jobs other old
  · exact ⟨event, delivers⟩

theorem Serves.dispatch (serves : Serves s f) (lookup : Int → Lookup) (event : Event) :
    Serves s (s.dispatch lookup event f).floor :=
  dispatch_induction s lookup event (fun time before => before.passUntil time)
    (fun hook before =>
      before.add ⟨Locator.classify hook.url, some (Locator.classify hook.url), rfl⟩) serves

theorem Serves.test (serves : Serves s f) (locator content : String) :
    Serves s (s.test locator content f).1 ∧
      ∃ d ending, (s.test locator content f).1.deliveries[f.deliveries.length]? = some d ∧
        d.stage = .over ending ∧ (s.test locator content f).2 = some ending := by
  let job := s.job (Locator.classify locator) (Service.testEvent content)
  let goOn (g : Floor) (_ : Turn) : Bool :=
    ((g.deliveries.drop f.deliveries.length).countP Delivery.isOver) < 1
  let g := Floor.playFor goOn (f.add job).effort (f.add job)
  have begun : Serves s (f.add job) := serves.add ⟨Locator.classify locator, none, rfl⟩
  have ends : Serves s g := begun.playFor goOn _
  have jobs : g.jobs = f.jobs ++ [job] := (jobs_playFor _ _ _).trans (jobs_addAll f [job])
  obtain ⟨d, last⟩ : ∃ d, g.deliveries.drop f.deliveries.length = [d] := by
    have many := congrArg List.length jobs
    simp only [Floor.jobs, List.length_map, List.length_append, List.length_singleton] at many
    refine List.length_eq_one_iff.1 ?_
    rw [List.length_drop]
    omega
  have there : g.deliveries[f.deliveries.length]? = some d := by
    have first := congrArg (·[0]?) last
    simpa [List.getElem?_drop] using first
  have finished : d.isOver = true := by
    cases first : first? g.agenda with
    | none =>
      have sound := ends.regular.sound
      exact over_of_idle sound.kept sound.attended (first?_eq_none.1 first) d
        (List.mem_of_getElem? there)
    | some next =>
      have stops : goOn g next.1 = false :=
        stops_playFor begun.regular.sound.planned goOn (Nat.le_refl _) first
      have counted : ¬ (g.deliveries.drop f.deliveries.length).countP Delivery.isOver < 1 :=
        of_decide_eq_false stops
      rw [last] at counted
      by_contra open_
      simp [open_] at counted
  obtain ⟨ending, stage⟩ := Delivery.exists_of_isOver finished
  refine ⟨ends, d, ending, there, stage, ?_⟩
  have told : (s.test locator content f).2 =
      (g.deliveries[f.deliveries.length]?).bind Delivery.ending? := rfl
  rw [told, there, Option.bind_some, Delivery.ending?, stage]

theorem Serves.crashes (serves : Serves s f) {d : Delivery} (mem : d ∈ f.deliveries) {ending : Ending}
    (finished : d.stage = .over ending) : ∃ event, s.Delivers d.job event ∧
      (SlotPool.maxSlots < s.config.slotsPerHost → ending = .crashed .slots) ∧
      (s.config.slotsPerHost ≤ SlotPool.maxSlots →
        Breaker.endOfTime ≤ d.begun + s.config.deadlineMs → ending = .crashed .time) ∧
      (s.config.slotsPerHost ≤ SlotPool.maxSlots →
        d.begun + s.config.deadlineMs < Breaker.endOfTime →
        d.ended + s.config.cooldownMs < Breaker.endOfTime →
        Order.sumIn event.memo.content < Order.quantityLimit →
        (∃ failure, ending = .refused failure) ∨ ∃ report, ending = .reported report) := by
  obtain ⟨event, delivers⟩ := serves.jobs d.job (List.mem_map_of_mem mem)
  have fate := (serves.regular.sound.onCourse d mem).ended finished
  have needs : d.job.needsSlot = true := by
    obtain ⟨destination, receiver, job⟩ := delivers
    rw [job]
    rfl
  have timeout : d.job.timeout = s.config.deadlineMs := by
    obtain ⟨destination, receiver, job⟩ := delivers
    rw [job]
    rfl
  have cooldown : f.registry.rule.cooldown = s.config.cooldownMs := by
    rw [serves.rule]
    rfl
  have pools : f.registry.hasPools = true ↔ s.config.slotsPerHost ≤ SlotPool.maxSlots := by
    rw [Registry.hasPools, serves.slots, decide_eq_true_iff]
  refine ⟨event, delivers, fun many => ?_, fun few late => ?_, fun few inTime soon word => ?_⟩
  · have none_ : ¬ f.registry.hasPools = true := fun has => Nat.not_le.2 many (pools.1 has)
    cases fate with
    | noSlots => rfl
    | late has => exact absurd (has needs) none_
    | refused has => exact absurd (has needs) none_
    | rejected has => exact absurd (has needs) none_
    | ran has => exact absurd (has needs) none_
    | unrecorded has => exact absurd (has needs) none_
  · rw [← timeout] at late
    cases fate with
    | noSlots _ none_ => simp [pools.2 few] at none_
    | late => rfl
    | refused _ early => exact absurd late (Nat.not_le.2 early)
    | rejected _ early => exact absurd late (Nat.not_le.2 early)
    | ran _ early => exact absurd late (Nat.not_le.2 early)
    | unrecorded => rfl
  · rw [← timeout] at inTime
    rw [← cooldown] at soon
    cases fate with
    | noSlots _ none_ => simp [pools.2 few] at none_
    | late _ late => exact absurd late (Nat.not_le.2 inTime)
    | refused => exact .inl ⟨_, rfl⟩
    | rejected => exact .inr ⟨_, rfl⟩
    | ran => exact .inr (delivers.exists_report word)
    | unrecorded _ _ _ late => exact absurd late (Nat.not_le.2 soon)

end Floor

namespace Config

theorem delay_lt {c : Config} (inWords : c.InWords) (retry draw : Nat) :
    c.policy.delay retry draw < 0x10000000000000000 * 1000 := by
  have step : c.policy.step retry < 0x10000000000000000 := by
    unfold Policy.step
    rw [List.getD_eq_getElem?_getD]
    cases there : c.policy.backoffs[retry]? with
    | none => exact Nat.two_pow_pos 64
    | some ms => exact inWords.backoffMs ms (List.mem_of_getElem? there)
  unfold Policy.delay Policy.lengthened
  split
  · omega
  · next spreads =>
    have extra := Nat.mod_lt draw (Nat.pos_of_ne_zero spreads)
    have half : Policy.spread (c.policy.step retry) ≤ c.policy.step retry := Nat.div_le_self _ _
    omega

/-- Whatever an accepted configuration consists of, its delays before retries can be expressed. Slots can
be acquired just if a pool can have so many of them, and a failure can be recorded unless it opens the
breaker for a cooldown that would outlast the end of time. All deliveries of a service with this
configuration come to an end, and tests return it. Without a pool they crash, and so they do if the end of
their deadline cannot be expressed. Otherwise a delivery whose cooldown and quantities can be expressed is
refused or has a report. -/
theorem crashes_of_settings (source : Source) (env : Env) {read : Config}
    (accepted : fromSource source = .ok read) :
    let c := read.withEnv env
    c.InWords ∧
    (∀ retry draw, c.policy.delay retry draw < 0x10000000000000000 * 1000) ∧
    (∀ key, c.registry.available key = if c.slotsPerHost ≤ SlotPool.maxSlots
      then .ok (max 1 c.slotsPerHost) else .error .slots) ∧
    (∀ history r, c.registry.calls history = .ok r → ∀ call : Breaker.Call,
      (∃ crash, r.call call = .error crash) ↔ call.ask = .failure ∧
        max 1 c.failureThreshold ∣ (Breaker.failureTimes call.host history).length + 1 ∧
        Breaker.endOfTime ≤ call.time + c.cooldownMs) ∧
    ∀ s : Service, s.config = c → ∀ f, Floor.Serves s f →
      (∀ lookup event, Floor.Serves s (s.dispatch lookup event f).floor) ∧
      (∀ locator content, Floor.Serves s (s.test locator content f).1 ∧
        ∃ d ending, (s.test locator content f).1.deliveries[f.deliveries.length]? = some d ∧
          d.stage = .over ending ∧ (s.test locator content f).2 = some ending) ∧
      (Floor.Serves s (f.playWhile fun _ _ => true) ∧
        ∀ d ∈ (f.playWhile fun _ _ => true).deliveries, d.isOver = true) ∧
      ∀ d ∈ f.deliveries, ∀ ending, d.stage = .over ending → ∃ event, s.Delivers d.job event ∧
        (SlotPool.maxSlots < c.slotsPerHost → ending = .crashed .slots) ∧
        (c.slotsPerHost ≤ SlotPool.maxSlots → Breaker.endOfTime ≤ d.begun + c.deadlineMs →
          ending = .crashed .time) ∧
        (c.slotsPerHost ≤ SlotPool.maxSlots → d.begun + c.deadlineMs < Breaker.endOfTime →
          d.ended + c.cooldownMs < Breaker.endOfTime →
          Order.sumIn event.memo.content < Order.quantityLimit →
          (∃ failure, ending = .refused failure) ∨ ∃ report, ending = .reported report) := by
  intro c
  have inWords : c.InWords := (inWords_of_fromSource accepted).withEnv env
  refine ⟨inWords, delay_lt inWords, fun key => ?_, fun history r made call =>
    (Registry.accounts_of_calls made).call_eq_error_iff call, ?_⟩
  · by_cases few : c.slotsPerHost ≤ SlotPool.maxSlots
    · simp [Registry.available, Registry.hasPools, registry, few, Registry.host, Registry.unused,
        SlotPool.ofSize]
    · simp [Registry.available, Registry.hasPools, registry, few]
  · rintro s same f serves
    have last := serves.playFor (fun _ _ => true) f.effort
    have idle : (f.playWhile fun _ _ => true).agenda = [] :=
      (Floor.plays_playWhile serves.regular.sound.planned).agenda
    refine ⟨serves.dispatch, serves.test, ⟨last,
      Floor.over_of_idle last.regular.sound.kept last.regular.sound.attended idle⟩, ?_⟩
    rw [← same]
    exact fun d mem ending finished => serves.crashes mem finished

/-- One slot more than a pool can have: a test crashes. -/
theorem crashes_of_too_many_slots :
    let c : Config := { slotsPerHost := 2305843009213693952 }
    let s : Service := { config := c, world := { guard := fun _ => {}, peer := fun _ _ => none } }
    fromSource (.text "\x7b\"max_concurrent_per_host\":2305843009213693952\x7d".toList) = .ok c ∧
      (s.test "" "hi" { registry := c.registry }).2 = some (.crashed .slots) := by
  intro c s
  have accepted : fromSource
      (.text "\x7b\"max_concurrent_per_host\":2305843009213693952\x7d".toList) = .ok c := rfl
  obtain ⟨-, -, -, -, deliveries⟩ := crashes_of_settings _ (fun _ => none) accepted
  obtain ⟨-, tests, -, -⟩ := deliveries s rfl _ (Floor.serves_start s .byArrival 0)
  obtain ⟨serves, d, ending, there, finished, told⟩ := tests "" "hi"
  obtain ⟨-, -, -, fates⟩ := deliveries s rfl _ serves
  obtain ⟨event, -, many, -⟩ := fates d (List.mem_of_getElem? there) ending finished
  exact ⟨accepted, told.trans (congrArg some (many (by decide)))⟩

/-- Three files that are accepted, each with a single setting that is too large. With the first a test
crashes, with the second no slot can be acquired, and with the third no failure can be recorded. -/
theorem crashes_of_largest_words :
    let read (text : String) := fromSource (.text text.toList)
    (∃ c, read "\x7b\"delivery_deadline_secs\":18446744073709551615\x7d" = .ok c ∧
      let s : Service := { config := c, world := { guard := fun _ => {}, peer := fun _ _ => none } }
      (s.test "" "hi" { registry := c.registry }).2 = some (.crashed .time)) ∧
    (∃ c, read "\x7b\"max_concurrent_per_host\":18446744073709551615\x7d" = .ok c ∧
      c.registry.available "a" = .error .slots) ∧
    ∃ c, read "\x7b\"circuit_cooldown_secs\":18446744073709551615,\"circuit_failure_threshold\":1\x7d" =
        .ok c ∧ c.registry.call ⟨"a", 0, .failure⟩ = .error .time :=
  ⟨⟨{ deadlineSecs := 18446744073709551615 }, rfl, rfl⟩,
    ⟨{ slotsPerHost := 18446744073709551615 }, rfl, rfl⟩,
    ⟨{ cooldownSecs := 18446744073709551615, failureThreshold := 1 }, rfl, rfl⟩⟩

end Config

end Herald
