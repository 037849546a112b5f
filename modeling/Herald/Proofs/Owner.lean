import Herald.Proofs.Completion.Dispatch
import Herald.Proofs.Owner.Reference

/-! The dispatch and the payload read the same reference to an owner, so that what the dispatch lets pass has a
payload. -/
namespace Herald

namespace Payload

variable {event : Event} {target : String} {owner : Int}

theorem ofEvent_of_parse (named : Owner.parse event.memo.creator = .ok owner) :
    ofEvent event target = .ok ⟨target, event.activity, String.ofList (Owner.text owner), event.memo⟩ := by
  simp only [ofEvent, named]

theorem exists_of_ofEvent {payload : Payload} (converts : ofEvent event target = .ok payload) :
    ∃ owner, Owner.parse event.memo.creator = .ok owner ∧
      payload = ⟨target, event.activity, String.ofList (Owner.text owner), event.memo⟩ := by
  cases named : Owner.parse event.memo.creator with
  | ok owner =>
    rw [ofEvent_of_parse named] at converts
    exact ⟨owner, rfl, (Except.ok.inj converts).symm⟩
  | error fault => simp [ofEvent, named] at converts

end Payload

namespace Service

variable {s : Service} {event : Event} {owner : Int}

theorem refusal_job (standard : s.converter = Payload.ofEvent)
    (named : Owner.parse event.memo.creator = .ok owner) (destination : Destination) :
    (s.job destination event).refusal = none := by
  simp only [job]
  cases destination.channel with
  | raw => simp only [Sender.prepare, sender, standard, Payload.ofEvent_of_parse named]
  | weCom => rfl
  | bark => rfl

theorem jobs_dispatch (s : Service) (lookup : Int → Lookup) (event : Event) (f : Floor) :
    ∃ hooks : List Hook, (s.dispatch lookup event f).floor.jobs = f.jobs ++ hooks.map (s.hookJob event) ∧
      (hooks = [] ∨ ∃ owner, Owner.parse event.memo.creator = .ok owner) := by
  have waited (time : Nat) : (f.passUntil time).jobs = f.jobs ++ [] := by
    rw [Floor.jobs_passUntil, List.append_nil]
  cases named : Owner.parse event.memo.creator with
  | error fault =>
    refine ⟨[], ?_, .inl rfl⟩
    rw [dispatch_of_malformed named]
    exact (List.append_nil _).symm
  | ok owner =>
    rcases Nat.lt_or_ge s.config.fetchTimeoutMs (lookup owner).wait with late | inTime
    · exact ⟨[], by rw [dispatch_of_late named late]; exact waited _, .inl rfl⟩
    · cases found : (lookup owner).hooks with
      | error fault => exact ⟨[], by rw [dispatch_of_fault named inTime found]; exact waited _, .inl rfl⟩
      | ok hooks =>
        refine ⟨hooks, ?_, .inr ⟨owner, rfl⟩⟩
        rw [(dispatch_of_found named inTime found).2, Floor.jobs_addAll, Floor.jobs_passUntil]

theorem exists_able_of_dispatched (standard : s.converter = Payload.ofEvent) {lookup : Int → Lookup} {f : Floor}
    {place : Nat} (new : f.deliveries.length ≤ place)
    (inside : place < (s.dispatch lookup event f).floor.deliveries.length) :
    ∃ job, (s.dispatch lookup event f).floor.jobs[place]? = some job ∧ job.refusal = none := by
  obtain ⟨hooks, jobs, names⟩ := s.jobs_dispatch lookup event f
  have count (g : Floor) : g.jobs.length = g.deliveries.length := List.length_map _
  have total := congrArg List.length jobs
  rw [List.length_append, List.length_map, count, count] at total
  obtain ⟨owner, named⟩ : ∃ owner, Owner.parse event.memo.creator = .ok owner := by
    rcases names with rfl | named
    · rw [List.length_nil] at total
      omega
    · exact named
  obtain ⟨hook, at_⟩ : ∃ hook, hooks[place - f.deliveries.length]? = some hook :=
    ⟨_, List.getElem?_eq_getElem (by omega)⟩
  refine ⟨s.hookJob event hook, ?_, refusal_job standard named (Locator.classify hook.url)⟩
  rw [jobs, List.getElem?_append_right (by rw [count]; exact new), count, List.getElem?_map, at_]
  rfl

end Service

theorem Ending.eq_refused_of_notice? {ending : Ending} {destination receiver : Destination} {failure : Failure}
    (skipped : ending.notice? destination = some (.skipped receiver failure)) : ending = .refused failure := by
  cases ending with
  | refused known =>
    cases skipped
    rfl
  | reported report =>
    simp only [Ending.notice?] at skipped
    split at skipped <;> cases skipped
  | crashed crash => cases skipped

theorem Delivery.Traced.refusal_eq {d : Delivery} {hasPools : Bool} {deeds : List Deed} {failure : Failure}
    (traced : d.Traced hasPools deeds) (ended : d.ending? = some (.refused failure)) :
    d.job.refusal = some failure := by
  rw [ending?] at ended
  cases traced with
  | waits early => rcases early with arriving | queued <;> simp [*] at ended
  | barred stage barred =>
    rw [stage] at ended
    obtain ⟨⟩ := ended
    cases barred with
    | refused refused => exact refused
  | rejected stage => simp [stage] at ended
  | runs running => simp [running] at ended
  | ended stage =>
    simp only [stage, Job.ending, Option.some.injEq] at ended
    split at ended <;> cases ended
  | crashed stage => simp [stage] at ended

namespace Floor

variable {f : Floor} {place : Nat} {job : Job}

/-- The log announces that the delivery at a place was skipped. -/
def Skips (f : Floor) (place : Nat) : Prop :=
  ∃ e ∈ f.log, e.place = place ∧ ∃ receiver failure, f.notice? e = some (.skipped receiver failure)

theorem Skips.exists_mem_endings (skips : f.Skips place) : ∃ failure, .refused failure ∈ f.endings place := by
  obtain ⟨e, mem, rfl, receiver, failure, skipped⟩ := skips
  obtain ⟨d, -, notice⟩ := Option.bind_eq_some_iff.1 skipped
  rcases what : e.what with deed | _ | ending
  · simp [what] at notice
  · simp [what, opened] at notice
  · rw [what] at notice
    obtain ⟨destination, -, announced⟩ := Option.bind_eq_some_iff.1 notice
    obtain rfl := Ending.eq_refused_of_notice? announced
    refine ⟨failure, List.mem_filterMap.2 ⟨(e.time, e.what), ?_, by rw [what]; rfl⟩⟩
    exact List.mem_map.2 ⟨e, List.mem_filter.2 ⟨List.mem_reverse.2 mem, by simp⟩, rfl⟩

theorem Regular.not_skips (regular : Regular f) (ms : List Move) (at_ : f.jobs[place]? = some job)
    (able : job.refusal = none) : ¬ (f.moves ms).Skips place := by
  intro skips
  obtain ⟨failure, mem⟩ := skips.exists_mem_endings
  obtain ⟨d, -, rfl, told, traced⟩ := regular.interleaved ms at_
  rw [told, Option.mem_toList] at mem
  rw [traced.refusal_eq mem] at able
  cases able

end Floor

namespace Owner

open Herald.Floor

/-- References to owners are read exactly. A text names an owner if and only if it is the word, a slash and a
number of 32 bits, with a sign or without; what is wrong with any other text is said. The decimal form of an
owner names it. An event has a payload if and only if its creator names an owner; the payload is that of the
event, with the one plain reference to this owner. So if a dispatch does not object to the creator, each of its
raw deliveries has its payload, and however its deliveries are interleaved, none of them is skipped. -/
theorem references_exact :
    (∀ (name : String) (owner : Int), parse name = .ok owner ↔ Refers name.toList owner) ∧
    (∀ name : String, (∀ owner, ¬ Refers name.toList owner) →
      ∃ fault, parse name = .error fault ∧ Blames name.toList fault) ∧
    (∀ owner : Int, -0x80000000 ≤ owner → owner < 0x80000000 →
      parse ("users/" ++ toString owner) = .ok owner) ∧
    (∀ (event : Event) (target : String),
      ((∃ payload, Payload.ofEvent event target = .ok payload) ↔
        ∃ owner, parse event.memo.creator = .ok owner) ∧
      ∀ payload, Payload.ofEvent event target = .ok payload → ∃ owner,
        parse event.memo.creator = .ok owner ∧ parse payload.creator = .ok owner ∧
        payload = ⟨target, event.activity, "users/" ++ toString owner, event.memo⟩ ∧
        ∀ name : String, Refers name.toList owner ∧ IsPlain name.toList ↔ name = payload.creator) ∧
    ∀ s : Service, s.converter = Payload.ofEvent →
      ∀ (lookup : Int → Lookup) (event : Event) (f : Floor), Regular f →
      let dispatched := s.dispatch lookup event f
      (∀ fault, dispatched.result ≠ .error (.invalidOwner fault)) →
      (∃ owner, parse event.memo.creator = .ok owner ∧ ∀ target,
        s.sender.prepare .raw target event =
          .ok (Raw.post s.client ⟨target, event.activity, "users/" ++ toString owner, event.memo⟩)) ∧
      ∀ (goOn : Floor → Turn → Bool) (turns : Nat) (ms : List Move) (place : Nat),
        f.deliveries.length ≤ place → place < dispatched.floor.deliveries.length →
        ¬ ((playFor goOn turns dispatched.floor).moves ms).Skips place := by
  have reads (name : String) (owner : Int) : parse name = .ok owner ↔ Refers name.toList owner :=
    parseText_eq_ok_iff
  have inWord {name : List Char} {owner : Int} (refers : Refers name owner) :
      -0x80000000 ≤ owner ∧ owner < 0x80000000 := by
    cases refers with
    | of _ low high => exact ⟨low, high⟩
  have plain (owner : Int) (low : -0x80000000 ≤ owner) (high : owner < 0x80000000) :
      parse ("users/" ++ toString owner) = .ok owner := by
    rw [← ofList_text]
    exact parse_text low high
  refine ⟨reads, fun name => blames_of_not_refers, plain, fun event target => ⟨⟨?_, ?_⟩, ?_⟩, ?_⟩
  · rintro ⟨payload, converts⟩
    obtain ⟨owner, named, -⟩ := Payload.exists_of_ofEvent converts
    exact ⟨owner, named⟩
  · rintro ⟨owner, named⟩
    exact ⟨_, Payload.ofEvent_of_parse named⟩
  · intro payload converts
    obtain ⟨owner, named, rfl⟩ := Payload.exists_of_ofEvent converts
    obtain ⟨low, high⟩ := inWord ((reads _ _).1 named)
    refine ⟨owner, named, ?_, by rw [ofList_text], fun name => ?_⟩
    · rw [ofList_text]
      exact plain owner low high
    · rw [refers_and_isPlain_iff low high, ← String.toList_inj, String.toList_ofList]
  · intro s standard lookup event f regular dispatched accepted
    constructor
    · cases named : parse event.memo.creator with
      | error fault =>
        refine absurd ?_ (accepted fault)
        simp only [dispatched, Service.dispatch_of_malformed named]
      | ok owner =>
        refine ⟨owner, rfl, fun target => ?_⟩
        simp only [Sender.prepare, Service.sender, standard, Payload.ofEvent_of_parse named, ofList_text]
    · intro goOn turns ms place new inside
      obtain ⟨job, at_, able⟩ := Service.exists_able_of_dispatched standard new inside
      rw [← jobs_playFor _ goOn turns] at at_
      exact ((regular.dispatch s lookup event).playFor goOn turns).not_skips ms at_ able

/-- A reference with a sign and zeros that could be left out. -/
theorem references_exact_of_sign_and_zeros :
    let s : Service := { world := { guard := fun _ => {}, peer := fun _ _ => none } }
    let event : Event := ⟨.created, { creator := "users/+007" }⟩
    let f : Floor := { registry := s.config.registry }
    let hook : Hook := { id := "1", url := "http://[2001:db8::1]/" }
    let dispatched := s.dispatch (fun _ => ⟨10, .ok [hook]⟩) event f
    parse "users/+007" = .ok 7 ∧ (∃ payload, Payload.ofEvent event "" = .ok payload) ∧
      ¬ (dispatched.floor.playWhile fun _ _ => true).Skips 0 := by
  intro s event f hook dispatched
  obtain ⟨reads, -, -, converts, skips⟩ := references_exact
  have zeros : Text.natural? "007".toList = some 7 := by decide
  have natural := (Text.natural?_eq_some_iff.1 zeros).1
  have named : parse "users/+007" = .ok 7 := (reads _ _).2 (.of (.plus natural) (by decide) (by decide))
  let lookup (_ : Int) : Lookup := ⟨10, .ok [hook]⟩
  have inTime : (lookup 7).wait ≤ s.config.fetchTimeoutMs := by decide
  have found : (lookup 7).hooks = .ok [hook] := rfl
  have result : dispatched.result = .ok 1 := (Service.dispatch_of_found named inTime found).1
  obtain ⟨-, spared⟩ := skips s rfl _ event f (.start (fun _ => rfl) .byArrival 0) fun fault objects => by
    rw [result] at objects
    cases objects
  exact ⟨named, (converts event "").1.2 ⟨7, named⟩, spared _ _ [] 0 (by decide) (by decide)⟩

end Owner

end Herald
