import Herald.Proofs.Breaker.History
import Herald.Proofs.Delivery.Tally
import Herald.Proofs.Delivery.Turn
import Herald.Proofs.Interleaving.Trace
import Mathlib.Data.List.Basic

/-! The calls that deliveries make on the breakers of their hosts. An access makes the call that the end of
an attempt asks for, if it ends one, and no other; so the breakers are those of all calls in their order,
and the calls of one delivery can be read off its report. -/
namespace Herald

open Breaker

def Breaker.ask? : Except Failure Unit → Option Ask
  | .ok () => some .success
  | .error failure =>
    if failure.isRetryable || failure == .deadlineExceeded then some .failure else none

def Deed.call? (host : String) (time : Nat) : Deed → Option Call
  | .ended _ result => (ask? result).map (Call.mk host time)
  | _ => none

/-- What a reported attempt asks of the breaker. A permanent failure is the last one of its run, so it is
the result of the report. -/
def DeliveryReport.ask? (report : DeliveryReport) (a : Attempt) : Option Ask :=
  match a.outcome with
  | .success => some .success
  | .transientFailure _ => some .failure
  | .permanentFailure _ =>
    match report.result with
    | .error .deadlineExceeded => some .failure
    | _ => none
  | .circuitRejected => none

def DeliveryReport.calls (report : DeliveryReport) (times : List Nat) : List Call :=
  (report.attempts.zip times).filterMap fun e => (report.ask? e.1).map (Call.mk report.host e.2)

namespace Registry

structure Agrees (key : String) (r s : Registry) : Prop where
  rule : r.rule = s.rule
  breaker : (r.host key).breaker = (s.host key).breaker

theorem Agrees.refl (key : String) (r : Registry) : Agrees key r r := ⟨rfl, rfl⟩

theorem Agrees.symm {key : String} {r s : Registry} (agrees : Agrees key r s) : Agrees key s r :=
  ⟨agrees.rule.symm, agrees.breaker.symm⟩

theorem Agrees.trans {key : String} {r s t : Registry} (first : Agrees key r s)
    (second : Agrees key s t) : Agrees key r t :=
  ⟨first.rule.trans second.rule, first.breaker.trans second.breaker⟩

theorem agrees_setHost_other (r : Registry) {key other : String} (ne : key ≠ other)
    (state : HostState) : Agrees key r (r.setHost other state) :=
  ⟨rfl, by rw [host_setHost_other _ ne]⟩

theorem agrees_setHost {r s : Registry} {key : String} (agrees : Agrees key r s)
    {state other : HostState} (breaker : state.breaker = other.breaker) :
    Agrees key (r.setHost key state) (s.setHost key other) :=
  ⟨agrees.rule, by rw [host_setHost_self, host_setHost_self, breaker]⟩

theorem call_agrees {r s r' : Registry} {c : Call} (agrees : Agrees c.host r s)
    (called : r.call c = .ok r') : ∃ s', s.call c = .ok s' ∧ Agrees c.host r' s' := by
  have same := agrees.breaker
  have rule := agrees.rule
  cases asked : c.ask with
  | failure =>
    simp only [call, asked, recordFailure, same, rule] at called ⊢
    rcases recorded : (s.host c.host).breaker.recordFailure s.rule c.time with ⟨later, what⟩
    cases what with
    | overflowed => simp [recorded] at called
    | counted =>
      simp only [recorded, Except.ok.injEq] at called ⊢
      exact ⟨_, rfl, called ▸ agrees_setHost agrees rfl⟩
    | opened =>
      simp only [recorded, Except.ok.injEq] at called ⊢
      exact ⟨_, rfl, called ▸ agrees_setHost agrees rfl⟩
  | success =>
    simp only [call, asked, recordSuccess, Except.ok.injEq] at called ⊢
    exact ⟨_, rfl, called ▸ agrees_setHost agrees rfl⟩
  | isOpen =>
    simp only [call, asked, Except.ok.injEq] at called ⊢
    exact ⟨s, rfl, called ▸ agrees⟩
  | snapshot =>
    simp only [call, asked, Except.ok.injEq] at called ⊢
    exact ⟨s, rfl, called ▸ agrees⟩

theorem agrees_call {r r' : Registry} {c : Call} {key : String} (ne : key ≠ c.host)
    (called : r.call c = .ok r') : Agrees key r r' := by
  cases asked : c.ask with
  | failure =>
    simp only [call, asked, recordFailure] at called
    rcases recorded : (r.host c.host).breaker.recordFailure r.rule c.time with ⟨later, what⟩
    cases what with
    | overflowed => simp [recorded] at called
    | counted =>
      simp only [recorded, Except.ok.injEq] at called
      exact called ▸ agrees_setHost_other r ne _
    | opened =>
      simp only [recorded, Except.ok.injEq] at called
      exact called ▸ agrees_setHost_other r ne _
  | success =>
    simp only [call, asked, recordSuccess, Except.ok.injEq] at called
    exact called ▸ agrees_setHost_other r ne _
  | isOpen =>
    simp only [call, asked, Except.ok.injEq] at called
    exact called ▸ .refl key r
  | snapshot =>
    simp only [call, asked, Except.ok.injEq] at called
    exact called ▸ .refl key r

@[simp] theorem calls_nil (r : Registry) : r.calls [] = .ok r := rfl

theorem calls_cons_eq_ok {r after : Registry} {c : Call} {history : List Call} :
    r.calls (c :: history) = .ok after ↔
      ∃ next, r.call c = .ok next ∧ next.calls history = .ok after := by
  unfold calls
  rw [List.foldlM_cons]
  cases r.call c <;> simp [bind, Except.bind]

theorem calls_append {r mid after : Registry} {history more : List Call}
    (first : r.calls history = .ok mid) (second : mid.calls more = .ok after) :
    r.calls (history ++ more) = .ok after := by
  induction history generalizing r with
  | nil =>
    obtain rfl : r = mid := by simpa using first
    exact second
  | cons c history ih =>
    obtain ⟨next, called, rest⟩ := calls_cons_eq_ok.1 first
    exact calls_cons_eq_ok.2 ⟨next, called, ih rest⟩

theorem calls_filter {r s after : Registry} {key : String} {history : List Call}
    (agrees : Agrees key r s) (called : r.calls history = .ok after) :
    ∃ own, s.calls (history.filter (·.host == key)) = .ok own ∧ Agrees key after own := by
  induction history generalizing r s with
  | nil =>
    obtain rfl : r = after := by simpa using called
    exact ⟨s, rfl, agrees⟩
  | cons c history ih =>
    obtain ⟨next, first, rest⟩ := calls_cons_eq_ok.1 called
    by_cases own : c.host = key
    · subst own
      obtain ⟨mine, made, agrees⟩ := call_agrees agrees first
      obtain ⟨last, others, agrees⟩ := ih agrees rest
      refine ⟨last, ?_, agrees⟩
      rw [List.filter_cons_of_pos (by simp)]
      exact calls_cons_eq_ok.2 ⟨mine, made, others⟩
    · rw [List.filter_cons_of_neg (by simpa using own)]
      exact ih ((agrees_call (Ne.symm own) first).symm.trans agrees) rest

theorem call_of_hear {r : Registry} {host : String} {now : Nat} {result : Except Failure Unit}
    {later : Breaker} {recorded : Option Recorded}
    (heard : (r.host host).breaker.hear r.rule now result = (later, recorded))
    (recordable : recorded ≠ some .overflowed) :
    ∃ after, r.calls ((Breaker.ask? result).map (Call.mk host now)).toList = .ok after ∧
      after.rule = r.rule ∧ (after.host host).breaker = later := by
  cases result with
  | ok done =>
    obtain ⟨rfl, rfl⟩ := Prod.mk.inj heard
    exact ⟨r.recordSuccess host, rfl, rfl, by rw [recordSuccess, host_setHost_self]⟩
  | error failure =>
    simp only [Breaker.hear] at heard
    by_cases counts : (failure.isRetryable || failure == .deadlineExceeded) = true
    · rcases made : (r.host host).breaker.recordFailure r.rule now with ⟨next, what⟩
      rw [if_pos counts, made] at heard
      obtain ⟨rfl, rfl⟩ := Prod.mk.inj heard
      have asks : Breaker.ask? (.error failure) = some .failure := if_pos counts
      refine ⟨r.setHost host { r.host host with breaker := next }, ?_, rfl,
        by rw [host_setHost_self]⟩
      simp only [asks, Option.map_some, Option.toList_some, calls_cons_eq_ok, call, recordFailure,
        made]
      cases what with
      | overflowed => exact absurd rfl recordable
      | _ => exact ⟨_, rfl, rfl⟩
    · rw [if_neg counts] at heard
      obtain ⟨rfl, rfl⟩ := Prod.mk.inj heard
      have asks : Breaker.ask? (.error failure) = none := if_neg counts
      rw [asks]
      exact ⟨r, rfl, rfl, rfl⟩

end Registry

def Happening.call? (host : String) (time : Nat) (what : Happening) : Option Call :=
  what.deed?.bind (Deed.call? host time)

theorem Deed.calls_seen (deed : Deed) (recorded : Option Recorded) (host : String) (time : Nat) :
    (deed.seen recorded).filterMap (Happening.call? host time) = (deed.call? host time).toList := by
  have only : (deed.seen recorded).filterMap (Happening.call? host time) =
      [deed].filterMap (Deed.call? host time) := by
    rw [← deeds_seen deed recorded, List.filterMap_filterMap]
    rfl
  rw [only]
  cases called : deed.call? host time <;> simp [called]

theorem Delivery.calls_of_accessed_eq {d : Delivery} {r : Registry} {hasPools : Bool} {now : Nat}
    {p : Progress} (accessed : d.Accessed r.rule hasPools now (r.host d.job.host) p)
    (sound : p.delivery.stage ≠ .over (.crashed .time)) :
    ∃ after, r.calls (p.seen.filterMap (Happening.call? d.job.host now)) = .ok after ∧
      Registry.Agrees d.job.host (r.setHost d.job.host p.host) after := by
  have replaced {after : Registry} {state : HostState} (rule : after.rule = r.rule)
      (breaker : (after.host d.job.host).breaker = state.breaker) :
      Registry.Agrees d.job.host (r.setHost d.job.host state) after :=
    ⟨rule.symm, by rw [Registry.host_setHost_self, breaker]⟩
  cases accessed with
  | crashes => exact absurd rfl sound
  | @acts _ deed _ later recorded _ noticed recordable =>
    rw [Deed.calls_seen]
    cases deed with
    | ended attempt result =>
      obtain ⟨after, called, rule, breaker⟩ := Registry.call_of_hear noticed recordable
      exact ⟨after, called, replaced rule breaker⟩
    | _ =>
      obtain ⟨rfl, rfl⟩ := Prod.mk.inj noticed
      exact ⟨r, rfl, replaced rfl rfl⟩
  | _ => exact ⟨r, rfl, replaced rfl rfl⟩

theorem Happening.host_of_call? {host : String} {time : Nat} {what : Happening} {c : Call}
    (called : what.call? host time = some c) : c.host = host := by
  obtain ⟨deed, -, called⟩ := Option.bind_eq_some_iff.1 called
  cases deed with
  | ended attempt result =>
    obtain ⟨ask, -, rfl⟩ := Option.map_eq_some_iff.1 called
    rfl
  | _ => cases called

theorem ended_of_attemptsFrom {operation : Nat → Course}
    (own : ∀ i, ∀ deed ∈ (operation i).deeds, deed.isOwn = true) {l : Limits} {delays : List Nat}
    {index time : Nat} {attempt : Attempt} {result : Except Failure Unit}
    (mem : .ended attempt result ∈ Step.deeds (attemptsFrom l operation delays index time).steps) :
    attempt.outcome = .of result ∧
      (Retryable result ∨ (attemptsFrom l operation delays index time).result = .ok result) := by
  have once (index time : Nat)
      (mem : .ended attempt result ∈ Step.deeds ((operation index).attempt l index time).steps) :
      attempt.outcome = .of result ∧
        ((operation index).attempt l index time).result = .ok result := by
    obtain ⟨inner, within, deeds⟩ := Course.deeds_attempt (own index) l index time
    have last : Deed.ended attempt result ∈
        Course.closing index time ((operation index).attempt l index time) := by
      rw [deeds, List.mem_append, List.mem_cons] at mem
      refine mem.resolve_left ?_
      rintro (same | mem)
      · cases same
      · rcases within _ mem with same | own
        · cases same
        · cases own
    cases ends : ((operation index).attempt l index time).result with
    | error crash => simp [Course.closing, ends] at last
    | ok ended =>
      obtain ⟨rfl, rfl⟩ : attempt = _ ∧ result = ended := by
        simpa [Course.closing, ends] using last
      exact ⟨rfl, rfl⟩
  have retried {tried : Stretch Result} {failure : Failure} (ends : tried.result = .ok result)
      (fails : tried.FailsWith failure) : Retryable result := by
    obtain rfl : result = .error failure := by simpa using ends.symm.trans fails.1
    exact ⟨failure, rfl, fails.2⟩
  revert mem
  refine attemptsFrom_induction (P := fun _ _ _ s => .ended attempt result ∈ Step.deeds s.steps →
    attempt.outcome = .of result ∧ (Retryable result ∨ s.result = .ok result))
    ?_ ?_ ?_ ?_ delays index time
  · rintro _ index time _ rfl - mem
    exact (once index time mem).imp_right .inr
  · rintro index time _ _ rfl - mem
    exact (once index time mem).imp_right .inr
  · rintro delay _ index time _ _ _ _ rfl fails rfl - mem
    simp only [Step.deeds_append, (l.rested _ delay).deeds, List.append_nil] at mem
    obtain ⟨outcome, ends⟩ := once index time mem
    exact ⟨outcome, .inl (retried ends fails)⟩
  · rintro delay _ index time _ _ _ rfl fails rfl - ih mem
    simp only [Stretch.after, Step.deeds_append, (l.rested _ delay).deeds, List.append_nil,
      List.mem_append] at mem
    rcases mem with mem | mem
    · obtain ⟨outcome, ends⟩ := once index time mem
      exact ⟨outcome, .inl (retried ends fails)⟩
    · exact ih mem

def Delivery.report? (d : Delivery) : Option DeliveryReport :=
  match d.stage with
  | .over (.reported report) => some report
  | _ => none

theorem Delivery.stage_of_report? {d : Delivery} {report : DeliveryReport}
    (made : d.report? = some report) : d.stage = .over (.reported report) := by
  unfold report? at made
  split at made
  · next stage => rw [stage, Option.some.inj made]
  · cases made

theorem Job.run_of_reported {j : Job} {report : DeliveryReport}
    (reports : j.ending = .reported report) :
    ∃ last, j.run.result = .ok last ∧ report = ⟨j.host, Step.attempts j.run.steps, last⟩ := by
  cases ended : j.run.result with
  | error crash => simp [ending, ended] at reports
  | ok last => exact ⟨last, rfl, by simpa [ending, ended] using reports.symm⟩

theorem Job.ask?_of_ended {j : Job} (own : ∀ i, ∀ deed ∈ (j.operation i).deeds, deed.isOwn = true)
    {report : DeliveryReport} (reports : j.ending = .reported report) {attempt : Attempt}
    {result : Except Failure Unit} (mem : .ended attempt result ∈ Step.deeds j.run.steps) :
    report.ask? attempt = Breaker.ask? result ∧ attempt.outcome ≠ .circuitRejected := by
  obtain ⟨outcome, final⟩ := ended_of_attemptsFrom own mem
  obtain ⟨last, ended, rfl⟩ := run_of_reported reports
  rw [DeliveryReport.ask?, outcome]
  cases result with
  | ok => exact ⟨rfl, by simp [Outcome.of]⟩
  | error failure =>
    cases retryable : failure.isRetryable with
    | true => exact ⟨by simp [Outcome.of, Breaker.ask?, retryable], by simp [Outcome.of, retryable]⟩
    | false =>
      obtain rfl : last = .error failure := by
        rcases final with ⟨other, same, retry⟩ | same
        · cases same
          simp [retryable] at retry
        · simpa using ended.symm.trans same
      refine ⟨?_, by simp [Outcome.of, retryable]⟩
      simp only [Outcome.of, Breaker.ask?, retryable, Bool.false_eq_true, if_false, Bool.false_or]
      cases failure <;> rfl

theorem Delivery.Traced.of_reported {d : Delivery} {hasPools : Bool} {deeds : List Deed}
    {report : DeliveryReport} (traced : d.Traced hasPools deeds)
    (finished : d.stage = .over (.reported report)) :
    (report = .rejected d.job.host ∧ deeds = []) ∨
      (d.job.ending = .reported report ∧ deeds = Step.deeds d.job.run.steps) := by
  cases traced with
  | waits early => simp [finished] at early
  | barred ends barred =>
    rw [finished] at ends
    obtain rfl := Stage.over.inj ends
    cases barred
  | rejected ends =>
    rw [finished] at ends
    exact .inl ⟨by simpa using ends, rfl⟩
  | runs running => simp [finished] at running
  | ended ends =>
    rw [finished] at ends
    exact .inr ⟨(Stage.over.inj ends).symm, rfl⟩
  | crashed ends => simp [finished] at ends

namespace Floor

def callOf (f : Floor) (e : Entry) : Option Call :=
  (f.host? e.place).bind fun host => e.what.call? host e.time

def calls (f : Floor) : List Call := f.log.reverse.filterMap f.callOf

def callsAt (f : Floor) (place : Nat) : List Call :=
  (f.log.reverse.filter (·.place == place)).filterMap f.callOf

def ends (f : Floor) (place : Nat) : List (Nat × Attempt) :=
  (f.trace place).filterMap fun e => e.2.attempt?.map (Prod.mk e.1)

variable {f later : Floor} {key : String} {place : Nat} {d : Delivery}

theorem calls_eq_callsAt (there : f.host? place = some key)
    (alone : ∀ other, other ≠ place → f.host? other ≠ some key) :
    f.calls.filter (·.host == key) = f.callsAt place := by
  rw [calls, callsAt, List.filter_filterMap, List.filterMap_filter]
  refine List.filterMap_congr fun e mem => ?_
  cases called : f.callOf e with
  | none => simp
  | some c =>
    obtain ⟨host, at_, own⟩ := Option.bind_eq_some_iff.1 called
    have host := Happening.host_of_call? own
    by_cases same : e.place = place
    · rw [same, there] at at_
      simp [same, host, Option.some.inj at_]
    · have foreign : c.host ≠ key := fun is => alone e.place same (by rw [at_, ← host, is])
      simp [same, foreign]

theorem callsAt_eq (there : f.host? place = some key) :
    f.callsAt place = (f.trace place).filterMap fun e => e.2.call? key e.1 := by
  rw [callsAt, trace, List.filterMap_filterMap]
  refine List.filterMap_congr fun e mem => ?_
  have own : e.place = place := by simpa using (List.mem_filter.1 mem).2
  rw [callOf, own, there, Option.bind_some, Happening.call?]
  cases e.what.deed? <;> rfl

theorem Touched.calls {time : Nat} {p : Delivery.Progress}
    (touched : Touched f time place d p later) :
    later.calls = f.calls ++ p.seen.filterMap (Happening.call? d.job.host (max f.now time)) := by
  have same : later.callOf = f.callOf := by
    funext e
    rw [callOf, callOf, touched.host?]
  have new : ((p.seen.map (Entry.mk (max f.now time) place)).filterMap f.callOf) =
      p.seen.filterMap (Happening.call? d.job.host (max f.now time)) := by
    rw [List.filterMap_map]
    refine List.filterMap_congr fun what _ => ?_
    simp [callOf, Floor.host?, touched.there]
  rw [Floor.calls, touched.log, List.reverse_append, List.reverse_reverse, List.filterMap_append,
    same, new, Floor.calls]

theorem calls_add (traced : f.Traced) (job : Job) : (f.add job).calls = f.calls := by
  have added : (f.add job).deliveries =
      f.deliveries ++ [{ job := job, ticket := f.tickets }] := rfl
  have log : (f.add job).log = f.log := rfl
  rw [calls, calls, log]
  refine List.filterMap_congr fun e mem => ?_
  cases there : f.deliveries[e.place]? with
  | some d =>
    have inside := (List.getElem?_eq_some_iff.1 there).1
    rw [callOf, callOf, host?, host?, added, List.getElem?_append_left inside]
  | none =>
    -- nothing is told of a place without a delivery
    have quiet : e.what.deed? = none := by
      have nothing := traced.nowhere there
      rw [trace, List.filterMap_eq_nil_iff] at nothing
      simpa using nothing e (List.mem_filter.2 ⟨mem, by simp⟩)
    simp [callOf, Happening.call?, quiet]

/-- No delivery to a host has crashed for want of a time that can be expressed. -/
def Timely (f : Floor) (key : String) : Prop :=
  ∀ d ∈ f.deliveries, d.job.host = key → d.stage ≠ .over (.crashed .time)

theorem timely_of_move {m : Move} (timely : (f.move m).Timely key) : f.Timely key := by
  intro d mem host finished
  obtain ⟨place, there⟩ := List.mem_iff_getElem?.1 mem
  rcases at_move m there with ⟨still, -⟩ | ⟨time, p, -, touched⟩
  · exact timely d (List.mem_of_getElem? still) host finished
  · exact timely p.delivery (List.mem_of_getElem? touched.here)
      (by rw [touched.accessed.job, host]) (Delivery.over_of_accessed touched.accessed finished)

/-- A move does to the breaker of a host what its calls on this host do. -/
theorem calls_move (traced : f.Traced) (m : Move) (timely : (f.move m).Timely key) :
    ∃ more after, (f.move m).calls = f.calls ++ more ∧
      f.registry.calls (more.filter (·.host == key)) = .ok after ∧
      Registry.Agrees key (f.move m).registry after := by
  cases m with
  | add job =>
    exact ⟨[], f.registry, by rw [List.append_nil]; exact calls_add traced job, rfl, .refl key _⟩
  | pass time => exact ⟨[], f.registry, by rw [List.append_nil]; rfl, rfl, .refl key _⟩
  | touch time place =>
    cases there : f.deliveries[place]? with
    | none =>
      rw [move, touch_of_none there]
      exact ⟨[], f.registry, by rw [List.append_nil]; rfl, rfl, .refl key _⟩
    | some d =>
      obtain ⟨p, touched⟩ := touched time there
      refine ⟨p.seen.filterMap (Happening.call? d.job.host (max f.now time)), ?_⟩
      have hosts : ∀ c ∈ p.seen.filterMap (Happening.call? d.job.host (max f.now time)),
          c.host = d.job.host := by
        intro c mem
        obtain ⟨what, -, called⟩ := List.mem_filterMap.1 mem
        exact Happening.host_of_call? called
      rw [move, touched.registry]
      by_cases own : d.job.host = key
      · subst own
        have sound := timely p.delivery (List.mem_of_getElem? touched.here)
          (by rw [touched.accessed.job])
        obtain ⟨after, called, agrees⟩ := Delivery.calls_of_accessed_eq touched.accessed sound
        refine ⟨after, touched.calls, ?_, agrees⟩
        rw [List.filter_eq_self.2 fun c mem => by simp [hosts c mem], called]
      · refine ⟨f.registry, touched.calls, ?_,
          (Registry.agrees_setHost_other _ (Ne.symm own) _).symm⟩
        rw [List.filter_eq_nil_iff.2 fun c mem => by simp [hosts c mem, own], Registry.calls_nil]

theorem calls_moves (traced : f.Traced) (quiet : f.calls = []) {ms : List Move}
    (timely : (f.moves ms).Timely key) :
    ∃ after, f.registry.calls ((f.moves ms).calls.filter (·.host == key)) = .ok after ∧
      Registry.Agrees key (f.moves ms).registry after := by
  induction ms using List.reverseRecOn with
  | nil => exact ⟨f.registry, by simp [moves, quiet], .refl key _⟩
  | append_singleton ms m ih =>
    have last : f.moves (ms ++ [m]) = (f.moves ms).move m := by simp [moves]
    rw [last] at timely ⊢
    obtain ⟨before, called, agrees⟩ := ih (timely_of_move timely)
    obtain ⟨more, next, calls, made, same⟩ := calls_move (traced.moves ms) m timely
    obtain ⟨after, others, all⟩ := Registry.calls_filter agrees made
    rw [List.filter_filter] at others
    simp only [Bool.and_self] at others
    rw [calls, List.filter_append]
    exact ⟨after, Registry.calls_append called others, same.trans all⟩

theorem callsAt_of_reported (traced : f.Traced) (there : f.deliveries[place]? = some d)
    (own : ∀ i, ∀ deed ∈ (d.job.operation i).deeds, deed.isOwn = true) {report : DeliveryReport}
    (finished : d.stage = .over (.reported report)) :
    ((report = .rejected d.job.host ∧ f.trace place = []) ∨
      ((∀ a ∈ report.attempts, a.outcome ≠ .circuitRejected) ∧
        (f.ends place).map Prod.snd = report.attempts)) ∧
    f.callsAt place = report.calls ((f.ends place).map Prod.fst) := by
  have host : f.host? place = some d.job.host := by rw [host?, there, Option.map_some]
  rw [callsAt_eq host]
  rcases (traced.here there).of_reported finished with ⟨rejected, nothing⟩ | ⟨reports, deeds⟩
  · have nothing : f.trace place = [] := by simpa using nothing
    exact ⟨.inl ⟨rejected, nothing⟩, by simp [ends, nothing, DeliveryReport.calls]⟩
  · obtain ⟨last, -, made⟩ := Job.run_of_reported reports
    have attempts : (f.ends place).map Prod.snd = report.attempts := by
      rw [made, Step.attempts_eq_deeds, ← deeds, ends, List.map_filterMap, List.filterMap_map]
      exact List.filterMap_congr fun e _ => by simp [Option.map_map, Function.comp_def]
    have asks : ∀ e ∈ f.trace place, e.2.call? d.job.host e.1 =
        (e.2.attempt?.map (Prod.mk e.1)).bind
          fun a => (report.ask? a.2).map (Call.mk report.host a.1) := by
      intro e mem
      have done : e.2 ∈ Step.deeds d.job.run.steps := deeds ▸ List.mem_map_of_mem mem
      have host : report.host = d.job.host := by rw [made]
      rcases e with ⟨time, deed⟩
      cases deed with
      | ended attempt result =>
        simp [Deed.call?, Deed.attempt?, (Job.ask?_of_ended own reports done).1, host]
      | _ => rfl
    refine ⟨.inr ⟨fun a mem => ?_, attempts⟩, ?_⟩
    · rw [← attempts, ends, List.map_filterMap] at mem
      obtain ⟨⟨time, deed⟩, told, is⟩ := List.mem_filterMap.1 mem
      have done : deed ∈ Step.deeds d.job.run.steps := deeds ▸ List.mem_map_of_mem told
      cases deed with
      | ended attempt result =>
        obtain rfl : attempt = a := by simpa [Deed.attempt?] using is
        exact (Job.ask?_of_ended own reports done).2
      | _ => simp [Deed.attempt?] at is
    · rw [DeliveryReport.calls, ← attempts, List.zip_map', List.filterMap_map, ends,
        List.filterMap_filterMap]
      exact List.filterMap_congr asks

/-- Whatever deliveries do side by side, the breaker of a host is that of the calls of all attempts on this
host in their order. A delivery that is over with a report has made just the calls of its report, each at
the end of its attempt, and none if it was rejected; alone on its host it leaves the breaker that they lead
to. An access leaves all other hosts as they are, and a turn is some accesses in a row. -/
theorem breakers_of_reports (r : Registry) (fairness : Fairness) (now : Nat) (ms : List Move) :
    let f := moves { registry := r, fairness := fairness, now := now } ms
    (∀ place d report, f.deliveries[place]? = some d →
      (∀ i, ∀ deed ∈ (d.job.operation i).deeds, deed.isOwn = true) →
      d.stage = .over (.reported report) →
      let times := (f.ends place).map Prod.fst
      ((report = .rejected d.job.host ∧ f.trace place = []) ∨
        ((∀ a ∈ report.attempts, a.outcome ≠ .circuitRejected) ∧
          (f.ends place).map Prod.snd = report.attempts)) ∧
      f.callsAt place = report.calls times ∧
      ((∀ other, other ≠ place → f.host? other ≠ some d.job.host) →
        ∃ after, r.calls (report.calls times) = .ok after ∧
          (f.registry.host d.job.host).breaker = (after.host d.job.host).breaker)) ∧
    (∀ key, f.Timely key →
      ∃ after, r.calls (f.calls.filter (·.host == key)) = .ok after ∧
        (f.registry.host key).breaker = (after.host key).breaker) ∧
    (∀ (f : Floor) (time place : Nat) (key : String), f.host? place ≠ some key →
      (f.touch time place).registry.host key = f.registry.host key) ∧
    ∀ (f : Floor) (turn : Turn) (place : Nat),
      ∃ n, (f.take turn place).Matches (f.moves (List.replicate (n + 1) (.touch turn.due place))) := by
  intro f
  have traced : f.Traced := (traced_start r fairness now).moves ms
  have fold {key : String} (timely : f.Timely key) :
      ∃ after, r.calls (f.calls.filter (·.host == key)) = .ok after ∧
        (f.registry.host key).breaker = (after.host key).breaker := by
    obtain ⟨after, called, agrees⟩ := calls_moves (traced_start r fairness now) rfl timely
    exact ⟨after, called, agrees.breaker⟩
  refine ⟨fun place d report there own finished => ?_, fun key => fold, fun f time place key ne => ?_,
    matches_take⟩
  · obtain ⟨attempts, calls⟩ := callsAt_of_reported traced there own finished
    refine ⟨attempts, calls, fun alone => ?_⟩
    have host : f.host? place = some d.job.host := by rw [host?, there, Option.map_some]
    have timely : f.Timely d.job.host := by
      intro o mem same late
      obtain ⟨other, at_⟩ := List.mem_iff_getElem?.1 mem
      by_cases ours : other = place
      · rw [ours, there] at at_
        rw [← Option.some.inj at_, finished] at late
        cases late
      · exact alone other ours (by rw [host?, at_, Option.map_some, same])
    have made := fold timely
    rw [calls_eq_callsAt host alone, calls] at made
    exact made
  · cases there : f.deliveries[place]? with
    | none => rw [touch_of_none there]
    | some d =>
      obtain ⟨p, touched⟩ := touched time there
      have other : key ≠ d.job.host := by
        rintro rfl
        exact ne (by rw [host?, there, Option.map_some])
      rw [touched.registry, Registry.host_setHost_other _ other]

/-- An attempt that fails and one that succeeds after it, on a breaker that opens at the first failure. -/
theorem breakers_of_two_attempts :
    let reset : Failure := .http (.stated "reset")
    let job : Job := { host := "a", needsSlot := false, timeout := 1000, delays := [5],
                       operation := fun i => .done (if i = 1 then .error reset else .ok ()) }
    let ms : List Move :=
      .add job :: List.replicate 5 (.touch 0 0) ++ List.replicate 4 (.touch 5 0)
    let f := moves { registry := ⟨1, ⟨1, 60000⟩, {}⟩, fairness := .byArrival, now := 0 } ms
    ∃ report : DeliveryReport, (f.deliveries[0]?).bind Delivery.ending? = some (.reported report) ∧
      report.attempts = [⟨1, 0, .transientFailure "http request failed: reset"⟩, ⟨2, 0, .success⟩] ∧
      report.calls [0, 5] = [⟨"a", 0, .failure⟩, ⟨"a", 5, .success⟩] := by
  intro reset job ms f
  have kind : (f.deliveries[0]?).any (fun d => d.report?.isSome) = true := by decide
  have times : (f.ends 0).map Prod.fst = [0, 5] := by decide
  have attempts : (f.ends 0).map Prod.snd =
      [⟨1, 0, .transientFailure "http request failed: reset"⟩, ⟨2, 0, .success⟩] := by decide
  have called : f.callsAt 0 = [⟨"a", 0, .failure⟩, ⟨"a", 5, .success⟩] := by decide
  obtain ⟨d, there, kind⟩ := (Option.any_eq_true _ _).1 kind
  obtain ⟨report, made⟩ := Option.isSome_iff_exists.1 kind
  have finished := Delivery.stage_of_report? made
  have own : ∀ i, ∀ deed ∈ (d.job.operation i).deeds, deed.isOwn = true := by
    have added := add_mem_of_moves rfl (List.mem_of_getElem? there)
    have same : d.job = job := by simpa [ms] using added
    intro i deed mem
    simp [same, job, Course.deeds] at mem
  obtain ⟨reported, calls, -⟩ :=
    (breakers_of_reports ⟨1, ⟨1, 60000⟩, {}⟩ .byArrival 0 ms).1 0 d report there own finished
  have ran : (f.ends 0).map Prod.snd = report.attempts := by
    rcases reported with ⟨-, nothing⟩ | ⟨-, ran⟩
    · have none_ : f.ends 0 = [] := by rw [ends, nothing, List.filterMap_nil]
      simp [none_] at times
    · exact ran
  have calls : f.callsAt 0 = report.calls ((f.ends 0).map Prod.fst) := calls
  rw [times, called] at calls
  exact ⟨report, by simp [there, Delivery.ending?, finished], ran.symm.trans attempts, calls.symm⟩

end Floor

end Herald
