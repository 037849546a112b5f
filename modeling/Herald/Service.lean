import Herald.Channel.Sender
import Herald.Config
import Herald.Delivery.Floor
import Herald.Notice
import Herald.Owner
import Herald.Store

/-! The service delivers an event to all hooks of its owner. Either the hooks are found in time and there
is one delivery for each of them, or there is none at all. -/
namespace Herald

open Herald.Text

def Guard.review (lookUp : List Char → Guard.Answer) (u : Url) : Http.Review :=
  let answer := match u.host with
    | some (.domain name) => lookUp name
    | _ => .ok []
  ⟨0, (Guard.check u answer).mapError .validation⟩

structure Lookup where
  wait : Nat := 0
  hooks : Except LookupFault (List Hook)

def Lookup.within (l : Lookup) (limit : Nat) : Lookup :=
  if limit < l.wait then ⟨limit, .error (.timedOut limit)⟩ else l

/-- A service in a world. The draws lengthen the delays before retries, and so does the clock: if it is
coarse, a delay ends with the tick after it, so that others go first even after no delay at all. -/
structure Service where
  config : Config := {}
  client : Http.Client := .guarded
  converter : Converter := Payload.ofEvent
  world : Http.World
  draws : Nat → Nat := fun _ => 0
  tick : Nat := 1

namespace Config

def deadlineMs (c : Config) : Nat := c.deadlineSecs * 1000

def cooldownMs (c : Config) : Nat := c.cooldownSecs * 1000

def policy (c : Config) : Policy := ⟨c.backoffMs⟩

def registry (c : Config) : Registry := ⟨c.slotsPerHost, ⟨c.failureThreshold, c.cooldownMs⟩, {}⟩

end Config

namespace Service

def sender (s : Service) : Sender := ⟨s.client, s.converter, s.config.forceGet⟩

def ready (s : Service) : Notice := .ready s.config.slotsPerHost s.config.forceGet

def delays (s : Service) : List Nat := (s.config.policy.plan s.draws).map (· + s.tick)

def job (s : Service) (destination : Destination) (event : Event) : Job :=
  let prepared := s.sender.prepare destination.channel destination.target event
  { host := destination.hostKey
    refusal := match prepared with
      | .ok _ => none
      | .error failure => some failure
    timeout := s.config.deadlineMs
    delays := s.delays
    operation := fun _ =>
      match prepared with
      | .ok talk => talk.course s.world []
      | .error failure => .done (.error failure) }

def hookJob (s : Service) (event : Event) (hook : Hook) : Job :=
  let destination := Locator.classify hook.url
  { s.job destination event with receiver := some destination }

/-- What a dispatch does at once: its deliveries begin in the order of the hooks. -/
structure Dispatch where
  floor : Floor
  result : Except Failure Nat
  notices : List Notice := []

def dispatch (s : Service) (lookup : Int → Lookup) (event : Event) (f : Floor) : Dispatch :=
  match Owner.parse event.memo.creator with
  | .error fault => ⟨f, .error (.invalidOwner fault), []⟩
  | .ok owner =>
    let found := (lookup owner).within s.config.fetchTimeoutMs
    let f := f.passUntil (f.now + found.wait)
    match found.hooks with
    | .error fault => ⟨f, .error (.configuration fault), []⟩
    | .ok [] => ⟨f, .ok 0, [.noHooks owner event.activity]⟩
    | .ok hooks => ⟨f.addAll (hooks.map (s.hookJob event)), .ok hooks.length, []⟩

def defaultTest : String := "Webhook test from Memos"

def testEvent (content : String) : Event :=
  ⟨.test, { creator := "users/0", content := if allBlank content then defaultTest else content }⟩

/-- A test delivers to a single locator and waits for the end. -/
def test (s : Service) (locator content : String) (f : Floor) : Floor × Option Ending :=
  let place := f.deliveries.length
  let f := (f.add (s.job (Locator.classify locator) (testEvent content))).playUntilOver place 1
  (f, (f.deliveries[place]?).bind Delivery.ending?)

end Service

/-- What a finished delivery announces about its receiver. A crashed one announces nothing. -/
def Ending.notice? (destination : Destination) : Ending → Option Notice
  | .refused failure => some (.skipped destination failure)
  | .reported report =>
    match report.result with
    | .ok () => some (.dispatched destination report.tries)
    | .error failure => some (.failed destination report.tries failure)
  | .crashed _ => none

namespace Floor

/-- An opened breaker is announced with the whole seconds of its cooldown. -/
def opened (f : Floor) (host : String) : Notice := .opened host (f.registry.rule.cooldown / 1000)

def notice? (f : Floor) (e : Entry) : Option Notice :=
  (f.deliveries[e.place]?).bind fun d =>
    match e.what with
    | .deed _ => none
    | .opened => some (f.opened d.job.host)
    | .over ending => d.job.receiver.bind fun destination => ending.notice? destination

def recordFailure (f : Floor) (host : String) : Floor × Breaker.Recorded :=
  let (registry, recorded) := f.registry.recordFailure host f.now
  ({ f with registry := registry }, recorded)

end Floor

end Herald
