import Herald.Service
import Herald.Proofs.Delivery.Run
import Herald.Proofs.Http.Traffic

/-! Where deliveries can reach. With the guard and the guarded client every request of an attempt goes to
a safe address: the first one, every redirect, the posted push and the request that replaces it. So it is
for a single attempt and for all attempts of a delivery. -/
namespace Herald

open Herald.Http Herald.Text

theorem isSafe_of_review {lookUp : List Char → Guard.Answer} {u : Url} (settled : u.IsSettled)
    (passed : (Guard.review lookUp u).verdict = .ok ()) : u.IsSafe := by
  obtain ⟨answer, passed⟩ :
      ∃ answer, (Guard.check u answer).mapError Failure.validation = .ok () := ⟨_, passed⟩
  cases checked : Guard.check u answer with
  | error objection =>
    rw [checked] at passed
    cases passed
  | ok _ => exact Guard.isSafe_of_check settled checked

theorem sendsOnly_check {lookUp : List Char → Guard.Answer} {target : String} {u : Url}
    {next : Except Failure Unit → Talk} (named : Guard.target? target = .ok u)
    (refused : ∀ failure, next (.error failure) = .done (.error failure))
    (passed : u.IsSafe → (next (.ok ())).SendsOnly (Guard.review lookUp) Request.IsSafe) :
    (Talk.check u next).SendsOnly (Guard.review lookUp) Request.IsSafe := by
  simp only [Talk.SendsOnly]
  cases verdict : (Guard.review lookUp u).verdict with
  | error failure =>
    rw [refused]
    trivial
  | ok _ => exact passed (isSafe_of_review (Guard.isSettled_of_target? named) verdict)

variable {library : Library}

theorem Raw.sendsOnly_post (lookUp : List Char → Guard.Answer) (payload : Payload) :
    (Raw.post (.guarded library) payload).SendsOnly (Guard.review lookUp) Request.IsSafe := by
  unfold Raw.post
  split
  · trivial
  · next u named =>
    refine sendsOnly_check named (fun _ => rfl) fun safe => ?_
    exact Client.sendsOnly_send (Request.isSafe_to safe ..) fun _ => trivial

theorem WeCom.sendsOnly_deliver (lookUp : List Char → Guard.Answer) (target : String)
    (event : Event) :
    (WeCom.deliver (.guarded library) target event).SendsOnly (Guard.review lookUp) Request.IsSafe := by
  unfold WeCom.deliver
  split
  · trivial
  · next u named =>
    refine sendsOnly_check named (fun _ => rfl) fun safe => ?_
    dsimp only
    split
    · trivial
    · exact Client.sendsOnly_send (Request.isSafe_to safe ..) fun _ => trivial

namespace Bark

theorem isSafe_pushUrl {u : Url} (safe : u.IsSafe) : (pushUrl u).IsSafe := safe.congr rfl rfl

theorem isSafe_pathUrl {u : Url} (safe : u.IsSafe) (title body : List Char) :
    (pathUrl u title body).IsSafe := by
  have push {u : Url} (safe : u.IsSafe) (segment : List Char) : (u.pushSegment segment).IsSafe := by
    unfold Url.pushSegment
    split
    · exact safe
    · exact safe.congr rfl rfl
  have pop : u.popEmptySegment.IsSafe := by
    unfold Url.popEmptySegment
    split
    · exact safe.congr rfl rfl
    · exact safe
  exact push (push pop title) body

theorem sendsOnly_pushPath {guard : Url → Review} {u : Url} (safe : u.IsSafe)
    (title body : List Char) :
    (pushPath (.guarded library) u title body).SendsOnly guard Request.IsSafe := by
  unfold pushPath
  split
  · trivial
  · exact Client.sendsOnly_send (Request.isSafe_to (isSafe_pathUrl safe title body) ..)
      fun _ => trivial

theorem sendsOnly_push {guard : Url → Review} {u : Url} (safe : u.IsSafe) (forceGet : Bool)
    (title body : List Char) :
    (push (.guarded library) forceGet u title body).SendsOnly guard Request.IsSafe := by
  unfold push
  split
  · exact sendsOnly_pushPath safe title body
  · refine Client.sendsOnly_send (Request.isSafe_to (isSafe_pushUrl safe) ..) fun answer => ?_
    split
    · trivial
    · exact sendsOnly_pushPath safe title body

theorem sendsOnly_deliver (lookUp : List Char → Guard.Answer) (forceGet : Bool)
    (target : String) (event : Event) :
    (deliver (.guarded library) forceGet target event).SendsOnly (Guard.review lookUp) Request.IsSafe := by
  unfold deliver
  split
  · trivial
  · next u named =>
    refine sendsOnly_check named (fun _ => rfl) fun safe => ?_
    dsimp only
    split
    · trivial
    · exact sendsOnly_push safe ..

end Bark

theorem Sender.sendsOnly_send (lookUp : List Char → Guard.Answer) {s : Sender}
    (guarded : s.client = .guarded library) (channel : Channel) (target : String) (event : Event) :
    (s.send channel target event).SendsOnly (Guard.review lookUp) Request.IsSafe := by
  cases channel with
  | raw =>
    simp only [send, Raw.deliver, guarded]
    split
    · trivial
    · exact Raw.sendsOnly_post lookUp _
  | weCom => simpa only [send, guarded] using WeCom.sendsOnly_deliver lookUp target event
  | bark => simpa only [send, guarded] using Bark.sendsOnly_deliver lookUp _ target event

theorem Http.Talk.SendsOnly.course {world : World} {P : Request → Prop} {talk : Talk}
    (only : talk.SendsOnly world.guard P) (sent : List Request) :
    ∀ r, Deed.sent r ∈ (talk.course world sent).deeds → P r := by
  intro r mem
  induction talk generalizing sent with
  | done => cases mem
  | crashed => cases mem
  | pause _ _ ih => exact ih only sent mem
  | check u next ih =>
    have mem : Deed.sent r ∈ ((next (world.guard u).verdict).course world sent).deeds := by
      simpa [Talk.course, Course.deeds] using mem
    exact ih _ only sent mem
  | connect request next ih =>
    have mem : Deed.sent r ∈ ((next (world.lookUp sent request)).course world sent).deeds := by
      simpa only [Talk.course, Course.deeds_turnIf] using mem
    exact ih _ (only _) sent mem
  | send request next ih =>
    obtain ⟨here, later⟩ := only
    have mem : r = request ∨
        Deed.sent r ∈ ((next (world.peer sent request)).course world (request :: sent)).deeds := by
      simpa [Talk.course, Course.deeds] using mem
    rcases mem with rfl | mem
    · exact here
    · exact ih _ (later _) _ mem

namespace Service

/-- A service with the usual protections in any world of names and answers, on any library. -/
def guarded (config : Config) (converter : Converter) (library : Library) (lookUp : List Char → Guard.Answer)
    (peer : List Request → Request → Option Response) (found : List Request → Request → Option Guard.Answer)
    (draws : Nat → Nat) (tick : Nat) : Service :=
  { config := config, client := .guarded library, converter := converter,
    world := ⟨Guard.review lookUp, peer, found⟩, draws := draws, tick := tick }

/-- Every request of an attempt, and of all attempts of a delivery, goes over the web to a host that is
an allowed address or a name that spells none: whatever the target, the event, the names, the answers and
the redirects are. -/
theorem requests_isSafe (config : Config) (converter : Converter) (library : Library)
    (lookUp : List Char → Guard.Answer) (peer : List Request → Request → Option Response)
    (found : List Request → Request → Option Guard.Answer) (draws : Nat → Nat) (tick : Nat)
    (destination : Destination) (event : Event) :
    let s := guarded config converter library lookUp peer found draws tick
    (∀ r ∈ ((s.sender.send destination.channel destination.target event).converse
        s.world []).requests, r.url.IsSafe) ∧
      ∀ r, Deed.sent r ∈ Step.deeds (s.job destination event).run.steps → r.url.IsSafe := by
  intro s
  have only : (s.sender.send destination.channel destination.target event).SendsOnly
      s.world.guard Request.IsSafe := Sender.sendsOnly_send lookUp rfl ..
  refine ⟨only.converse (by simp), fun r mem => ?_⟩
  obtain ⟨_, mem⟩ := sent_of_attemptsFrom mem
  cases prepared : s.sender.prepare destination.channel destination.target event with
  | error failure => simp [job, prepared, Course.deeds] at mem
  | ok talk =>
    rw [Sender.send_eq_of_prepare prepared] at only
    simp only [job, prepared] at mem
    exact only.course [] r mem

end Service

end Herald
