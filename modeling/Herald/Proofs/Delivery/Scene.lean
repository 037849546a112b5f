import Herald.Proofs.Delivery.Tally
import Herald.Service

/-! Attempts that each meet a scene of their own: the guard and the peer answer differently from attempt to
attempt, and take any time over it. Time changes neither the deeds of an attempt nor its result; it only
decides where a limit cuts it. -/
namespace Herald

inductive Beat
  | pause (ms : Nat)
  | turn

def Course.later : List Beat → Course → Course
  | [], course => course
  | .pause ms :: beats, course => .pause ms (later beats course)
  | .turn :: beats, course => .turn (later beats course)

/-- A world, and what passes before its guard and its peer have answered. -/
structure Scene where
  world : Http.World
  judging : Url → List Beat
  connecting : List Http.Request → Http.Request → List Beat
  answering : List Http.Request → Http.Request → List Beat

/-- The guard takes the time of its review; what is looked up and answered comes in a later turn. -/
def Scene.usual (world : Http.World) : Scene where
  world := world
  judging u := [.pause (world.guard u).wait]
  connecting sent request := if (world.lookUp sent request).isSome then [.turn] else []
  answering sent request := if (world.peer sent request).isSome then [.turn] else []

namespace Http.Talk

def paced (scene : Scene) : Talk → List Request → Course
  | .done result, _ => .done result
  | .crashed crash, _ => .crashed crash
  | .pause ms next, sent => .pause ms (next.paced scene sent)
  | .check u next, sent =>
    .act (.asked u) (.later (scene.judging u)
      (.act .answered ((next (scene.world.guard u).verdict).paced scene sent)))
  | .connect request next, sent =>
    .later (scene.connecting sent request)
      ((next (scene.world.lookUp sent request)).paced scene sent)
  | .send request next, sent =>
    .act (.sent request) (.later (scene.answering sent request)
      ((next (scene.world.peer sent request)).paced scene (request :: sent)))

end Http.Talk

@[simp] theorem Course.deeds_later (beats : List Beat) (course : Course) :
    (later beats course).deeds = course.deeds := by
  induction beats with
  | nil => rfl
  | cons beat beats ih => cases beat <;> exact ih

@[simp] theorem Course.result_later (beats : List Beat) (course : Course) :
    (later beats course).result = course.result := by
  induction beats with
  | nil => rfl
  | cons beat beats ih => cases beat <;> exact ih

namespace Http.Talk

variable (scene : Scene) (world : World) (talk : Talk) (sent : List Request)

theorem paced_usual : talk.paced (.usual world) sent = talk.course world sent := by
  have turns (something : Bool) (next : Course) :
      Course.later (if something then [.turn] else []) next = .turnIf something next := by
    cases something <;> rfl
  induction talk generalizing sent with
  | done => rfl
  | crashed => rfl
  | pause ms next ih => rw [paced, course, ih]
  | check u next ih => simp only [paced, course, Scene.usual, Course.later, ← ih]
  | connect request next ih => simp only [paced, course, Scene.usual, turns, ← ih]
  | send request next ih => simp only [paced, course, Scene.usual, turns, ← ih]

theorem deeds_paced : (talk.paced scene sent).deeds = (talk.course scene.world sent).deeds := by
  induction talk generalizing sent with
  | done => rfl
  | crashed => rfl
  | pause ms next ih => exact ih sent
  | check u next ih => simp only [paced, course, Course.deeds, Course.deeds_later, ih]
  | connect request next ih => simp only [paced, course, Course.deeds_later, Course.deeds_turnIf, ih]
  | send request next ih =>
    simp only [paced, course, Course.deeds, Course.deeds_later, Course.deeds_turnIf, ih]

theorem result_paced : (talk.paced scene sent).result = (talk.course scene.world sent).result := by
  induction talk generalizing sent with
  | done => rfl
  | crashed => rfl
  | pause ms next ih => exact ih sent
  | check u next ih => simp only [paced, course, Course.result, Course.result_later, ih]
  | connect request next ih => simp only [paced, course, Course.result_later, Course.result_turnIf, ih]
  | send request next ih =>
    simp only [paced, course, Course.result, Course.result_later, Course.result_turnIf, ih]

theorem isOwn_of_mem_paced : ∀ deed ∈ (talk.paced scene sent).deeds, deed.isOwn = true := by
  rw [deeds_paced]
  exact isOwn_of_mem_course

end Http.Talk

theorem Sender.send_of_prepare_error {s : Sender} {channel : Channel} {target : String} {event : Event}
    {failure : Failure} (refused : s.prepare channel target event = .error failure) :
    s.send channel target event = .done (.error failure) := by
  cases channel with
  | raw =>
    simp only [prepare] at refused
    simp only [send, Raw.deliver]
    split at refused
    · cases refused
    · next unpayable =>
      obtain rfl := Except.error.inj refused
      rw [unpayable]
  | weCom => cases refused
  | bark => cases refused

namespace Service

def jobIn (s : Service) (scenes : Nat → Scene) (destination : Destination) (event : Event) : Job :=
  { s.job destination event with
    operation := fun i =>
      (s.sender.send destination.channel destination.target event).paced (scenes i) [] }

theorem jobIn_usual (s : Service) (destination : Destination) (event : Event) :
    s.jobIn (fun _ => .usual s.world) destination event = s.job destination event := by
  simp only [jobIn, job, Http.Talk.paced_usual]
  cases prepared : s.sender.prepare destination.channel destination.target event with
  | ok talk => simp only [Sender.send_eq_of_prepare prepared]
  | error failure =>
    rw [Sender.send_of_prepare_error prepared]
    rfl

end Service

end Herald
