import Herald.Delivery.Report
import Herald.Http.Talk

/-! What an attempt does in the course of time, once the answers of the world are known: deeds, waits and
a result. -/
namespace Herald

/-- Something a delivery does that others can notice. -/
inductive Deed
  | called
  | started
  | asked (u : Url)
  | answered
  | sent (request : Http.Request)
  | ended (attempt : Attempt) (result : Except Failure Unit)

/-- A `turn` lets others go first without time passing. -/
inductive Course
  | done (result : Except Failure Unit)
  | crashed (crash : Crash)
  | act (deed : Deed) (next : Course)
  | pause (ms : Nat) (next : Course)
  | turn (next : Course)

def Course.turnIf (something : Bool) (next : Course) : Course := if something then .turn next else next

/-- The course of a conversation in a world, given the requests before it. A guard is asked and answers
after its time. What is looked up and answered comes in a later turn; a network that fails fails at once. -/
def Http.Talk.course (world : Http.World) : Http.Talk → List Http.Request → Course
  | .done result, _ => .done result
  | .crashed crash, _ => .crashed crash
  | .pause ms next, sent => .pause ms (next.course world sent)
  | .check u next, sent =>
    let review := world.guard u
    .act (.asked u)
      (.pause review.wait (.act .answered ((next review.verdict).course world sent)))
  | .connect request next, sent =>
    let found := world.lookUp sent request
    .turnIf found.isSome ((next found).course world sent)
  | .send request next, sent =>
    let answer := world.peer sent request
    .act (.sent request) (.turnIf answer.isSome ((next answer).course world (request :: sent)))

def Course.result : Course → Except Crash (Except Failure Unit)
  | .done result => .ok result
  | .crashed crash => .error crash
  | .act _ next => next.result
  | .pause _ next => next.result
  | .turn next => next.result

def Course.duration : Course → Nat
  | .done _ => 0
  | .crashed _ => 0
  | .act _ next => next.duration
  | .pause ms next => ms + next.duration
  | .turn next => next.duration

@[simp] theorem Course.result_turnIf (something : Bool) (next : Course) :
    (turnIf something next).result = next.result := by
  cases something <;> rfl

theorem Http.Talk.result_course (world : Http.World) (talk : Http.Talk) (sent : List Http.Request) :
    (talk.course world sent).result = (talk.converse world sent).result := by
  induction talk generalizing sent with
  | done => rfl
  | crashed => rfl
  | pause _ _ ih => exact ih sent
  | check u _ ih => exact ih _ sent
  | connect request _ ih =>
    simp only [Talk.course, Course.result_turnIf]
    exact ih _ sent
  | send request _ ih =>
    simp only [Talk.course, Course.result, Course.result_turnIf]
    exact ih _ (request :: sent)

end Herald
