import Herald.Channel.Body
import Herald.Http.Snippet

/-! The channel of group messages. A receiver answers with success even if it refuses a message; then
its answer carries an error code. -/
namespace Herald.WeCom

open Herald.Http Herald.Text

structure Answer where
  code : Int := 0
  text : String := ""
  deriving DecidableEq, Repr

structure Draft where
  code : Option Int := none
  text : Option String := none

def shape : Json.Shape Draft where
  title := "Answer"
  fields := [
    .of "errcode" false (Json.signed "i64") Draft.code fun v d => { d with code := some v },
    .of "errmsg" false Json.text Draft.text fun v d => { d with text := some v }]
  blank := {}

def reader : Json.Reader Answer :=
  Json.Reader.map (Json.record shape) fun d => ⟨d.code.getD 0, d.text.getD ""⟩

/-- A malformed byte as JSON: it may stand in a string that is passed over, but in none that is kept. -/
def malformed : List Char := "\uFFFD\\uDC00".toList

def answerText (body : List UInt8) : List Char :=
  (Utf8.scan .between body).flatMap fun c => c.elim malformed ([·])

/-- The answer in a body; a body that holds none counts as success. -/
def answerOf (body : List UInt8) : Answer :=
  match Json.whole reader (answerText body) with
  | .ok answer => answer
  | .error _ => {}

def message (text : String) : List Char :=
  Json.writeObject [("msgtype", Json.writeString "markdown"),
    ("markdown", Json.writeObject [("content", Json.writeString text)])]

def judge (response : Response) : Except Failure Unit :=
  let answer := answerOf response.body.flatten
  if answer.code = 0 then .ok () else .error (.provider (.code answer.code answer.text))

def deliver (client : Client) (target : String) (event : Event) : Talk :=
  match Guard.target? target with
  | .error objection => .done (.error (.validation objection))
  | .ok u =>
    .check u fun verdict =>
      match verdict with
      | .error failure => .done (.error failure)
      | .ok () =>
        match event.groupText with
        | .error _ => .crashed .quantity
        | .ok text =>
          client.send (.to .post u "application/json" (message text)) fun answer =>
            .done (answer.bind fun response => (response.ensureSuccess .weCom).bind judge)

end Herald.WeCom
