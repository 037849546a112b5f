import Herald.Json.Record
import Herald.Json.Writer

/-! A receiver that a user has set up: its id, a title and its locator. -/
namespace Herald

structure Hook where
  id : String
  title : String := ""
  url : String
  deriving DecidableEq, Repr

namespace Hook

structure Draft where
  id : Option String := none
  title : Option String := none
  url : Option String := none

def Draft.hook (d : Draft) : Hook := ⟨d.id.getD "", d.title.getD "", d.url.getD ""⟩

def shape : Json.Shape Draft where
  title := "WebhookConfig"
  fields := [
    .of "id" true Json.text Draft.id fun v d => { d with id := some v },
    .of "title" false Json.text Draft.title fun v d => { d with title := some v },
    .of "url" true Json.text Draft.url fun v d => { d with url := some v }]
  blank := {}

def reader : Json.Reader Hook := Json.Reader.map (Json.record shape) Draft.hook

def json (h : Hook) : List Char :=
  Json.writeObject [("id", Json.writeString h.id), ("title", Json.writeString h.title),
    ("url", Json.writeString h.url)]

end Hook

end Herald
