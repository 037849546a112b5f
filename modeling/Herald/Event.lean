import Herald.Calendar.Timestamp
import Herald.Json.Record
import Herald.Json.Writer

/-! Events: something happened to a memo. Activities have names; a name that is not known is an
activity of its own and passes through unchanged. -/
namespace Herald

open Herald.Text Herald.Calendar

inductive Activity
  | created
  | updated
  | deleted
  | test
  | other (name : String)
  deriving DecidableEq, Repr

namespace Activity

def name : Activity → String
  | created => "memos.memo.created"
  | updated => "memos.memo.updated"
  | deleted => "memos.memo.deleted"
  | test => "memos.webhook.test"
  | other name => name

def title : Activity → String
  | created => "Memo Created"
  | updated => "Memo Updated"
  | deleted => "Memo Deleted"
  | test => "Webhook Test"
  | other name => name

/-- The activity of a name; the case of ASCII letters does not count in the known ones. -/
def parse (name : String) : Activity :=
  let known := lower name.toList
  if known = created.name.toList then created
  else if known = updated.name.toList then updated
  else if known = deleted.name.toList then deleted
  else if known = test.name.toList then test
  else other name

def reader : Json.Reader Activity :=
  Json.textWith "a string" fun s => .ok (parse (String.ofList s))

def json (a : Activity) : List Char := Json.writeString a.name

end Activity

structure Memo where
  name : String := ""
  creator : String
  content : String := ""
  snippet : String := ""
  displayTime : Option Timestamp := none
  deriving DecidableEq, Repr

namespace Memo

structure Draft where
  name : Option String := none
  creator : Option String := none
  content : Option String := none
  snippet : Option String := none
  displayTime : Option (Option Timestamp) := none

def Draft.memo (d : Draft) : Memo :=
  ⟨d.name.getD "", d.creator.getD "", d.content.getD "", d.snippet.getD "", d.displayTime.getD none⟩

def timeReader : Json.Reader Timestamp :=
  Json.textWith "an RFC 3339 formatted date and time string" fun s =>
    match Timestamp.parse? s with
    | some t => .ok t
    | none => .error .time

def shape : Json.Shape Draft where
  title := "Memo"
  fields := [
    .of "name" false Json.text Draft.name fun v d => { d with name := some v },
    .of "creator" true Json.text Draft.creator fun v d => { d with creator := some v },
    .of "content" false Json.text Draft.content fun v d => { d with content := some v },
    .of "snippet" false Json.text Draft.snippet fun v d => { d with snippet := some v },
    .of "displayTime" false (Json.optional timeReader) Draft.displayTime
      fun v d => { d with displayTime := some v }]
  blank := {}

def reader : Json.Reader Memo := Json.Reader.map (Json.record shape) Draft.memo

def json (m : Memo) : List Char :=
  Json.writeObject ([("name", Json.writeString m.name), ("creator", Json.writeString m.creator),
    ("content", Json.writeString m.content), ("snippet", Json.writeString m.snippet)] ++
    (m.displayTime.map fun t => ("displayTime", Json.writeText t.text)).toList)

end Memo

structure Event where
  activity : Activity
  memo : Memo
  deriving DecidableEq, Repr

end Herald
