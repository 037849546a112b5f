import Herald.Event
import Herald.Order.Summary

/-! The text of a notification: the summary of an order, else the snippet of the memo, else the start of
its content. -/
namespace Herald.Event

open Herald

def shownLength : Nat := 64

def truncateText (limit : Nat) (s : List Char) : List Char :=
  if limit < s.length then s.take limit ++ "...".toList else s

def truncate (limit : Nat) (s : String) : String := String.ofList (truncateText limit s.toList)

def body (e : Event) : Except Order.Overflow String :=
  match Order.summarize? .compact e.memo.content with
  | some summary => summary
  | none =>
    .ok (if e.memo.snippet = "" then truncate shownLength e.memo.content else e.memo.snippet)

def groupText (e : Event) : Except Order.Overflow String :=
  e.body.map fun text => "**" ++ e.activity.title ++ "**\n" ++ text

end Herald.Event
