import Herald.Crash
import Herald.Guard
import Herald.Http.Message

/-! One attempt as a conversation: what it asks of the world, step by step, and how it goes on after each
answer. The world is a guard, which judges addresses, and a peer, which answers requests; and it looks up the
names that connections are made to. -/
namespace Herald.Http

inductive Talk
  | done (result : Except Failure Unit)
  | crashed (crash : Crash)
  | pause (ms : Nat) (next : Talk)
  | check (u : Url) (next : Except Failure Unit → Talk)
  | connect (request : Request) (next : Option Guard.Answer → Talk)
  | send (request : Request) (next : Option Response → Talk)

structure Review where
  wait : Nat := 0
  verdict : Except Failure Unit := .ok ()

structure World where
  guard : Url → Review
  /-- The answer to a request, given the requests before it; none is a failure of the network. -/
  peer : List Request → Request → Option Response
  /-- What looking up the host of a request gives, given the requests before it; none if there is a connection
  already. -/
  lookUp : List Request → Request → Option Guard.Answer := fun _ _ => none

/-- How a conversation ended and the requests that were sent, the last one first. -/
structure Ending where
  result : Except Crash (Except Failure Unit)
  requests : List Request

def Talk.converse (world : World) : Talk → List Request → Ending
  | .done result, sent => ⟨.ok result, sent⟩
  | .crashed crash, sent => ⟨.error crash, sent⟩
  | .pause _ next, sent => next.converse world sent
  | .check u next, sent => (next (world.guard u).verdict).converse world sent
  | .connect request next, sent => (next (world.lookUp sent request)).converse world sent
  | .send request next, sent =>
    (next (world.peer sent request)).converse world (request :: sent)

end Herald.Http
