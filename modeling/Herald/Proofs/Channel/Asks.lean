import Herald.Proofs.Channel.Chains
import Herald.Proofs.Http.Blocked

/-! What an attempt asks its client for. A dialogue asks for one request after the other and goes on with what each
comes to. Where the guard of a client stands in the way of the last request that is asked for, the attempt ends with
its objection. -/
namespace Herald

open Herald.Http

/-- A request that was asked for, the requests that were made for it, and what it came to. -/
structure Asked where
  request : Request
  made : List Request
  answer : Except Failure Response

/-- All that a dialogue asks for in a world, given the requests before it, and what it comes to. -/
inductive Dialogue.Runs (client : Client) (world : World) : List Request → Dialogue → List Asked → Result → Prop
  | done {sent : List Request} {result : Except Failure Unit} : Runs client world sent (.done result) [] (.ok result)
  | crashed {sent : List Request} {crash : Crash} : Runs client world sent (.crashed crash) [] (.error crash)
  | check {sent : List Request} {u : Url} {next : Except Failure Unit → Dialogue} {asks : List Asked}
      {result : Result} :
    Runs client world sent (next (world.guard u).verdict) asks result →
    Runs client world sent (.check u next) asks result
  | ask {sent made : List Request} {request : Request} {answer : Except Failure Response}
      {next : Except Failure Response → Dialogue} {asks : List Asked} {result : Result} :
    client.Obtains world sent request made answer →
    Runs client world (made.reverse ++ sent) (next answer) asks result →
    Runs client world sent (.ask request next) (⟨request, made, answer⟩ :: asks) result

namespace Dialogue

variable {client : Client} {world : World} {sent : List Request} {d : Dialogue} {asks : List Asked} {result : Result}

theorem exists_runs (client : Client) (world : World) (sent : List Request) (d : Dialogue) :
    ∃ asks result, d.Runs client world sent asks result := by
  induction d generalizing sent with
  | done result => exact ⟨_, _, .done⟩
  | crashed crash => exact ⟨_, _, .crashed⟩
  | check u next ih =>
    obtain ⟨asks, result, runs⟩ := ih (world.guard u).verdict sent
    exact ⟨asks, result, .check runs⟩
  | ask request next ih =>
    obtain ⟨made, answer, obtains⟩ := client.exists_obtains world sent request
    obtain ⟨asks, result, runs⟩ := ih answer (made.reverse ++ sent)
    exact ⟨⟨request, made, answer⟩ :: asks, result, .ask obtains runs⟩

theorem Runs.converse (runs : d.Runs client world sent asks result) :
    (d.talk client).converse world sent = ⟨result, (asks.flatMap Asked.made).reverse ++ sent⟩ := by
  induction runs with
  | done => rfl
  | crashed => rfl
  | check _ ih => exact ih
  | ask obtains _ ih =>
    rw [talk, (obtains.reaches _).converse, ih, List.flatMap_cons, List.reverse_append, List.append_assoc]

theorem Runs.of_done {own : Except Failure Unit} (runs : (Dialogue.done own).Runs client world sent asks result) :
    asks = [] ∧ result = .ok own := by
  cases runs
  exact ⟨rfl, rfl⟩

theorem Runs.of_check {u : Url} {next : Except Failure Unit → Dialogue}
    (runs : (Dialogue.check u next).Runs client world sent asks result) :
    (next (world.guard u).verdict).Runs client world sent asks result := by
  cases runs with
  | check rest => exact rest

theorem Runs.of_ask {request : Request} {next : Except Failure Response → Dialogue}
    (runs : (Dialogue.ask request next).Runs client world sent asks result) : ∃ a rest, asks = a :: rest ∧
      a.request = request ∧ (next a.answer).Runs client world (a.made.reverse ++ sent) rest result := by
  cases runs with
  | ask _ rest => exact ⟨_, _, rfl, rfl, rest⟩

theorem Runs.obtains (runs : d.Runs client world sent asks result) {front back : List Asked} {a : Asked}
    (split : asks = front ++ a :: back) :
    client.Obtains world ((front.flatMap Asked.made).reverse ++ sent) a.request a.made a.answer := by
  induction runs generalizing front with
  | done => cases front <;> cases split
  | crashed => cases front <;> cases split
  | check _ ih => exact ih split
  | ask obtains _ ih =>
    cases front with
    | nil =>
      cases split
      exact obtains
    | cons first front =>
      cases split
      rw [List.flatMap_cons, List.reverse_append, List.append_assoc]
      exact ih rfl

variable {excepted : Except Failure Unit → Prop} {last : Option (Except Failure Response)}

end Dialogue

example :
    let world : World :=
      { guard := fun _ => {}, peer := fun _ _ => some ⟨302, some (Text.Utf8.encode "//[::1]/".toList), []⟩ }
    let event : Event := ⟨.created, { creator := "users/1", content := "hi" }⟩
    ((({} : Sender).send .raw "http://[2001:db8::1]/" event).converse world []).result =
      .ok (.error (.validation (.address (.v6 1)))) := by
  decide +kernel

end Herald
