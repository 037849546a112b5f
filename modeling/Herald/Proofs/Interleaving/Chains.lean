import Herald.Proofs.Delivery.Chains
import Herald.Proofs.Delivery.Report
import Herald.Proofs.Interleaving.Calls

/-! No notification is sent again after a success. However a delivery is interleaved with others, what it has
sent at any time are chains of requests, attempt by attempt; none of them comes after a chain that its channel
accepted, and the delivery ends as a success if and only if the last one was accepted. -/
namespace Herald

open Herald.Http

theorem Http.Chain.StopAtSuccess.exists_iff {accepts : Response → Bool} {chains : List Chain}
    (stops : StopAtSuccess accepts chains) :
    (∃ c ∈ chains, c.Succeeds accepts) ↔
      ∃ last, chains.getLast? = some last ∧ last.Succeeds accepts := by
  constructor
  · rintro ⟨c, mem, success⟩
    obtain ⟨earlier, later, rfl⟩ := List.append_of_mem mem
    cases later using List.reverseRecOn with
    | nil => exact ⟨c, by simp, success⟩
    | append_singleton later last =>
      have order := (List.pairwise_append.1 stops).2.1
      exact absurd success ((List.pairwise_cons.1 order).1 last (by simp))
  · rintro ⟨last, ends, success⟩
    exact ⟨last, List.mem_of_getLast? ends, success⟩

theorem length_flatten_le {calls : List (List Chain)} {methods : List Method}
    (order : ∀ call ∈ calls, (call.map (·.first.method)).Sublist methods) :
    calls.flatten.length ≤ calls.length * methods.length := by
  induction calls with
  | nil => exact Nat.zero_le _
  | cons call calls ih =>
    obtain ⟨here, others⟩ := List.forall_mem_cons.1 order
    have few := here.length_le
    have rest := ih others
    rw [List.length_map] at few
    rw [List.flatten_cons, List.length_append, List.length_cons, Nat.succ_mul]
    omega

namespace Delivery

def Succeeded (d : Delivery) : Prop :=
  ∃ report : DeliveryReport, d.stage = .over (.reported report) ∧ report.result = .ok ()

variable {d : Delivery} {hasPools : Bool} {deeds : List Deed}

theorem Traced.front (traced : d.Traced hasPools deeds) : deeds <+: Step.deeds d.job.run.steps := by
  cases traced with
  | waits => exact List.nil_prefix
  | barred => exact List.nil_prefix
  | rejected => exact List.nil_prefix
  | runs _ split => rw [split, Step.deeds_append]; exact List.prefix_append _ _
  | ended => exact List.prefix_rfl
  | crashed _ split => rw [split, Step.deeds_append]; exact List.prefix_append _ _

theorem Traced.succeeded_iff (traced : d.Traced hasPools deeds)
    (own : ∀ i, ∀ deed ∈ (d.job.operation i).deeds, deed.isOwn = true) :
    d.Succeeded ↔ d.isOver = true ∧ ∃ a, .ended a (.ok ()) ∈ deeds := by
  have orderly := orderly_of_attemptsFrom own d.job.limits d.job.delays 1 0
  constructor
  · rintro ⟨report, finished, success⟩
    refine ⟨by simp [isOver, ending?, finished], ?_⟩
    rcases traced.of_reported finished with ⟨rfl, -⟩ | ⟨reports, rfl⟩
    · cases success
    · obtain ⟨last, ended, rfl⟩ := Job.run_of_reported reports
      obtain rfl : last = .ok () := success
      exact orderly.success ended
  · rintro ⟨done, a, mem⟩
    have final {before after : List Deed} (split : Step.deeds d.job.run.steps =
        before ++ .ended a (.ok ()) :: after) : after = [] ∧ d.job.run.result = .ok (.ok ()) :=
      orderly.final before a (.ok ()) after split (by rintro ⟨failure, other, -⟩; cases other)
    cases traced with
    | waits early => rcases early with early | early <;> simp [isOver, ending?, early] at done
    | barred => cases mem
    | rejected => cases mem
    | runs running => simp [isOver, ending?, running] at done
    | ended finished =>
      obtain ⟨before, after, split⟩ := List.append_of_mem mem
      exact ⟨⟨d.job.host, Step.attempts d.job.run.steps, .ok ()⟩,
        by rw [finished, Job.ending, (final split).2], rfl⟩
    | crashed _ split =>
      -- a run that crashed had another attempt to end
      obtain ⟨before, after, inside⟩ := List.append_of_mem mem
      have whole := congrArg Step.deeds split
      rw [Step.deeds_append, inside, List.append_assoc] at whole
      have none_ := (final whole).1
      simp at none_

end Delivery

namespace Floor

variable {f : Floor} {place : Nat} {d : Delivery}

/-- What a delivery of a service sends at any point of any interleaving, in the scenes that its attempts meet:
chains of requests, attempt by attempt, one for each method of its channel at most and in their order. All
their answers are known, but for the last attempt before it has ended on its own. None comes after a chain that
the channel accepts, and the delivery ends with success if and only if the last one is accepted. Its usual
scenes are those of the world of the service. -/
theorem stops_at_success (s : Service) (scenes : Nat → Scene) (destination : Destination)
    (event : Event) (receiver : Option Destination) (r : Registry) (fairness : Fairness) (now : Nat)
    (earlier later : List Move) :
    let channel := destination.channel
    let most := s.config.policy.maxAttempts
    let job : Job := { s.jobIn scenes destination event with receiver := receiver }
    let f := moves { registry := r, fairness := fairness, now := now } earlier
    let h := f.moves (.add job :: later)
    let place := f.deliveries.length
    (∃ d, h.deliveries[place]? = some d ∧ d.job = job ∧ ∃ calls : List (List Chain),
      Deed.requests ((h.trace place).map Prod.snd) = calls.flatten.flatMap Chain.requests ∧
      (∀ i call, calls[i]? = some call →
        Chain.InTurn s.client (scenes (i + 1)).world [] call ∧
          (call.map (·.first.method)).Sublist channel.methods) ∧
      calls.length ≤ most ∧ calls.flatten.length ≤ most * channel.methods.length ∧
      (∀ c ∈ calls.dropLast.flatten, c.answer.isSome) ∧
      (Deed.EndOwn ((h.trace place).map Prod.snd) → ∀ c ∈ calls.flatten, c.answer.isSome) ∧
      Chain.StopAtSuccess channel.accepts calls.flatten ∧
      (d.Succeeded ↔ d.isOver = true ∧
        ∃ last, calls.flatten.getLast? = some last ∧ last.Succeeds channel.accepts)) ∧
    s.jobIn (fun _ => .usual s.world) destination event = s.job destination event := by
  intro channel most job f h place
  refine ⟨?_, s.jobIn_usual destination event⟩
  obtain ⟨d, there, own⟩ := exists_of_add f job later
  have traced : h.Traced := ((traced_start r fairness now).moves earlier).moves _
  have scripted : ∀ i, d.job.operation i =
      ((s.sender.dialogue channel destination.target event).talk s.client).paced (scenes i) [] := by
    intro i
    rw [own]
    exact congrArg (Http.Talk.paced (scenes i) · [])
      (s.sender.talk_dialogue channel destination.target event).symm
  have front := (traced.here there).front
  obtain ⟨calls, conduct⟩ := conduct_of_attemptsFrom (s.sender.heeds_dialogue channel _ event)
    scripted d.job.limits d.job.delays 1 0 front
  have attempts : d.job.delays.length + 1 = most := by rw [own]; exact s.length_delays
  rw [attempts] at conduct
  refine ⟨d, there, own, calls, conduct.requests, fun i call at_ => ⟨?_, ?_⟩, conduct.within, ?_,
    conduct.earlier, conduct.answered, conduct.stops, ?_⟩
  · rw [Nat.add_comm]
    exact conduct.inTurn i call at_
  · exact conduct.methods call (List.mem_of_getElem? at_)
  · exact Nat.le_trans (length_flatten_le conduct.methods) (Nat.mul_le_mul_right _ conduct.within)
  · rw [(traced.here there).succeeded_iff fun i => by
      rw [scripted]
      exact Http.Talk.isOwn_of_mem_paced _ _ _, ← conduct.success, conduct.stops.exists_iff]

end Floor

end Herald
