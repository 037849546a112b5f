import Herald.Proofs.Channel.Chains

/-! Where the chains of an attempt start. An attempt whose target names no address does nothing, and one whose
address the guard refuses does nothing but ask; otherwise the guard was asked once, before anything was sent,
and every chain starts at the scheme, host and port that it was asked about. -/
namespace Herald

open Herald.Http

structure Url.SharesOrigin (u v : Url) : Prop where
  scheme : u.scheme = v.scheme
  host : u.host = v.host
  port : u.port = v.port

theorem Url.sharesOrigin_of_authority {u v : Url} (scheme : u.scheme = v.scheme)
    (authority : u.authority = v.authority) : u.SharesOrigin v :=
  ⟨scheme, by rw [host, host, authority], by rw [port, port, authority]⟩

theorem Url.SharesOrigin.trans {u v w : Url} (first : u.SharesOrigin v) (second : v.SharesOrigin w) :
    u.SharesOrigin w :=
  ⟨first.scheme.trans second.scheme, first.host.trans second.host, first.port.trans second.port⟩

theorem Http.Request.sharesOrigin_to (method : Method) (u : Url) (contentType : Option String)
    (body : List Char) : (Request.to method u contentType body).url.SharesOrigin u := by
  unfold Request.to
  split
  · cases named : u.authority with
    | none => exact Url.sharesOrigin_of_authority rfl (by simp [Url.withoutCredentials, named])
    | some a =>
      exact ⟨rfl, by simp [Url.withoutCredentials, Url.host, named],
        by simp [Url.withoutCredentials, Url.port, named]⟩
  · exact ⟨rfl, rfl, rfl⟩

namespace Bark

theorem sharesOrigin_pushUrl (u : Url) : (pushUrl u).SharesOrigin u :=
  Url.sharesOrigin_of_authority rfl rfl

theorem sharesOrigin_pathUrl (u : Url) (title body : List Char) :
    (pathUrl u title body).SharesOrigin u := by
  have push (u : Url) (segment : List Char) : (u.pushSegment segment).SharesOrigin u := by
    unfold Url.pushSegment
    split <;> exact Url.sharesOrigin_of_authority rfl rfl
  have pop : u.popEmptySegment.SharesOrigin u := by
    unfold Url.popEmptySegment
    split <;> exact Url.sharesOrigin_of_authority rfl rfl
  exact ((push _ body).trans (push _ title)).trans pop

end Bark

namespace Dialogue

def StaysAt (u : Url) : Dialogue → Prop
  | .done _ => True
  | .crashed _ => True
  | .check _ _ => False
  | .ask request next => request.url.SharesOrigin u ∧ ∀ answer, (next answer).StaysAt u

variable {client : Client} {world : World} {sent : List Request} {d : Dialogue} {u : Url}

theorem StaysAt.deeds (stays : d.StaysAt u) :
    ((d.talk client).course world sent).deeds =
      (Deed.requests ((d.talk client).course world sent).deeds).map .sent := by
  induction d generalizing sent with
  | done => rfl
  | crashed => rfl
  | check => cases stays
  | ask request next ih =>
    obtain ⟨made, answer, obtains⟩ := client.exists_obtains world sent request
    have deeds : (((ask request next).talk client).course world sent).deeds = _ :=
      (obtains.reaches _).deeds
    rw [deeds, Deed.requests_append, Deed.requests_map_sent, List.map_append, ← ih answer (stays.2 answer)]

theorem StaysAt.of_holds {chains : List Chain} {outcome : Option Result} (stays : d.StaysAt u)
    (holds : d.Holds client world sent chains outcome) : ∀ c ∈ chains, c.first.url.SharesOrigin u := by
  induction holds with
  | unjudged => cases stays
  | judged => cases stays
  | unsent _ _ ih => exact ih (stays.2 _)
  | unanswered => exact List.forall_mem_singleton.2 stays.1
  | answered _ _ _ ih => exact List.forall_mem_cons.2 ⟨stays.1, ih (stays.2 _)⟩
  | _ => simp

end Dialogue

theorem Bark.staysAt_askPath (u : Url) (title body : List Char) : (askPath u title body).StaysAt u := by
  unfold askPath
  split
  · trivial
  · exact ⟨(Request.sharesOrigin_to ..).trans (sharesOrigin_pathUrl u title body), fun _ => trivial⟩

theorem Bark.staysAt_onward (forceGet : Bool) (event : Event) (u : Url) :
    (onward forceGet event u).StaysAt u := by
  unfold onward
  split
  · trivial
  · unfold askPush
    split
    · exact staysAt_askPath u _ _
    · refine ⟨(Request.sharesOrigin_to ..).trans (sharesOrigin_pushUrl u), fun answer => ?_⟩
      dsimp only
      split
      · trivial
      · exact staysAt_askPath u _ _

theorem Sender.staysAt_onward (s : Sender) (channel : Channel) (target : String) (event : Event)
    (u : Url) : (s.onward channel target event u).StaysAt u := by
  cases channel with
  | raw =>
    simp only [onward]
    cases s.converter event target with
    | error fault => trivial
    | ok payload => exact ⟨Request.sharesOrigin_to .., fun _ => trivial⟩
  | weCom =>
    simp only [onward, WeCom.onward]
    split
    · trivial
    · exact ⟨Request.sharesOrigin_to .., fun _ => trivial⟩
  | bark => exact Bark.staysAt_onward s.forceGet event u

namespace Sender

variable (s : Sender) (channel : Channel) (target : String) (event : Event)

theorem send_of_address?_error {failure : Failure}
    (refused : s.address? channel target event = .error failure) :
    s.send channel target event = .done (.error failure) := by
  rw [← talk_dialogue, dialogue, refused]
  rfl

/-- What an attempt does about its address: it asks the guard, and goes no further if the guard refuses. -/
inductive Reviewed (world : World) (u : Url) (talk : Talk) : Prop
  | refused {failure : Failure} : (world.guard u).verdict = .error failure →
    (talk.course world []).deeds = [.asked u, .answered] →
    (talk.course world []).result = .ok (.error failure) → Reviewed world u talk
  | passed {chains : List Chain} : (world.guard u).verdict = .ok () →
    (talk.course world []).deeds = .asked u :: .answered :: (chains.flatMap Chain.requests).map .sent →
    Chain.InTurn s.client world [] chains → (∀ c ∈ chains, c.first.url.SharesOrigin u) →
    Reviewed world u talk

theorem reviewed_send {u : Url} (named : s.address? channel target event = .ok u) (world : World) :
    s.Reviewed world u (s.send channel target event) := by
  rw [← talk_dialogue, dialogue, named]
  cases verdict : (world.guard u).verdict with
  | error failure =>
    refine .refused verdict ?_ ?_
    · simp [Dialogue.talk_reviewed, Talk.course, Course.deeds, verdict]
    · simp [Dialogue.talk_reviewed, Talk.course, Course.result, verdict]
  | ok _ =>
    have stays := s.staysAt_onward channel target event u
    obtain ⟨chains, holds, made⟩ :=
      Dialogue.exists_holds s.client world [] (s.onward channel target event u)
    refine .passed verdict ?_ holds.inTurn (stays.of_holds holds)
    rw [← made, ← stays.deeds]
    simp [Dialogue.talk_reviewed, Talk.course, Course.deeds, verdict]

end Sender

end Herald
