import Herald.Proofs.Channel.Origin
import Herald.Proofs.Guard
import Herald.Proofs.Url.Segments

/-! A notification in the path of a request. The request that carries it goes to the target with two more
segments in its path, and these decode to title and body as long as neither holds a tab or a line end nor is
made of dots. Two paths have no room for the two segments: a root for an empty title, and a path of two
slashes. -/
namespace Herald

open Herald.Http Herald.Text Herald.Url.Path

namespace Bark

structure IsPlain (text : List Char) : Prop where
  named : ¬ IsDots text
  line : ∀ c ∈ text, c ≠ '\t' ∧ c ≠ '\n' ∧ c ≠ '\x0d'

theorem segmentText_eq_iff (text : List Char) :
    Url.segmentText text = text ↔ ∀ c ∈ text, c ≠ '\t' ∧ c ≠ '\n' ∧ c ≠ '\x0d' := by
  have return_ (c : Char) : c.toNat ≠ 13 ↔ c ≠ '\x0d' :=
    not_congr ⟨fun is => Char.toNat_inj.1 is, fun is => is ▸ rfl⟩
  simp only [Url.segmentText, List.filter_eq_self, Bool.and_eq_true, bne_iff_ne, return_, and_assoc]

theorem isPlain_iff (text : List Char) :
    IsPlain text ↔ ¬ IsDots (Url.segmentText text) ∧ Url.segmentText text = text := by
  constructor
  · intro plain
    have same := (segmentText_eq_iff text).2 plain.line
    exact ⟨by rw [same]; exact plain.named, same⟩
  · rintro ⟨named, same⟩
    exact ⟨same ▸ named, (segmentText_eq_iff text).1 same⟩

/-- An address that is a target with title and body as two more segments of its path. -/
structure Carries (u v : Url) (title body : List Char) : Prop where
  scheme : v.scheme = u.scheme
  authority : v.authority = u.authority
  query : v.query = u.query
  segments : ∃ first second, v.segments = u.stem ++ [first, second] ∧
    Utf8.decode? (Percent.decode first) = some title ∧
    Utf8.decode? (Percent.decode second) = some body

variable {u : Url} {title body : List Char}

theorem decode?_encoded (text : List Char) :
    Utf8.decode? (Percent.decode (encoded text)) = some text := by
  rw [decode_encoded, Utf8.decode?_encode]

theorem pathUrl_eq (u : Url) (title body : List Char) :
    pathUrl u title body = { u with path := (pathUrl u title body).path } := by
  have push (u : Url) (text : List Char) :
      u.pushSegment text = { u with path := (u.pushSegment text).path } := by
    unfold Url.pushSegment
    split <;> rfl
  have pop (u : Url) : u.popEmptySegment = { u with path := u.popEmptySegment.path } := by
    unfold Url.popEmptySegment
    split <;> rfl
  rw [pathUrl, push, push, pop]

/-- What came out for a segment decodes to a text exactly if this is the plain text that was put in. -/
theorem isPlain_of_decode? {text last : List Char}
    (made : ¬ IsDots (Url.segmentText text) ∧ last = encoded (Url.segmentText text) ∨
      IsDots (Url.segmentText text) ∧ last = [])
    (decodes : Utf8.decode? (Percent.decode last) = some text) :
    IsPlain text ∧ last = encoded text := by
  rcases made with ⟨named, rfl⟩ | ⟨dots, rfl⟩
  · rw [decode?_encoded] at decodes
    have same := Option.some.inj decodes
    exact ⟨(isPlain_iff text).2 ⟨named, same⟩, by rw [same]⟩
  · have none_ : [] = text := Option.some.inj decodes
    rw [← none_] at dots
    exact absurd dots (by decide)

theorem pushed_pathUrl (web : u.family = .web) (absolute : IsAbsolute u.path) (title body : List Char) :
    IsAbsolute (u.popEmptySegment.pushSegment title).path ∧
      Pushed u.popEmptySegment.path (Url.segmentText title) (u.popEmptySegment.pushSegment title).path ∧
      Pushed (u.popEmptySegment.pushSegment title).path (Url.segmentText body) (pathUrl u title body).path := by
  have webPop : u.popEmptySegment.family = .web := by
    unfold Url.popEmptySegment
    split <;> exact web
  have webTitle : (u.popEmptySegment.pushSegment title).family = .web := by
    unfold Url.pushSegment
    split <;> exact webPop
  obtain ⟨absoluteTitle, titled⟩ := Url.pushed_pushSegment webPop (Url.isAbsolute_popEmptySegment absolute) title
  exact ⟨absoluteTitle, titled, (Url.pushed_pushSegment webTitle absoluteTitle body).2⟩

theorem Carries.isPlain (carries : Carries u (pathUrl u title body) title body) (web : u.family = .web)
    (absolute : IsAbsolute u.path) :
    IsPlain title ∧ IsPlain body ∧ (u.path = ['/'] → title ≠ []) ∧ u.path ≠ ['/', '/'] := by
  obtain ⟨absoluteTitle, titled, bodied⟩ := pushed_pathUrl web absolute title body
  have ready := Url.before_popEmptySegment absolute
  have few : (before u.popEmptySegment.path).length ≤ u.stem.length := by
    rcases ready with ⟨-, ready⟩ | ⟨-, none_, -⟩
    · exact Nat.le_of_eq (congrArg List.length ready)
    · simp [none_]
  have fewTitle : (before (u.popEmptySegment.pushSegment title).path).length ≤ u.stem.length + 1 :=
    titled.length_le.trans (Nat.succ_le_succ few)
  obtain ⟨first, second, parts, decodesFirst, decodesSecond⟩ := carries.segments
  -- the last segment comes from the body, and the one before it then from the title
  obtain ⟨wholeTitle, made⟩ := bodied.last_eq (before_of_segments parts) (by simpa using fewTitle)
  obtain ⟨plainBody, -⟩ := isPlain_of_decode? made decodesSecond
  obtain ⟨stem, made⟩ := titled.last_eq wholeTitle few
  obtain ⟨plainTitle, is⟩ := isPlain_of_decode? made decodesFirst
  refine ⟨plainTitle, plainBody, ?_, ?_⟩
  · rintro root rfl
    rw [(Url.stem_eq_nil_iff absolute).2 root, is] at wholeTitle
    have same := before_of_ne_nil (by rw [wholeTitle]; simp)
    rw [wholeTitle] at same
    have back := (before_eq_nil_iff absoluteTitle).2 (absoluteTitle.eq_root same.symm)
    rw [wholeTitle] at back
    cases back
  · intro two
    rcases ready with ⟨other, -⟩ | ⟨-, none_, kept⟩
    · exact other two
    · rw [stem, kept] at none_
      cases none_

theorem carries_pathUrl (web : u.family = .web) (absolute : IsAbsolute u.path) (plainTitle : IsPlain title)
    (plainBody : IsPlain body) (named : u.path = ['/'] → title ≠ []) (other : u.path ≠ ['/', '/']) :
    Carries u (pathUrl u title body) title body := by
  obtain ⟨-, titled, bodied⟩ := pushed_pathUrl web absolute title body
  have ready : before u.popEmptySegment.path = u.stem :=
    (Url.before_popEmptySegment absolute).elim And.right fun two => absurd two.1 other
  have partsTitle := titled.segments_eq ((isPlain_iff title).1 plainTitle).1
  have partsBody := bodied.segments_eq ((isPlain_iff body).1 plainBody).1
  rw [((isPlain_iff title).1 plainTitle).2, ready] at partsTitle
  rw [((isPlain_iff body).1 plainBody).2] at partsBody
  have room : (u.popEmptySegment.pushSegment title).path ≠ ['/'] := by
    intro root
    rw [root] at partsTitle
    have parts : [] ++ [[]] = u.stem ++ [encoded title] := partsTitle
    obtain ⟨kept, empty⟩ := List.append_inj' parts rfl
    refine named ((Url.stem_eq_nil_iff absolute).1 kept.symm) ?_
    have decodes := decode?_encoded title
    rw [← List.singleton_inj.1 empty] at decodes
    exact (Option.some.inj decodes).symm
  rw [before, if_neg room, partsTitle, List.append_assoc] at partsBody
  have only := pathUrl_eq u title body
  exact ⟨by rw [only], by rw [only], by rw [only], _, _, partsBody, decode?_encoded title, decode?_encoded body⟩

theorem carries_pathUrl_iff (web : u.family = .web) (absolute : IsAbsolute u.path) :
    Carries u (pathUrl u title body) title body ↔
      IsPlain title ∧ IsPlain body ∧ (u.path = ['/'] → title ≠ []) ∧ u.path ≠ ['/', '/'] := by
  constructor
  · exact fun carries => carries.isPlain web absolute
  · rintro ⟨plainTitle, plainBody, named, other⟩
    exact carries_pathUrl web absolute plainTitle plainBody named other

theorem pushSegment_segmentText (u : Url) {text : List Char} (named : ¬ IsDots (Url.segmentText text)) :
    u.pushSegment (Url.segmentText text) = u.pushSegment text := by
  have twice : Url.segmentText (Url.segmentText text) = Url.segmentText text := by
    simp [Url.segmentText, List.filter_filter]
  have outer : ¬ (text = ['.'] ∨ text = ['.', '.']) := by
    rintro (rfl | rfl) <;> exact named (by decide)
  have inner : ¬ (Url.segmentText text = ['.'] ∨ Url.segmentText text = ['.', '.']) := named
  unfold Url.pushSegment
  rw [if_neg inner, if_neg outer, twice]

theorem carries_segmentText (web : u.family = .web) (absolute : IsAbsolute u.path)
    (namedTitle : ¬ IsDots (Url.segmentText title)) (namedBody : ¬ IsDots (Url.segmentText body))
    (room : u.path = ['/'] → Url.segmentText title ≠ []) (other : u.path ≠ ['/', '/']) :
    Carries u (pathUrl u title body) (Url.segmentText title) (Url.segmentText body) := by
  have plain {text : List Char} (named : ¬ IsDots (Url.segmentText text)) :
      IsPlain (Url.segmentText text) := by
    refine ⟨named, (segmentText_eq_iff _).1 ?_⟩
    simp [Url.segmentText, List.filter_filter]
  have same : pathUrl u title body = pathUrl u (Url.segmentText title) (Url.segmentText body) := by
    rw [pathUrl, pathUrl, pushSegment_segmentText _ namedTitle, pushSegment_segmentText _ namedBody]
  rw [same]
  exact carries_pathUrl web absolute (plain namedTitle) (plain namedBody) room other

end Bark

namespace Dialogue

def Asks (p : Request → Prop) : Dialogue → Prop
  | .done _ => True
  | .crashed _ => True
  | .check _ next => ∀ verdict, (next verdict).Asks p
  | .ask request next => p request ∧ ∀ answer, (next answer).Asks p

theorem Asks.of_holds {p : Request → Prop} {client : Client} {world : World} {sent : List Request}
    {d : Dialogue} {chains : List Chain} {outcome : Option Result} (asks : d.Asks p)
    (holds : d.Holds client world sent chains outcome) : ∀ c ∈ chains, p c.first := by
  induction holds with
  | judged _ ih => exact ih (asks _)
  | unsent _ _ ih => exact ih (asks.2 _)
  | unanswered => exact List.forall_mem_singleton.2 asks.1
  | answered _ _ _ ih => exact List.forall_mem_cons.2 ⟨asks.1, ih (asks.2 _)⟩
  | _ => simp

end Dialogue

namespace Bark

theorem asks_askPath (u : Url) (title body : List Char) :
    (askPath u title body).Asks fun r => r.method = .get → r = .to .get (pathUrl u title body) := by
  unfold askPath
  split
  · trivial
  · exact ⟨fun _ => rfl, fun _ => trivial⟩

theorem asks_onward (forceGet : Bool) (event : Event) (u : Url) {text : String}
    (made : event.body = .ok text) :
    (onward forceGet event u).Asks fun r => r.method = .get →
      r = .to .get (pathUrl u (trim event.activity.title.toList) (trim text.toList)) := by
  simp only [onward, made, askPush]
  split
  · exact asks_askPath u _ _
  · refine ⟨fun is => by simp at is, fun answer => ?_⟩
    dsimp only
    split
    · trivial
    · exact asks_askPath u _ _

/-- All that an attempt sends are its chains, and one that starts with a request for a page asks for the
target with title and body in its path. Only the path differs from the target, and it carries the two
exactly if neither of them holds a tab or a line end or is made of dots, and there is room for them. Tabs and
line ends are left out of what it carries. -/
theorem path_carries (s : Sender) (world : World) {target : String} {event : Event} {u : Url}
    {text : String} (named : Guard.target? target = .ok u) (web : isWeb u = true)
    (made : event.body = .ok text) :
    let title := trim event.activity.title.toList
    let body := trim text.toList
    let v := pathUrl u title body
    (∃ chains : List Chain,
      Deed.requests ((s.send .bark target event).course world []).deeds =
        chains.flatMap Chain.requests ∧
      ∀ c ∈ chains, c.first.method = .get → c.first = .to .get v) ∧
    v = { u with path := v.path } ∧
    (Carries u v title body ↔
      IsPlain title ∧ IsPlain body ∧ (u.path = ['/'] → title ≠ []) ∧ u.path ≠ ['/', '/']) ∧
    (¬ IsDots (Url.segmentText title) → ¬ IsDots (Url.segmentText body) →
      (u.path = ['/'] → Url.segmentText title ≠ []) → u.path ≠ ['/', '/'] →
      Carries u v (Url.segmentText title) (Url.segmentText body)) := by
  intro title body v
  have family : u.family = .web := by
    rw [isWeb, Bool.or_eq_true, decide_eq_true_eq, decide_eq_true_eq] at web
    exact Url.family_of_web web
  have absolute := Url.isAbsolute_of_parse (Guard.parse_of_target? named) family
  refine ⟨?_, pathUrl_eq u title body, carries_pathUrl_iff family absolute,
    carries_segmentText family absolute⟩
  obtain ⟨chains, holds, sent⟩ :=
    Dialogue.exists_holds s.client world [] (s.dialogue .bark target event)
  rw [s.talk_dialogue] at sent
  have asks : (s.dialogue .bark target event).Asks fun r => r.method = .get → r = .to .get v := by
    simp only [Sender.dialogue, Sender.address?, named]
    intro verdict
    cases verdict with
    | error failure => trivial
    | ok _ => exact asks_onward s.forceGet event u made
  exact ⟨chains, sent, asks.of_holds holds⟩

/-- Slashes and percent signs are carried, and so is an empty body. -/
theorem path_carries_of_slashes :
    let host : Host := .literal (.v6 0x20010db8000000000000000000000001)
    let u : Url := ⟨"https".toList, some { username := "me".toList, host := some host }, "/k/".toList,
      some "q".toList, none⟩
    let event : Event := ⟨.other " 1/2 %2F ", { creator := "users/1" }⟩
    Guard.target? "https://me@[2001:db8::1]/k/?q" = .ok u ∧ isWeb u = true ∧ event.body = .ok "" ∧
      Carries u (pathUrl u (trim event.activity.title.toList) (trim "".toList))
        (trim event.activity.title.toList) (trim "".toList) := by
  intro host u event
  have named : Guard.target? "https://me@[2001:db8::1]/k/?q" = .ok u := by decide +kernel
  have web : isWeb u = true := by decide
  have made : event.body = .ok "" := by decide +kernel
  have world : World := { guard := fun _ => {}, peer := fun _ _ => none }
  exact ⟨named, web, made, (path_carries {} world named web made).2.2.1.2
    ⟨(isPlain_iff _).2 ⟨by decide +kernel, by decide +kernel⟩,
      (isPlain_iff _).2 ⟨by decide +kernel, by decide +kernel⟩, by decide +kernel, by decide +kernel⟩⟩

/-- The lines of a summary come out as a single one. -/
theorem pathUrl_of_summary :
    let host : Host := .literal (.v6 0x20010db8000000000000000000000001)
    let u : Url := ⟨"http".toList, some { host := some host }, "/key".toList, none, none⟩
    let event : Event := ⟨.created, { creator := "users/1", content := "#order\n- Soup × 1" }⟩
    let title := trim event.activity.title.toList
    let body := "- Soup × 1\nTotal: 1 item".toList
    Guard.target? "http://[2001:db8::1]/key" = .ok u ∧ event.body = .ok (String.ofList body) ∧
      trim body = body ∧
      Carries u (pathUrl u title body) title "- Soup × 1Total: 1 item".toList ∧
      ¬ Carries u (pathUrl u title body) title body := by
  intro host u event title body
  have web : u.family = .web := by decide
  have absolute : IsAbsolute u.path := rfl
  have out : Url.segmentText title = title ∧
      Url.segmentText body = "- Soup × 1Total: 1 item".toList := by decide +kernel
  refine ⟨by decide +kernel, by decide +kernel, by decide +kernel, ?_, fun carries => ?_⟩
  · have carried : Carries u (pathUrl u title body) (Url.segmentText title) (Url.segmentText body) :=
      carries_segmentText web absolute (by decide +kernel) (by decide +kernel) (by decide +kernel)
        (by decide +kernel)
    rwa [out.1, out.2] at carried
  · have plain := ((carries_pathUrl_iff web absolute).1 carries).2.1
    exact (plain.line '\n' (by decide +kernel)).2.1 rfl

end Bark

end Herald
