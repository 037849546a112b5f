import Herald.Channel.Sender

/-! The total of an order against the sum of its quantities. The total is a word of 32 bits: as long as the
sum is one, every text of the order ends with exactly this sum; else there is no text, and a notification
that would carry it comes to nothing. -/
namespace Herald

open Herald.Http Herald.Text

namespace Order

def sumOf (items : List OrderItem) : Nat := items.foldr (fun item rest => item.quantity + rest) 0

def sumIn (content : String) : Nat :=
  match parse content with
  | some o => sumOf o.items
  | none => 0

theorem foldlM_addWord (items : List OrderItem) {total : Nat} (word : total < quantityLimit) :
    items.foldlM (fun total item => addWord total item.quantity) total =
      if total + sumOf items < quantityLimit then .ok (total + sumOf items) else .error {} := by
  induction items generalizing total with
  | nil =>
    rw [List.foldlM_nil, sumOf, List.foldr_nil, Nat.add_zero, if_pos word]
    rfl
  | cons item items ih =>
    have sum : total + sumOf (item :: items) = total + item.quantity + sumOf items := by
      simp only [sumOf, List.foldr_cons]
      omega
    rw [List.foldlM_cons, sum]
    by_cases fits : total + item.quantity < quantityLimit
    · have added : addWord total item.quantity = .ok (total + item.quantity) := by
        simp [addWord, fits]
      rw [added]
      exact ih fits
    · have overflows : addWord total item.quantity = .error {} := by
        simp [addWord, fits]
      rw [overflows, if_neg (by omega)]
      rfl

theorem totalQuantity_eq (o : Order) :
    o.totalQuantity = if sumOf o.items < quantityLimit then .ok (sumOf o.items) else .error {} := by
  have zero : 0 < quantityLimit := by decide
  rw [totalQuantity, foldlM_addWord o.items zero, Nat.zero_add]

def EndsWithTotal (sum : Nat) (text : List Char) : Prop :=
  ∃ lines amount, text = lines ++ ("Total: ".toList ++ natDigits sum ++
    (if sum = 1 then " item" else " items").toList ++ amount)

theorem renderText_eq_ok {o : Order} (word : sumOf o.items < quantityLimit) (style : Style) :
    ∃ text, o.renderText style = .ok text ∧ EndsWithTotal (sumOf o.items) text := by
  have total : o.totalQuantity = .ok (sumOf o.items) := by rw [totalQuantity_eq, if_pos word]
  unfold renderText
  rw [total]
  exact ⟨_, rfl, _, _, rfl⟩

theorem renderText_eq_error {o : Order} (large : quantityLimit ≤ sumOf o.items) (style : Style) :
    o.renderText style = .error {} := by
  have total : o.totalQuantity = .error {} := by
    rw [totalQuantity_eq, if_neg (Nat.not_lt.2 large)]
  unfold renderText
  rw [total]
  rfl

end Order

namespace Event

open Herald.Order

theorem body_cases (e : Event) :
    (sumIn e.memo.content < quantityLimit ∧ ∃ text, e.body = .ok text) ∨
      (quantityLimit ≤ sumIn e.memo.content ∧ e.body = .error {}) := by
  unfold body summarize? sumIn
  cases Order.parse e.memo.content with
  | none => exact .inl ⟨by decide, _, rfl⟩
  | some o =>
    simp only [Option.map_some, Order.render]
    by_cases word : sumOf o.items < quantityLimit
    · obtain ⟨text, rendered, -⟩ := renderText_eq_ok word .compact
      exact .inl ⟨word, _, by rw [rendered]; rfl⟩
    · have large := Nat.not_lt.1 word
      exact .inr ⟨large, by rw [renderText_eq_error large]; rfl⟩

end Event

namespace Http

def Talk.Completes : Talk → Prop
  | .done _ => True
  | .crashed _ => False
  | .pause _ next => next.Completes
  | .check _ next => ∀ verdict, (next verdict).Completes
  | .connect _ next => ∀ found, (next found).Completes
  | .send _ next => ∀ answer, (next answer).Completes

theorem Talk.Completes.converse {talk : Talk} (completes : talk.Completes) (world : World)
    (sent : List Request) : ∃ result, (talk.converse world sent).result = .ok result := by
  induction talk generalizing sent with
  | done result => exact ⟨result, rfl⟩
  | crashed => exact completes.elim
  | pause _ _ ih => exact ih completes sent
  | check _ _ ih => exact ih _ (completes _) sent
  | connect _ _ ih => exact ih _ (completes _) sent
  | send request _ ih => exact ih _ (completes _) (request :: sent)

theorem Client.completes_send (client : Client) (request : Request) {next : Except Failure Response → Talk}
    (after : ∀ answer, (next answer).Completes) : (client.send request next).Completes := by
  unfold Client.send
  induction ([] : List Url) using client.policy_induction generalizing request with
  | step previous ih =>
    rw [exchange_eq]
    split
    · exact after _
    · intro found
      dsimp only
      split
      · exact after _
      · intro answer
        unfold Client.react
        split
        · exact after _
        · split
          · exact after _
          · next u _ =>
            split
            · exact after _
            · next permitted => exact ih request.url u permitted _

end Http

theorem Bark.completes_push (client : Client) (forceGet : Bool) (u : Url) (title body : List Char) :
    (Bark.push client forceGet u title body).Completes := by
  have path : (Bark.pushPath client u title body).Completes := by
    unfold pushPath
    split
    · trivial
    · exact Client.completes_send _ _ fun _ => trivial
  unfold push
  split
  · exact path
  · refine Client.completes_send _ _ fun answer => ?_
    split
    · trivial
    · exact path

def Http.World.Admits (world : World) (target : String) : Prop :=
  ∃ u, Guard.target? target = .ok u ∧ (world.guard u).verdict = .ok ()

def Http.Talk.admitted (target : String) (next : Url → Talk) : Talk :=
  match Guard.target? target with
  | .error objection => .done (.error (.validation objection))
  | .ok u =>
    .check u fun verdict =>
      match verdict with
      | .error failure => .done (.error failure)
      | .ok () => next u

theorem Http.Talk.converse_admitted (world : World) (target : String) (next : Url → Talk) :
    (¬ world.Admits target ∧
      ∃ result, ((Talk.admitted target next).converse world []).result = .ok result) ∨
    (world.Admits target ∧
      ∃ u, (Talk.admitted target next).converse world [] = (next u).converse world []) := by
  unfold Talk.admitted World.Admits
  cases named : Guard.target? target with
  | error objection => exact .inl ⟨by simp, _, rfl⟩
  | ok u =>
    simp only [Talk.converse]
    cases verdict : (world.guard u).verdict with
    | error failure => exact .inl ⟨by simp [verdict], _, rfl⟩
    | ok _ => exact .inr ⟨⟨u, rfl, verdict⟩, u, rfl⟩

def Channel.carriesText : Channel → Bool
  | .raw => false
  | .weCom => true
  | .bark => true

theorem Channel.eq_raw {channel : Channel} (silent : channel.carriesText = false) :
    channel = .raw := by
  cases channel with
  | raw => rfl
  | weCom => cases silent
  | bark => cases silent

namespace Sender

variable (s : Sender) (target : String) (event : Event)

theorem completes_send_raw : (s.send .raw target event).Completes := by
  simp only [send, Raw.deliver]
  split
  · trivial
  · unfold Raw.post
    split
    · trivial
    · intro verdict
      cases verdict with
      | error _ => trivial
      | ok _ => exact Client.completes_send _ _ fun _ => trivial

theorem send_of_carriesText {channel : Channel} (carries : channel.carriesText = true) :
    ∃ go : Url → String → Talk, (∀ u text, (go u text).Completes) ∧
      s.send channel target event = Talk.admitted target fun u =>
        match event.body with
        | .error _ => .crashed .quantity
        | .ok text => go u text := by
  cases channel with
  | raw => cases carries
  | weCom =>
    refine ⟨fun u text => s.client.send
      (.to .post u "application/json"
        (WeCom.message ("**" ++ event.activity.title ++ "**\n" ++ text))) fun answer =>
        .done (answer.bind fun response => (response.ensureSuccess .weCom).bind WeCom.judge),
      fun _ _ => Client.completes_send _ _ fun _ => trivial, ?_⟩
    simp only [send, WeCom.deliver, Talk.admitted, Event.groupText]
    cases event.body <;> rfl
  | bark =>
    exact ⟨fun u text => Bark.push s.client s.forceGet u (trim event.activity.title.toList)
      (trim text.toList), fun _ _ => Bark.completes_push _ _ _ _ _, rfl⟩

theorem result_of_body (s : Sender) {e : Event} {body : String} (made : e.body = .ok body)
    (world : World) (channel : Channel) (target : String) :
    ∃ result, ((s.send channel target e).converse world []).result = .ok result := by
  cases carries : channel.carriesText with
  | false =>
    rw [Channel.eq_raw carries]
    exact (s.completes_send_raw target e).converse world []
  | true =>
    obtain ⟨go, completes, send⟩ := s.send_of_carriesText target e carries
    rw [send, made]
    rcases Talk.converse_admitted world target fun u => go u body with
      ⟨-, ended⟩ | ⟨-, u, goes⟩
    · exact ended
    · rw [goes]
      exact (completes u body).converse world []

theorem crashes_iff_of_none (s : Sender) {e : Event} (none_ : e.body = .error {}) (world : World)
    (channel : Channel) (target : String) :
    ((s.send channel target e).converse world []).result = .error .quantity ↔
      channel.carriesText = true ∧ world.Admits target := by
  cases carries : channel.carriesText with
  | false =>
    obtain ⟨result, ended⟩ := (s.completes_send_raw target e).converse world []
    rw [Channel.eq_raw carries, ended]
    simp
  | true =>
    obtain ⟨go, -, send⟩ := s.send_of_carriesText target e carries
    rw [send, none_]
    rcases Talk.converse_admitted world target fun _ => .crashed .quantity with
      ⟨barred, result, ended⟩ | ⟨admits, u, goes⟩
    · simp [ended, barred]
    · simp [goes, admits, Talk.converse]

end Sender

/-- The texts of a memo have the exact sum of its quantities as their total, and an attempt to deliver it
comes to a result, as long as the sum is a word of 32 bits. Otherwise the memo has no text at all, and an
attempt that carries one ends without a result as soon as the guard has let its target pass. -/
theorem Order.total_exact_or_none (e : Event) :
    (sumIn e.memo.content < quantityLimit →
      (∀ o, parse e.memo.content = some o → ∀ style,
        ∃ text, o.renderText style = .ok text ∧ EndsWithTotal (sumIn e.memo.content) text) ∧
      (∃ body, e.body = .ok body ∧
        e.groupText = .ok ("**" ++ e.activity.title ++ "**\n" ++ body)) ∧
      ∀ (s : Sender) (world : World) (channel : Channel) (target : String),
        ∃ result, ((s.send channel target e).converse world []).result = .ok result) ∧
    (quantityLimit ≤ sumIn e.memo.content →
      (∃ o, parse e.memo.content = some o ∧ ∀ style, o.renderText style = .error {}) ∧
      e.body = .error {} ∧ e.groupText = .error {} ∧
      ∀ (s : Sender) (world : World) (channel : Channel) (target : String),
        ((s.send channel target e).converse world []).result = .error .quantity ↔
          channel.carriesText = true ∧ world.Admits target) := by
  have bodies := e.body_cases
  constructor
  · intro word
    obtain ⟨body, made⟩ : ∃ body, e.body = .ok body :=
      bodies.elim And.right fun large => absurd word (Nat.not_lt.2 large.1)
    refine ⟨fun o parsed style => ?_, ⟨body, made, by rw [Event.groupText, made]; rfl⟩,
      fun s world channel target => ?_⟩
    · have sum : sumIn e.memo.content = sumOf o.items := by rw [sumIn, parsed]
      rw [sum] at word ⊢
      exact renderText_eq_ok word style
    · exact s.result_of_body made world channel target
  · intro large
    have none_ : e.body = .error {} :=
      bodies.elim (fun word => absurd word.1 (Nat.not_lt.2 large)) And.right
    refine ⟨?_, none_, by rw [Event.groupText, none_]; rfl, fun s world channel target => ?_⟩
    · cases parsed : parse e.memo.content with
      | none =>
        rw [sumIn, parsed] at large
        exact absurd large (by decide)
      | some o =>
        have sum : sumIn e.memo.content = sumOf o.items := by rw [sumIn, parsed]
        exact ⟨o, rfl, fun style => renderText_eq_error (sum ▸ large) style⟩
    · exact s.crashes_iff_of_none none_ world channel target

/-- Two quantities that are words may have a sum that is none. -/
theorem Order.renderText_of_large_sum :
    let content := "#order\n- a x 4294967295\n- b x 1"
    sumIn content = 4294967296 ∧
      ∃ o, parse content = some o ∧ ∀ style, o.renderText style = .error {} := by
  intro content
  have sum : sumIn content = 4294967296 := by decide +kernel
  obtain ⟨o, parsed⟩ : ∃ o, parse content = some o := by
    cases parsed : parse content with
    | none => simp [sumIn, parsed] at sum
    | some o => exact ⟨o, rfl⟩
  refine ⟨sum, o, parsed, fun style => renderText_eq_error ?_ style⟩
  have own : sumIn content = sumOf o.items := by rw [sumIn, parsed]
  rw [← own, sum]
  decide

end Herald
