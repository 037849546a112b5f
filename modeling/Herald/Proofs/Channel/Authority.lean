import Herald.Proofs.Channel.Origin
import Herald.Proofs.Text.Blank
import Herald.Service

/-! Whether slots and failures count for the host that is contacted. Key and address of a target are read
separately, and only the address from the trimmed text. Classifying leaves no blanks behind a target, but a
shorthand may leave some before it: if one of them is beyond ASCII, the key is the text of the target; in all
other cases it is the host of the address with its port. -/
namespace Herald

open Herald.Http Herald.Text

namespace Url

theorem stripped_append {lead : List Char} (plain : ∀ c ∈ lead, c.toNat ≤ 0x20) (s : List Char) :
    stripped (lead ++ s) = stripped s := by
  simp only [stripped]
  rw [List.dropWhile_append_of_pos fun c mem => decide_eq_true (plain c mem)]

theorem isSchemeChar_of_isBlank {c : Char} (blank : isBlank c = true) : isSchemeChar c = false := by
  have known : c.toNat ≤ 0x20 ∨ 0x85 ≤ c.toNat := by
    simp only [isBlank, Bool.or_eq_true, Bool.and_eq_true, decide_eq_true_eq, beq_iff_eq] at blank
    omega
  have small (d : Char) (bounds : 0x20 < d.toNat ∧ d.toNat < 0x85) : c ≠ d := by
    rintro rfl
    omega
  have letter : c.isAlphanum = false := by
    have value : c.val.toNat = c.toNat := rfl
    have letters : c.isAlpha = (decide (c.val ≥ 'A'.val ∧ c.val ≤ 'Z'.val) ||
        (decide (c.val ≥ 'a'.val) && decide (c.val ≤ 'z'.val))) := rfl
    simp only [Char.isAlphanum, letters, Char.isDigit, Bool.or_eq_false_iff, Bool.and_eq_false_iff,
      decide_eq_false_iff_not, ge_iff_le, UInt32.le_iff_toNat_le, value]
    simp only [UInt32.reduceToNat, Char.reduceVal]
    omega
  simp [isSchemeChar, letter, small '+' (by decide), small '-' (by decide), small '.' (by decide)]

theorem exists_dropWhile_of_blank {s : List Char}
    (other : ¬ ∀ c ∈ s.takeWhile isBlank, c.toNat ≤ 0x20) :
    ∃ c r, s.dropWhile (fun c => c.toNat ≤ 0x20) = c :: r ∧ 0x20 < c.toNat ∧ isBlank c = true := by
  induction s with
  | nil => simp at other
  | cons a s ih =>
    by_cases blank : isBlank a = true
    · by_cases small : a.toNat ≤ 0x20
      · have later : ¬ ∀ c ∈ s.takeWhile isBlank, c.toNat ≤ 0x20 := by
          simpa [List.takeWhile_cons, blank, small] using other
        simpa [List.dropWhile_cons, small] using ih later
      · exact ⟨a, s, by simp [small], by omega, blank⟩
    · simp [blank] at other

theorem stripped_of_dropWhile {s r : List Char} {c : Char}
    (found : s.dropWhile (fun c => c.toNat ≤ 0x20) = c :: r) (printable : 0x20 < c.toNat) :
    (stripped s).head? = some c := by
  have keeps : ((c :: r).reverse.dropWhile fun c => decide (c.toNat ≤ 0x20)) =
      (r.reverse.dropWhile fun c => decide (c.toNat ≤ 0x20)) ++ [c] := by
    simp [List.dropWhile_append, printable]
  have different (d : Char) (small : d.toNat ≤ 0x20) : c ≠ d := by
    rintro rfl
    omega
  simp only [stripped, found, keeps]
  simp [different '\t' (by decide), different '\n' (by decide), show c.toNat ≠ 13 by omega]

theorem parse_of_head? {s : List Char} {c : Char} (first : (stripped s).head? = some c)
    (no : isSchemeChar c = false) : parse s = .error .relativeWithoutBase := by
  obtain ⟨r, found⟩ := List.head?_eq_some_iff.1 first
  have none_ : scheme? (c :: r) = none := by
    unfold scheme?
    simp only [List.dropWhile_cons, List.takeWhile_cons, no]
    split <;> rfl
  simp only [parse, found, none_]

end Url

namespace Locator

/-- No blank beyond ASCII stands before the target. -/
def HasPlainLead (target : String) : Prop :=
  ∀ c ∈ target.toList.takeWhile isBlank, c.toNat ≤ 0x20

instance (target : String) : Decidable (HasPlainLead target) :=
  List.decidableBAll (fun c : Char => c.toNat ≤ 0x20) (target.toList.takeWhile isBlank)

/-- The locator is a shorthand for a target with a scheme of its own. -/
def NamesScheme (locator : String) (target : String) : Prop :=
  (∃ lead ∈ [weComLead, barkLead], trim locator.toList = lead ++ target.toList) ∧
    contains "://".toList target.toList = true

theorem target_classify (locator : String) :
    (classify locator).target.toList = trim locator.toList ∨
      ∃ lead ∈ [weComLead, barkLead], ∃ rest, trim locator.toList = lead ++ rest ∧
        (classify locator).target.toList = withScheme rest := by
  simp only [classify, String.toList_ofList, classifyText]
  split
  · next rest found =>
    exact .inr ⟨weComLead, by simp, rest, dropLead_eq_some_iff.1 found, rfl⟩
  · split
    · next rest found =>
      exact .inr ⟨barkLead, by simp, rest, dropLead_eq_some_iff.1 found, rfl⟩
    · split <;> exact .inl rfl

theorem endsInInk_classify (locator : String) : EndsInInk (classify locator).target.toList := by
  have ends : EndsInInk (trim locator.toList) := endsInInk_trimEnd _
  obtain same | ⟨lead, -, rest, text, same⟩ := target_classify locator
  · rwa [same]
  · have ends : EndsInInk rest := EndsInInk.of_append (text ▸ ends)
    rw [same, withScheme]
    split
    · exact ends
    · next plain =>
      refine ends.append fun none_ => ?_
      simp [none_] at plain

theorem namesScheme_of_lead {locator : String} (other : ¬ HasPlainLead (classify locator).target) :
    NamesScheme locator (classify locator).target := by
  obtain same | ⟨lead, known, rest, text, same⟩ := target_classify locator
  · refine absurd ?_ other
    simp [HasPlainLead, same, takeWhile_trim]
  · by_cases whole : (rest = [] || contains "://".toList rest) = true
    · rw [withScheme, if_pos whole] at same
      rw [Bool.or_eq_true, decide_eq_true_eq] at whole
      rcases whole with none_ | has
      · refine absurd ?_ other
        simp [HasPlainLead, same, none_]
      · exact ⟨⟨lead, known, by rw [same, text]⟩, by rw [same, has]⟩
    · rw [withScheme, if_neg whole] at same
      refine absurd ?_ other
      have ink : isBlank 'h' = false := by decide
      simp [HasPlainLead, same, ink]

theorem parse_of_lead {target : String} (other : ¬ HasPlainLead target) :
    Url.parse target.toList = .error .relativeWithoutBase := by
  obtain ⟨c, r, found, printable, blank⟩ := Url.exists_dropWhile_of_blank other
  exact Url.parse_of_head? (Url.stripped_of_dropWhile found printable)
    (Url.isSchemeChar_of_isBlank blank)

theorem parse_trim_of_plain {target : String} (plain : HasPlainLead target)
    (ends : EndsInInk target.toList) : Url.parse (trim target.toList) = Url.parse target.toList := by
  have same : Url.stripped (trimStart target.toList) = Url.stripped target.toList := by
    rw [← Url.stripped_append plain, trimStart, List.takeWhile_append_dropWhile]
  rw [ends.trim_eq, Url.parse, Url.parse, same]

theorem hostKey_of_lead {target : String} (other : ¬ HasPlainLead target) :
    hostKey target = trimmed target := by
  rw [hostKey, hostKeyText, parse_of_lead other, trimmed]

theorem hostKey_of_plain {target : String} (plain : HasPlainLead target)
    (ends : EndsInInk target.toList) {u : Url} (named : Guard.target? target = .ok u)
    {host : List Char} (there : u.hostText = some host) :
    hostKey target = String.ofList (lower host ++ Url.portText u.port) := by
  have parsed : Url.parse target.toList = .ok u := by
    rw [← parse_trim_of_plain plain ends, Guard.parse_of_target? named]
  simp [hostKey, hostKeyText, parsed, authorityKey, there]

end Locator

theorem Payload.url_of_ofEvent {event : Event} {target : String} {payload : Payload}
    (made : Payload.ofEvent event target = .ok payload) : payload.url = target := by
  unfold Payload.ofEvent at made
  split at made <;> cases made
  rfl

namespace Service

def firstRequest? (s : Service) (destination : Destination) (event : Event) : Option Request :=
  (Deed.requests ((s.sender.send destination.channel destination.target event).course
    s.world []).deeds).head?

/-- Where it goes: the host in lower case, and the port if it is not the usual one. -/
def contact? (s : Service) (destination : Destination) (event : Event) :
    Option (List Char × Option Nat) :=
  (s.firstRequest? destination event).bind fun request =>
    request.url.hostText.map fun host => (lower host, request.url.port)

def KeepsTarget (s : Service) : Prop :=
  ∀ event target payload, s.converter event target = .ok payload → payload.url = target

variable {s : Service} {destination : Destination} {event : Event}

theorem target?_of_address? {u : Url} (keeps : s.KeepsTarget)
    (named : s.sender.address? destination.channel destination.target event = .ok u) :
    Guard.target? destination.target = .ok u := by
  have reading {target : String} (read : (Guard.target? target).mapError Failure.validation = .ok u) :
      Guard.target? target = .ok u := by
    cases found : Guard.target? target with
    | error objection => rw [found] at read; cases read
    | ok v => rw [found] at read; cases read; rfl
  unfold Sender.address? at named
  split at named
  · split at named
    · cases named
    · next payload made =>
      rw [← keeps _ _ _ made]
      exact reading named
  · exact reading named

theorem target?_of_firstRequest? {request : Request} (keeps : s.KeepsTarget)
    (first : s.firstRequest? destination event = some request) :
    ∃ u, Guard.target? destination.target = .ok u ∧ request.url.SharesOrigin u := by
  unfold firstRequest? at first
  cases named : s.sender.address? destination.channel destination.target event with
  | error failure =>
    rw [Sender.send_of_address?_error _ _ _ _ named] at first
    cases first
  | ok u =>
    refine ⟨u, target?_of_address? keeps named, ?_⟩
    cases s.sender.reviewed_send _ _ _ named s.world with
    | refused _ deeds => rw [deeds] at first; cases first
    | @passed chains _ deeds _ shares =>
      rw [deeds] at first
      cases chains with
      | nil => cases first
      | cons c rest =>
        have is : c.first = request := by simpa [Deed.request?, Chain.requests] using first
        exact is ▸ shares c (by simp)

theorem hostKey_of_contact? {locator : String} {host : List Char} {port : Option Nat}
    (keeps : s.KeepsTarget) (plain : Locator.HasPlainLead (Locator.classify locator).target)
    (contact : s.contact? (Locator.classify locator) event = some (host, port)) :
    (Locator.classify locator).hostKey = String.ofList (host ++ Url.portText port) := by
  obtain ⟨request, first, there⟩ := Option.bind_eq_some_iff.1 contact
  obtain ⟨name, named, same⟩ := Option.map_eq_some_iff.1 there
  cases same
  obtain ⟨u, address, shares⟩ := target?_of_firstRequest? keeps first
  rw [shares.port]
  refine Locator.hostKey_of_plain plain (Locator.endsInInk_classify locator) address ?_
  rw [← named, Url.hostText, Url.hostText, shares.host]

/-- The key is the host and port of the target's address unless a blank beyond ASCII stands before the target;
then it is the text of the target, and the locator is a shorthand for a target with a scheme of its own. But
for these, locators that contact the same host and port first share slots and breaker. -/
theorem hostKey_is_authority (s : Service) (keeps : s.KeepsTarget) :
    (∀ (locator : String) (u : Url) (host : List Char),
      Guard.target? (Locator.classify locator).target = .ok u → u.hostText = some host →
        (Locator.HasPlainLead (Locator.classify locator).target →
          (Locator.classify locator).hostKey = String.ofList (lower host ++ Url.portText u.port)) ∧
        (¬ Locator.HasPlainLead (Locator.classify locator).target →
          (Locator.classify locator).hostKey = trimmed (Locator.classify locator).target ∧
            Locator.NamesScheme locator (Locator.classify locator).target)) ∧
      ∀ (a b : String) (eventA eventB : Event) (place : List Char × Option Nat),
        Locator.HasPlainLead (Locator.classify a).target →
        Locator.HasPlainLead (Locator.classify b).target →
        s.contact? (Locator.classify a) eventA = some place →
        s.contact? (Locator.classify b) eventB = some place →
        (s.job (Locator.classify a) eventA).host = (s.job (Locator.classify b) eventB).host := by
  refine ⟨fun locator u host named there => ⟨fun plain => ?_, fun other => ?_⟩, ?_⟩
  · exact Locator.hostKey_of_plain plain (Locator.endsInInk_classify locator) named there
  · exact ⟨Locator.hostKey_of_lead other, Locator.namesScheme_of_lead other⟩
  · intro a b eventA eventB place plainA plainB contactA contactB
    calc (s.job (Locator.classify a) eventA).host
        = String.ofList (place.1 ++ Url.portText place.2) := hostKey_of_contact? keeps plainA contactA
      _ = (s.job (Locator.classify b) eventB).host := (hostKey_of_contact? keeps plainB contactB).symm

/-- Case, user name, shorthand and blanks make no difference. -/
theorem hostKey_of_two_spellings :
    let s : Service := { world := { guard := fun _ => {}, peer := fun _ _ => none } }
    (s.job (Locator.classify " bark:// https://[2001:db8::1]:8080/key ") (testEvent "a")).host =
      (s.job (Locator.classify "HTTPS://me@[2001:db8::1]:8080\u3000") (testEvent "b")).host :=
  let s : Service := { world := { guard := fun _ => {}, peer := fun _ _ => none } }
  (hostKey_is_authority s fun _ _ _ made => Payload.url_of_ofEvent made).2 _ _ _ _
    ("[2001:db8::1]".toList, some 8080) (by decide +kernel) (by decide +kernel) (by decide +kernel)
    (by decide +kernel)

/-- Two locators that contact the same host first and count for different ones. -/
theorem hostKey_of_wide_blank :
    let s : Service := { world := { guard := fun _ => {}, peer := fun _ _ => none } }
    let wide := Locator.classify "bark://\u3000https://[2001:db8::1]/abc"
    let plain := Locator.classify "bark://[2001:db8::1]/abc"
    (Guard.target? wide.target).toOption.map (fun u => (u.hostText, u.port)) =
        some (some "[2001:db8::1]".toList, none) ∧
      wide.hostKey = "https://[2001:db8::1]/abc" ∧
      s.contact? wide (testEvent "a") = some ("[2001:db8::1]".toList, none) ∧
      s.contact? plain (testEvent "a") = some ("[2001:db8::1]".toList, none) ∧
      (s.job wide (testEvent "a")).host ≠ (s.job plain (testEvent "a")).host := by
  decide +kernel

end Service

end Herald
