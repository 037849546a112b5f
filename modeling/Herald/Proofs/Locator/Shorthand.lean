import Herald.Locator
import Herald.Proofs.Guard
import Herald.Proofs.Text.Phrase

/-! Where shorthands lead. A shorthand names its channel, and what stands behind the name is reached over https
unless it has a scheme of its own. The scheme is not looked for at the start, though: the mark of one anywhere
in the text counts. A shorthand whose path or query holds a link is therefore left without a scheme, and its
target names no address. -/
namespace Herald

open Herald.Text

/-- The text begins with a scheme: a letter, then letters, digits and three marks, a colon and two slashes. -/
def Url.BeginsWithScheme (s : List Char) : Prop :=
  ∃ first name rest, s = first :: name ++ "://".toList ++ rest ∧ first.isAlpha = true ∧
    ∀ c ∈ name, isSchemeChar c = true

namespace Url

theorem BeginsWithScheme.marked {s : List Char} (begins : BeginsWithScheme s) : "://".toList <:+: s := by
  obtain ⟨first, name, rest, rfl, -, -⟩ := begins
  exact ⟨first :: name, rest, rfl⟩

theorem BeginsWithScheme.isSome_scheme? {s : List Char} (begins : BeginsWithScheme s) :
    (scheme? s).isSome = true := by
  obtain ⟨first, name, rest, rfl, letter, all⟩ := begins
  have whole : ∀ c ∈ first :: name, isSchemeChar c = true :=
    List.forall_mem_cons.2 ⟨by simp [isSchemeChar, Char.isAlphanum, letter], all⟩
  obtain ⟨taken, left⟩ := span_append_cons (c := ':') whole (by decide) ('/' :: '/' :: rest)
  have text : first :: name ++ "://".toList ++ rest = first :: name ++ ':' :: '/' :: '/' :: rest := by simp
  rw [text]
  simp only [scheme?, taken, left]
  simp [letter]

theorem scheme?_of_barred {a b : List Char} {c : Char} (absent : ':' ∉ a) (other : c ≠ ':')
    (stop : isSchemeChar c = false) : scheme? (a ++ c :: b) = none := by
  have left := dropWhile_append_cons stop a b
  unfold scheme?
  split
  · next rest found =>
    rw [left] at found
    cases dropped : a.dropWhile isSchemeChar with
    | nil =>
      rw [dropped] at found
      exact absurd (List.cons.inj found).1 other
    | cons d r =>
      rw [dropped] at found
      have mem : d ∈ a := (List.dropWhile_sublist _).subset (dropped ▸ List.mem_cons_self)
      exact absurd ((List.cons.inj found).1 ▸ mem) absent
  · rfl

theorem exists_stripped_append_cons {c : Char} (printed : 0x20 < c.toNat) (a b : List Char) :
    ∃ a' b', stripped (a ++ c :: b) = a' ++ c :: b' ∧ a' ⊆ a := by
  have stop : (fun d : Char => decide (d.toNat ≤ 0x20)) c = false := by simp [printed]
  have different (d : Char) (small : d.toNat ≤ 0x20) : c ≠ d := by
    rintro rfl
    omega
  have kept : (c != '\t' && c != '\n' && c.toNat != 13) = true := by
    simp [different '\t' (by decide), different '\n' (by decide), show c.toNat ≠ 13 by omega]
  simp only [stripped]
  rw [ends_append_cons stop, List.filter_append, List.filter_cons, if_pos kept]
  exact ⟨_, _, rfl, (List.filter_sublist.trans (List.dropWhile_sublist _)).subset⟩

end Url

namespace Locator

def shorthands : List (List Char × Channel) := [(weComLead, .weCom), (barkLead, .bark)]

def hostEnds : List Char := "/?#".toList

theorem withScheme_of_marked {rest : List Char} (has : "://".toList <:+: rest) : withScheme rest = rest := by
  rw [withScheme, contains_iff.2 has, Bool.or_true, if_pos rfl]

theorem withScheme_of_unmarked {rest : List Char} (there : rest ≠ []) (has : ¬ "://".toList <:+: rest) :
    withScheme rest = "https://".toList ++ rest := by
  rw [← contains_iff, Bool.not_eq_true] at has
  rw [withScheme, has, Bool.or_false, if_neg (by simpa using there)]

variable {locator : String} {lead rest : List Char} {channel : Channel}

theorem classify_of_lead (known : (lead, channel) ∈ shorthands) (text : trim locator.toList = lead ++ rest) :
    classify locator = ⟨channel, String.ofList (withScheme rest)⟩ := by
  have found : classifyText locator.toList = (channel, withScheme rest) := by
    simp only [shorthands, List.mem_cons, List.not_mem_nil, or_false, Prod.mk.injEq] at known
    simp only [classifyText, text]
    obtain ⟨rfl, rfl⟩ | ⟨rfl, rfl⟩ := known
    · rw [dropLead_eq_some_iff.2 rfl]
    · have other : dropLead weComLead (barkLead ++ rest) = none := rfl
      rw [other, dropLead_eq_some_iff.2 rfl]
  rw [classify, found]

theorem of_mem_hostEnds {c : Char} (known : c ∈ hostEnds) :
    0x20 < c.toNat ∧ isBlank c = false ∧ Url.isSchemeChar c = false ∧ c ≠ ':' := by
  have listed : c = '/' ∨ c = '?' ∨ c = '#' := by simpa [hostEnds] using known
  obtain rfl | rfl | rfl := listed <;> decide

theorem target?_of_hostEnd {host tail : List Char} {c : Char} (absent : ':' ∉ host) (known : c ∈ hostEnds) :
    Guard.target? (String.ofList (host ++ c :: tail)) = .error (.badTarget .relativeWithoutBase) := by
  obtain ⟨printed, ink, stop, other⟩ := of_mem_hostEnds known
  have notBlank : allBlank (String.ofList (host ++ c :: tail)) = false := by
    rw [allBlank, String.toList_ofList, List.all_append, List.all_cons, ink, Bool.false_and, Bool.and_false]
  have trimmed : trim (host ++ c :: tail) = _ := ends_append_cons ink host tail
  obtain ⟨a, b, stripped, part⟩ := Url.exists_stripped_append_cons printed (host.dropWhile isBlank)
    (tail.reverse.dropWhile isBlank).reverse
  have none_ : Url.scheme? (a ++ c :: b) = none :=
    Url.scheme?_of_barred (fun mem => absent ((List.dropWhile_sublist _).subset (part mem))) other stop
  rw [Guard.target?, notBlank, String.toList_ofList, trimmed, Url.parse, stripped, none_]
  rfl

theorem not_beginsWithScheme_of_hostEnd {host tail : List Char} {c : Char} (absent : ':' ∉ host)
    (known : c ∈ hostEnds) : ¬ Url.BeginsWithScheme (host ++ c :: tail) := by
  obtain ⟨-, -, stop, other⟩ := of_mem_hostEnds known
  intro begins
  have some_ := begins.isSome_scheme?
  rw [Url.scheme?_of_barred absent other stop] at some_
  cases some_

/-- Where the mark of a scheme is not in the text, it is reached over https, and its target names an address
exactly if that is one. Where the mark is in it, the text is the target as it stands, whether it begins with a
scheme or not; if its host is followed by a path, a query or a fragment first, it names no address. -/
theorem classify_of_shorthand (known : (lead, channel) ∈ shorthands)
    (text : trim locator.toList = lead ++ rest) (there : rest ≠ []) :
    (classify locator).channel = channel ∧
      (Url.BeginsWithScheme rest → (classify locator).target.toList = rest) ∧
      (¬ "://".toList <:+: rest → (classify locator).target.toList = "https://".toList ++ rest ∧
        ∀ u, Guard.target? (classify locator).target = .ok u ↔ Url.parse ("https://".toList ++ rest) = .ok u) ∧
      ("://".toList <:+: rest → (classify locator).target.toList = rest ∧
        ∀ host c tail, rest = host ++ c :: tail → ':' ∉ host → c ∈ hostEnds →
          ¬ Url.BeginsWithScheme rest ∧
            Guard.target? (classify locator).target = .error (.badTarget .relativeWithoutBase)) := by
  have found := classify_of_lead known text
  refine ⟨by rw [found], fun begins => ?_, fun apart => ?_, fun inside => ?_⟩
  · rw [found, String.toList_ofList, withScheme_of_marked begins.marked]
  · have ends : EndsInInk ("https://".toList ++ rest) :=
      (EndsInInk.of_append (text ▸ endsInInk_trim locator.toList)).append there
    have trimmed : trim ("https://".toList ++ rest) = "https://".toList ++ rest :=
      (trim_eq_self_iff _).2 ⟨stops_cons.2 (by decide), ends⟩
    rw [found, String.toList_ofList, withScheme_of_unmarked there apart]
    refine ⟨rfl, fun u => ?_⟩
    rw [Guard.target?_eq_ok_iff, String.toList_ofList, trimmed]
  · rw [found, String.toList_ofList, withScheme_of_marked inside]
    refine ⟨rfl, ?_⟩
    rintro host c tail rfl absent known
    exact ⟨not_beginsWithScheme_of_hostEnd absent known, target?_of_hostEnd absent known⟩

/-- A port, a query and a fragment are kept, and so are blanks behind the name of the channel. -/
theorem classify_of_port :
    (classify " wecom:// a.example:8443/k?q=1#c ").target.toList = "https:// a.example:8443/k?q=1#c".toList :=
  ((@classify_of_shorthand _ weComLead " a.example:8443/k?q=1#c".toList .weCom
    (by decide) (by decide) (by decide)).2.2.1 (by rw [← contains_iff]; decide)).1

/-- A link in the query leaves the target without a scheme, so that nothing can be delivered. -/
theorem classify_of_link :
    let rest := "[2001:db8::1]/AbCdEfGhIjKlMnOp1234?icon=https://a.example/i.png"
    trim ("bark://" ++ rest).toList = barkLead ++ rest.toList ∧
      ¬ Url.BeginsWithScheme rest.toList ∧
      (classify ("bark://" ++ rest)).target ≠ "https://" ++ rest ∧
      (Guard.target? ("https://" ++ rest)).toOption.isSome ∧
      Guard.target? (classify ("bark://" ++ rest)).target = .error (.badTarget .relativeWithoutBase) := by
  refine ⟨by decide, fun begins => ?_, by decide +kernel, by decide +kernel, by decide +kernel⟩
  exact absurd begins.isSome_scheme? (by decide)

end Locator

end Herald
