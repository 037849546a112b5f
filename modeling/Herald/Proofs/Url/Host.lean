import Herald.Url.Parser

/-! Hosts that come out of reading web addresses. Whatever spelling an address had, the host that is read
is that address as a literal; a host that is still a name spells no address. The same holds of an address
that was read relative to another one. -/
namespace Herald

open Herald.Text Herald.Net

/-- Nothing is left to read in a host: a name is not empty and spells no narrow address. -/
def Host.IsSettled : Host → Prop
  | .literal _ => True
  | .domain name => name ≠ [] ∧ Url.spelledIpv4? name = none

namespace Url

def IsSettled (u : Url) : Prop := u.family = .web → ∃ h, u.host = some h ∧ h.IsSettled

theorem IsSettled.congr {u v : Url} (h : u.IsSettled) (scheme : v.scheme = u.scheme)
    (host : v.host = u.host) : v.IsSettled := by
  unfold IsSettled family at h ⊢
  rwa [scheme, host]

theorem getLast?_of_mapM {parts : List (List Char)} {numbers : List Nat} {n : Nat}
    (spelled : parts.mapM spelledNumber? = some numbers) (last : numbers.getLast? = some n) :
    ∃ part, parts.getLast? = some part ∧ spelledNumber? part = some n := by
  induction parts generalizing numbers with
  | nil => cases spelled; cases last
  | cons part rest ih =>
    simp only [List.mapM_cons, Option.pure_def, Option.bind_eq_bind,
      Option.bind_eq_some_iff] at spelled
    obtain ⟨m, value, more, spelled, made⟩ := spelled
    cases made
    cases rest with
    | nil => cases spelled; cases last; exact ⟨part, rfl, value⟩
    | cons next rest =>
      cases more with
      | nil =>
        simp only [List.mapM_cons, Option.pure_def, Option.bind_eq_bind,
          Option.bind_eq_some_iff] at spelled
        obtain ⟨_, _, _, _, absurd⟩ := spelled
        cases absurd
      | cons k more =>
        obtain ⟨found, atEnd, h⟩ := ih spelled (by simpa using last)
        exact ⟨found, by simpa using atEnd, h⟩

theorem lastLabel_of_getLast? {labels : List (List Char)} {part : List Char}
    (h : (if labels.getLast? = some [] then labels.dropLast else labels).getLast? = some part) :
    lastLabel labels = part := by
  rcases List.eq_nil_or_concat labels with rfl | ⟨init, last, rfl⟩
  · cases h
  · cases last with
    | cons c r => simpa [lastLabel] using h
    | nil =>
      rcases List.eq_nil_or_concat init with rfl | ⟨init, before, rfl⟩
      · simp at h
      · simpa [lastLabel] using h

theorem endsInNumber_of_spelledIpv4? {name : List Char} {bits : BitVec 32}
    (h : spelledIpv4? name = some bits) : endsInNumber name = true := by
  simp only [spelledIpv4?, Option.bind_eq_bind, Option.bind_eq_some_iff] at h
  obtain ⟨numbers, spelled, n, last, -⟩ := h
  obtain ⟨part, atEnd, value⟩ := getLast?_of_mapM spelled last
  have same : lastLabel (splitAt '.' name) = part := lastLabel_of_getLast? atEnd
  simp [endsInNumber, same, value]

theorem isSettled_of_parseHost {s : List Char} {h : Host} (parsed : parseHost s = .ok h) :
    h.IsSettled := by
  unfold parseHost at parsed
  split at parsed
  · split at parsed <;> cases parsed
    trivial
  · split at parsed
    · cases parsed
    · next name _ =>
      split at parsed
      · cases parsed
      · next nonempty =>
        split at parsed
        · split at parsed <;> cases parsed
          trivial
        · next plain =>
          cases parsed
          refine ⟨nonempty, ?_⟩
          cases spelled : spelledIpv4? name with
          | none => rfl
          | some bits => exact absurd (endsInNumber_of_spelledIpv4? spelled) plain

theorem host_of_readAuthority {scheme text rest : List Char} {a : Authority}
    (web : Family.ofScheme scheme = .web) (read : readAuthority scheme text = .ok (a, rest)) :
    ∃ h, a.host = some h ∧ h.IsSettled := by
  have special : (Family.ofScheme scheme).isSpecial = true := by rw [web]; rfl
  simp only [readAuthority, special, Bool.true_or, if_true, bind, Except.bind, throw, throwThe,
    MonadExceptOf.throw, pure, Except.pure] at read
  split at read
  · cases read
  · split at read
    · cases read
    · split at read
      · cases read
      · next h parsed =>
        have settled : h.IsSettled := isSettled_of_parseHost parsed
        split at read
        · split at read <;> cases read
          exact ⟨h, rfl, settled⟩
        · cases read
          exact ⟨h, rfl, settled⟩

@[simp] theorem scheme_withSuffix (u : Url) (text : List Char) :
    (withSuffix u text).scheme = u.scheme := rfl

@[simp] theorem host_withSuffix (u : Url) (text : List Char) :
    (withSuffix u text).host = u.host := rfl

theorem isSettled_of_afterSlashes {scheme text : List Char} {u : Url}
    (read : afterSlashes scheme text = .ok u) : u.scheme = scheme ∧ u.IsSettled := by
  simp only [afterSlashes, bind, Except.bind, pure, Except.pure] at read
  split at read
  · cases read
  · next authority found =>
    cases read
    refine ⟨rfl, fun web => ?_⟩
    exact host_of_readAuthority web found

theorem scheme_of_readFile {scheme text : List Char} {u : Url}
    (read : readFile scheme text = .ok u) : u.scheme = scheme := by
  simp only [readFile, bind, Except.bind, pure, Except.pure] at read
  split at read
  · split at read
    · split at read
      · cases read; rfl
      · split at read
        · cases read; rfl
        · split at read
          · cases read
          · cases read; rfl
    · split at read <;> cases read <;> rfl
  · cases read; rfl
  · cases read; rfl

theorem scheme_of_readOther {scheme text : List Char} {u : Url}
    (read : readOther scheme text = .ok u) : u.scheme = scheme := by
  unfold readOther at read
  split at read
  · exact (isSettled_of_afterSlashes read).1
  · cases read; rfl
  · cases read; rfl

theorem isSettled_of_readWithScheme {scheme text : List Char} {u : Url}
    (read : readWithScheme scheme text = .ok u) : u.IsSettled := by
  unfold readWithScheme at read
  split at read
  · exact (isSettled_of_afterSlashes read).2
  · next file =>
    intro web
    rw [family, scheme_of_readFile read, file] at web
    cases web
  · next other =>
    intro web
    rw [family, scheme_of_readOther read, other] at web
    cases web

theorem isSettled_of_parse {s : List Char} {u : Url} (parsed : parse s = .ok u) :
    u.IsSettled := by
  simp only [parse] at parsed
  split at parsed
  · exact isSettled_of_readWithScheme parsed
  · cases parsed

theorem isSettled_of_readRelative {base u : Url} {text : List Char} (settled : base.IsSettled)
    (read : readRelative base text = .ok u) : u.IsSettled := by
  unfold readRelative at read
  split at read
  · cases read; exact settled.congr rfl rfl
  · cases read; exact settled.congr rfl rfl
  · cases read; exact settled.congr rfl rfl
  · split at read
    · split at read
      · split at read
        · split at read <;> exact (isSettled_of_afterSlashes read).2
        · exact (isSettled_of_afterSlashes read).2
      · cases read; exact settled.congr rfl rfl
    · cases read; exact settled.congr rfl rfl

theorem isSettled_of_join {base u : Url} {text : List Char} (settled : base.IsSettled)
    (joined : join base text = .ok u) : u.IsSettled := by
  simp only [join] at joined
  split at joined
  · split at joined
    · exact isSettled_of_readRelative settled joined
    · exact isSettled_of_readWithScheme joined
  · exact isSettled_of_readRelative settled joined

end Url

end Herald
