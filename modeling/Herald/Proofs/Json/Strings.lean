import Herald.Json.Skip
import Herald.Proofs.Json.Gives
import Herald.Proofs.Json.Grammar

/-! The readers of strings take what the grammar says, and nothing else. A string that is passed over need not stand
for a text. -/
namespace Herald.Json

open Herald.Text

theorem length_take_le_encode (n : Nat) (s : List Char) : (s.take n).length ≤ (Utf8.encode (s.take n)).length := by
  induction s.take n with
  | nil => simp
  | cons c s ih =>
    have some_ : 0 < (Utf8.encodeChar c).length := by unfold Utf8.encodeChar; grind
    simp only [Utf8.encode, List.flatMap_cons, List.length_append, List.length_cons] at ih ⊢
    omega

theorem hexQuad_eq_ok_iff {s r : List Char} {n : Nat} :
    hexQuad s = .ok (n, r) ↔ ∃ a b c d, s = a :: b :: c :: d :: r ∧ quad? a b c d = some n := by
  constructor
  · intro read
    unfold hexQuad at read
    split at read
    · cases read
    · split at read
      · next a b c d rest _ =>
        refine ⟨a, b, c, d, ?_⟩
        unfold quad?
        split at read
        · obtain ⟨rfl, rfl⟩ := Prod.mk.inj (Except.ok.inj read)
          exact ⟨rfl, by simp [*]⟩
        · cases read
      · cases read
  · rintro ⟨a, b, c, d, rfl, is⟩
    have long := length_take_le_encode 4 (a :: b :: c :: d :: r)
    have enough : ¬ (Utf8.encode ((a :: b :: c :: d :: r).take 4)).length < 4 := by
      simp only [List.take_succ_cons, List.take_zero, List.length_cons, List.length_nil] at long ⊢
      omega
    rw [hexQuad, if_neg enough]
    unfold quad? at is
    split at is
    · cases is
      simp [*]
    · cases is

theorem hexQuad_of_quad? {a b c d : Char} {n : Nat} (value : quad? a b c d = some n) (r : List Char) :
    hexQuad (a :: b :: c :: d :: r) = .ok (n, r) := hexQuad_eq_ok_iff.2 ⟨a, b, c, d, rfl, value⟩

theorem codePoint_eq_ok_iff {s r : List Char} {c : Char} : codePoint s = .ok (c, r) ↔
    ∃ n t, hexQuad s = .ok (n, t) ∧ (¬ IsSurrogate n ∧ c = Char.ofNat n ∧ r = t ∨
      IsSurrogate n ∧ ∃ low u, t = '\\' :: 'u' :: u ∧ hexQuad u = .ok (low, r) ∧ IsPair n low ∧
        c = pairValue n low) := by
  unfold codePoint
  cases first : hexQuad s with
  | error f => simp [bind, Except.bind]
  | ok read =>
    obtain ⟨n, t⟩ := read
    simp only [bind, Except.bind, Except.ok.injEq, Prod.mk.injEq]
    constructor
    · intro made
      refine ⟨n, t, ⟨rfl, rfl⟩, ?_⟩
      split at made
      · cases made
      · split at made
        · cases made
          left
          refine ⟨?_, rfl, rfl⟩
          unfold IsSurrogate; omega
        · right
          refine ⟨by unfold IsSurrogate; omega, ?_⟩
          split at made
          · cases made
          · split at made
            · cases made
            · next second =>
              split at made
              · cases made
              · have both := Prod.mk.inj (Except.ok.inj made)
                exact ⟨_, _, rfl, both.2 ▸ second, by unfold IsPair; omega, both.1.symm⟩
          · cases made
          · cases made
          · cases made
    · rintro ⟨_, _, ⟨rfl, rfl⟩, ⟨plain, rfl, rfl⟩ | ⟨high, low, u, rfl, second, pair, is⟩⟩
      · unfold IsSurrogate at plain
        rw [if_neg (by omega), if_pos (by omega)]
        rfl
      · unfold IsSurrogate at high
        unfold IsPair at pair
        rw [if_neg (by omega), if_neg (by omega)]
        simp only [second]
        rw [if_neg (by omega), is]
        rfl

theorem escape_cons_eq_ok_iff {l c : Char} {s r : List Char} : escape (l :: s) = .ok (c, r) ↔
    letter? l = some c ∧ s = r ∨ l = 'u' ∧ codePoint s = .ok (c, r) := by
  unfold escape letter?
  dsimp only
  split <;> simp_all

theorem quoted_of_stringWith {fuel : Nat} {s cs r : List Char} (read : stringWith fuel s = .ok (cs, r)) :
    ∃ pieces, Quoted s pieces r ∧ textOf pieces = some cs := by
  induction fuel generalizing s cs with
  | zero => cases read
  | succ fuel ih =>
    unfold stringWith at read
    split at read
    · cases read
    · cases read
      exact ⟨[], .close, rfl⟩
    · next t =>
      obtain ⟨⟨c, u⟩, escaped, read⟩ := bind_eq_ok_iff.1 read
      obtain ⟨⟨ds, v⟩, others, read⟩ := bind_eq_ok_iff.1 read
      obtain ⟨rfl, rfl⟩ := Prod.mk.inj (Except.ok.inj read)
      obtain ⟨pieces, quoted, text⟩ := ih others
      cases t with
      | nil => cases escaped
      | cons l t =>
        rcases escape_cons_eq_ok_iff.1 escaped with ⟨known, rfl⟩ | ⟨rfl, point⟩
        · exact ⟨.char c :: pieces, .letter known quoted, by simp [textOf, text]⟩
        · obtain ⟨n, w, first, ⟨plain, rfl, rfl⟩ | ⟨surrogate, low, x, rfl, second, pair, is⟩⟩ :=
            codePoint_eq_ok_iff.1 point
          · obtain ⟨a, b, c, d, rfl, value⟩ := hexQuad_eq_ok_iff.1 first
            exact ⟨.unit n :: pieces, .unit value quoted, by rw [textOf_unit plain, text]; rfl⟩
          · obtain ⟨a, b, c, d, rfl, value⟩ := hexQuad_eq_ok_iff.1 first
            obtain ⟨_, _, _, _, rfl, lowValue⟩ := hexQuad_eq_ok_iff.1 second
            exact ⟨.unit n :: .unit low :: pieces, .unit value (.unit lowValue quoted),
              by rw [textOf_pair surrogate pair, text, is]; rfl⟩
    · next c t quote backslash =>
      split at read
      · cases read
      · next large =>
        obtain ⟨⟨ds, v⟩, others, read⟩ := bind_eq_ok_iff.1 read
        obtain ⟨rfl, rfl⟩ := Prod.mk.inj (Except.ok.inj read)
        obtain ⟨pieces, quoted, text⟩ := ih others
        exact ⟨.char c :: pieces, .plain quote backslash (Nat.le_of_not_lt large) quoted, by simp [textOf, text]⟩

theorem stringWith_of_quoted {fuel : Nat} {s cs r : List Char} {pieces : List Piece} (quoted : Quoted s pieces r)
    (text : textOf pieces = some cs) (enough : s.length < fuel) : stringWith fuel s = .ok (cs, r) := by
  induction fuel generalizing s cs pieces with
  | zero => cases enough
  | succ fuel ih =>
    have escaped {t u ds : List Char} {c : Char} {pieces : List Piece} (reads : escape t = .ok (c, u))
        (quoted : Quoted u pieces r) (text : textOf pieces = some ds) (enough : u.length < fuel) :
        stringWith (fuel + 1) ('\\' :: t) = .ok (c :: ds, r) := by
      simp only [stringWith, reads, bind, Except.bind, ih quoted text enough, pure, Except.pure]
    cases quoted with
    | close =>
      cases text
      rfl
    | @plain c t _ pieces quote backslash large quoted =>
      obtain ⟨ds, rest, rfl⟩ := Option.map_eq_some_iff.1 text
      have others := ih quoted rest (Nat.lt_of_succ_lt_succ enough)
      simp [stringWith, Nat.not_lt.2 large, others, bind, Except.bind, pure, Except.pure]
    | letter known quoted =>
      obtain ⟨ds, rest, rfl⟩ := Option.map_eq_some_iff.1 text
      exact escaped (escape_cons_eq_ok_iff.2 (.inl ⟨known, rfl⟩)) quoted rest
        (Nat.lt_of_succ_lt (Nat.lt_of_succ_lt_succ enough))
    | @unit a b c d n t _ pieces value quoted =>
      have first := hexQuad_of_quad? value t
      simp only [List.length_cons] at enough
      rw [textOf.eq_def] at text
      dsimp only at text
      split at text
      · next plain =>
        obtain ⟨ds, rest, rfl⟩ := Option.map_eq_some_iff.1 text
        have point := codePoint_eq_ok_iff.2 ⟨n, t, first, .inl ⟨plain, rfl, rfl⟩⟩
        exact escaped (escape_cons_eq_ok_iff.2 (.inr ⟨rfl, point⟩)) quoted rest (by omega)
      · next surrogate =>
        split at text
        · next low pieces =>
          split at text
          · next pair =>
            obtain ⟨ds, rest, rfl⟩ := Option.map_eq_some_iff.1 text
            cases quoted with
            | @unit _ _ _ _ _ u _ _ lowValue quoted =>
              have second := hexQuad_of_quad? lowValue u
              have point := codePoint_eq_ok_iff.2
                ⟨n, _, first, .inr ⟨Decidable.of_not_not surrogate, low, _, rfl, second, pair, rfl⟩⟩
              simp only [List.length_cons] at enough
              exact escaped (escape_cons_eq_ok_iff.2 (.inr ⟨rfl, point⟩)) quoted rest (by omega)
          · cases text
        · cases text

theorem string_eq_ok_iff {s cs r : List Char} :
    string s = .ok (cs, r) ↔ ∃ pieces, Quoted s pieces r ∧ textOf pieces = some cs := by
  constructor
  · exact quoted_of_stringWith
  · rintro ⟨pieces, quoted, text⟩
    exact stringWith_of_quoted quoted text (Nat.lt_succ_self _)

theorem contains_letters (c : Char) : "\x22\\/bfnrt".toList.contains c = (letter? c).isSome := by
  unfold letter?
  split <;> simp_all

theorem quoted_of_skipString {fuel : Nat} {s r : List Char} (read : skipString fuel s = .ok r) :
    ∃ pieces, Quoted s pieces r := by
  induction fuel generalizing s with
  | zero => cases read
  | succ fuel ih =>
    unfold skipString at read
    split at read
    · cases read
    · cases read
      exact ⟨[], .close⟩
    · cases read
    · obtain ⟨⟨n, t⟩, first, others⟩ := bind_eq_ok_iff.1 read
      obtain ⟨pieces, quoted⟩ := ih others
      obtain ⟨a, b, c, d, rfl, value⟩ := hexQuad_eq_ok_iff.1 first
      exact ⟨.unit n :: pieces, .unit value quoted⟩
    · split at read
      · next known =>
        rw [contains_letters] at known
        obtain ⟨d, known⟩ := Option.isSome_iff_exists.1 known
        obtain ⟨pieces, quoted⟩ := ih read
        exact ⟨.char d :: pieces, .letter known quoted⟩
      · cases read
    · next c t quote alone unit escaped =>
      split at read
      · cases read
      · next large =>
        obtain ⟨pieces, quoted⟩ := ih read
        refine ⟨.char c :: pieces, .plain quote ?_ (Nat.le_of_not_lt large) quoted⟩
        rintro rfl
        cases t with
        | nil => exact alone rfl rfl
        | cons d t => exact escaped d t rfl rfl

theorem skipString_of_quoted {fuel : Nat} {s r : List Char} {pieces : List Piece} (quoted : Quoted s pieces r)
    (enough : s.length < fuel) : skipString fuel s = .ok r := by
  induction quoted generalizing fuel with
  | close =>
    obtain ⟨fuel, rfl⟩ := Nat.exists_eq_add_one.2 (Nat.zero_lt_of_lt enough)
    rfl
  | plain quote backslash large _ ih =>
    obtain ⟨fuel, rfl⟩ := Nat.exists_eq_add_one.2 (Nat.zero_lt_of_lt enough)
    simp [skipString, backslash, Nat.not_lt.2 large, ih (Nat.lt_of_succ_lt_succ enough)]
  | @letter c d s r pieces known _ ih =>
    obtain ⟨fuel, rfl⟩ := Nat.exists_eq_add_one.2 (Nat.zero_lt_of_lt enough)
    have found : "\x22\\/bfnrt".toList.contains c = true := by rw [contains_letters, known]; rfl
    have other : c ≠ 'u' := by rintro rfl; cases known
    rw [skipString.eq_6 _ _ _ (by simpa using other), if_pos found]
    exact ih (Nat.lt_of_succ_lt (Nat.lt_of_succ_lt_succ enough))
  | unit value _ ih =>
    obtain ⟨fuel, rfl⟩ := Nat.exists_eq_add_one.2 (Nat.zero_lt_of_lt enough)
    simp only [skipString, hexQuad_of_quad? value, bind, Except.bind]
    refine ih ?_
    simp only [List.length_cons] at enough
    omega

theorem skipString_eq_ok_iff {s r : List Char} :
    skipString (s.length + 1) s = .ok r ↔ ∃ pieces, Quoted s pieces r := by
  constructor
  · exact quoted_of_skipString
  · rintro ⟨pieces, quoted⟩
    exact skipString_of_quoted quoted (Nat.lt_succ_self _)

end Herald.Json
