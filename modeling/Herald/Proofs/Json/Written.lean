import Herald.Json.Record
import Herald.Json.Writer
import Herald.Proofs.Text.Blank
import Herald.Proofs.Text.Numeral

/-! Written values are read back. A reader that stands at a written value gives that value and stops behind
it, whatever follows, as long as it does not look like more of a number; inside lists and records a comma or
a bracket follows. -/
namespace Herald.Json

open Herald.Text

variable {α β δ : Type}

def Follows (rest : List Char) : Prop := ∀ c, rest.head? = some c → c ∈ [',', ']', '\x7d']

theorem follows_nil : Follows [] := by simp [Follows]

theorem follows_cons {c : Char} (known : c ∈ [',', ']', '\x7d']) (r : List Char) : Follows (c :: r) := by
  rintro d found
  cases found
  exact known

/-- A text that a reader reads as a value. It starts neither with a blank nor as null or the end of a list. -/
structure Writes (reader : Reader α) (written : List Char) (value : α) : Prop where
  starts : ∃ c r, written = c :: r ∧ isSpace c = false ∧ c ≠ 'n' ∧ c ≠ ']'
  reads : ∀ rest, Follows rest → reader (written ++ rest) = .ok (value, rest)

theorem hexQuad_of_small {n : Nat} (small : n < 256) (rest : List Char) :
    hexQuad ('0' :: '0' :: Nat.digitChar (n / 16) :: Nat.digitChar (n % 16) :: rest) = .ok (n, rest) := by
  have digit : ∀ d < 16, Percent.hexValue? (Nat.digitChar d) = some d ∧
      (Utf8.encodeChar (Nat.digitChar d)).length = 1 := by decide
  have zero : Percent.hexValue? '0' = some 0 ∧ (Utf8.encodeChar '0').length = 1 := by decide
  have high := digit (n / 16) (by omega)
  have low := digit (n % 16) (by omega)
  have long : ¬ (Utf8.encode ['0', '0', Nat.digitChar (n / 16), Nat.digitChar (n % 16)]).length < 4 := by
    simp [Utf8.encode, zero.2, high.2, low.2]
  simp only [hexQuad, List.take_succ_cons, List.take_zero, long, if_false, zero.1, high.1, low.1]
  congr 2
  omega

theorem escape_of_small {c : Char} (small : c.toNat < 0x20) (rest : List Char) :
    escape ('u' :: '0' :: '0' :: Nat.digitChar (c.toNat / 16) :: Nat.digitChar (c.toNat % 16) :: rest) =
      .ok (c, rest) := by
  have low : ¬ (0xDC00 ≤ c.toNat ∧ c.toNat ≤ 0xDFFF) := by omega
  have high : c.toNat < 0xD800 ∨ 0xDBFF < c.toNat := by omega
  simp only [escape, codePoint, hexQuad_of_small (show c.toNat < 256 by omega) rest, bind, Except.bind, low,
    high, if_true, if_false, pure, Except.pure, Char.ofNat_toNat]

theorem stringWith_writeChar (c : Char) {s cs r : List Char} {fuel : Nat}
    (read : stringWith fuel s = .ok (cs, r)) :
    stringWith (fuel + 1) (writeChar c ++ s) = .ok (c :: cs, r) := by
  have escaped {t : List Char} (known : escape t = .ok (c, s)) :
      stringWith (fuel + 1) ('\\' :: t) = .ok (c :: cs, r) := by
    simp only [stringWith, known, bind, Except.bind, read, pure, Except.pure]
  have is {n : Nat} (same : c.toNat = n) : c = Char.ofNat n := same ▸ (Char.ofNat_toNat c).symm
  unfold writeChar
  split
  · next same => exact escaped (by rw [is same]; rfl)
  · next same => exact escaped (by rw [is same]; rfl)
  · next same => exact escaped (by rw [is same]; rfl)
  · next same => exact escaped (by rw [is same]; rfl)
  · next same => exact escaped (by rw [is same]; rfl)
  · next same => exact escaped (by rw [is same]; rfl)
  · next same => exact escaped (by rw [is same]; rfl)
  · next quote backslash =>
    split
    · next small => exact escaped (escape_of_small small s)
    · next large =>
      have quote : c ≠ '\x22' := fun same => quote (same ▸ rfl)
      have backslash : c ≠ '\\' := fun same => backslash (same ▸ rfl)
      simp [stringWith, large, read, bind, Except.bind, pure, Except.pure]

theorem stringWith_writeText (s rest : List Char) {fuel : Nat} (enough : s.length < fuel) :
    stringWith fuel (s.flatMap writeChar ++ '\x22' :: rest) = .ok (s, rest) := by
  induction s generalizing fuel with
  | nil =>
    obtain ⟨fuel, rfl⟩ := Nat.exists_eq_add_one.2 enough
    rfl
  | cons c s ih =>
    obtain ⟨fuel, rfl⟩ := Nat.exists_eq_add_one.2 (Nat.zero_lt_of_lt enough)
    rw [List.flatMap_cons, List.append_assoc]
    exact stringWith_writeChar c (ih (Nat.lt_of_succ_lt_succ enough))

theorem length_writeChar_pos (c : Char) : 0 < (writeChar c).length := by
  unfold writeChar
  split <;> try simp
  split <;> simp

theorem string_writeText (s rest : List Char) :
    string (s.flatMap writeChar ++ '\x22' :: rest) = .ok (s, rest) := by
  refine stringWith_writeText s rest ?_
  have long : s.length ≤ (s.flatMap writeChar).length := by
    induction s with
    | nil => simp
    | cons c s ih =>
      have := length_writeChar_pos c
      simp only [List.flatMap_cons, List.length_append, List.length_cons]
      omega
  simp only [List.length_append, List.length_cons]
  omega

theorem writes_textWith {expected : String} {accept : List Char → Except Mismatch α} {s : List Char}
    {v : α} (accepted : accept s = .ok v) : Writes (textWith expected accept) (writeText s) v where
  starts := ⟨'\x22', s.flatMap writeChar ++ ['\x22'], rfl, by decide, by decide, by decide⟩
  reads rest _ := by
    have quote : isSpace '\x22' = false := by decide
    simp only [textWith, writeText, List.cons_append, List.append_assoc, List.nil_append,
      skipSpace_of_head quote, string_writeText, accepted, bind, Except.bind, pure, Except.pure]

theorem writes_text (s : String) : Writes text (writeString s) s :=
  writes_textWith (by rw [String.ofList_toList])

theorem writes_boolean (b : Bool) : Writes boolean (writeBool b) b where
  starts := by cases b <;> exact ⟨_, _, rfl, by decide, by decide, by decide⟩
  reads rest _ := by cases b <;> rfl

theorem foldl_addWhole {digits : List Char} {m : Significand} (room : m.full = false)
    (fits : digits.foldl (fun acc c => acc * 10 + digitValue c) m.value < 0x10000000000000000) :
    digits.foldl Significand.addWhole m =
      { m with value := digits.foldl (fun acc c => acc * 10 + digitValue c) m.value } := by
  induction digits generalizing m with
  | nil => rfl
  | cons c digits ih =>
    have grows (start : Nat) (more : List Char) :
        start ≤ more.foldl (fun acc c => acc * 10 + digitValue c) start := by
      induction more generalizing start with
      | nil => exact Nat.le_refl _
      | cons d more ih =>
        have here : start ≤ start * 10 + digitValue d := by omega
        exact Nat.le_trans here (ih _)
    rw [List.foldl_cons] at fits ⊢
    have small := Nat.lt_of_le_of_lt (grows (m.value * 10 + digitValue c) digits) fits
    have added : m.addWhole c = { m with value := m.value * 10 + digitValue c } := by
      simp [Significand.addWhole, room, Nat.not_le.2 small]
    rw [added]
    exact ih (m := { m with value := m.value * 10 + digitValue c }) room fits

theorem Follows.stops {rest : List Char} (follows : Follows rest) : Stops isDigit rest := by
  intro c first
  have known := follows c first
  simp only [List.mem_cons, List.not_mem_nil, or_false] at known
  rcases known with rfl | rfl | rfl <;> decide

theorem numberTail_of_follows {m : Significand} (room : m.full = false) {rest : List Char}
    (follows : Follows rest) : numberTail m true rest = .ok (.natural m.value, rest) := by
  unfold numberTail
  split
  · have known := follows _ rfl
    simp at known
  · have known := follows _ rfl
    simp at known
  · have known := follows _ rfl
    simp at known
  · simp [room]

theorem number_writeNat {n : Nat} (fits : n < 0x10000000000000000) {rest : List Char}
    (follows : Follows rest) : number true (writeNat n ++ rest) = .ok (.natural n, rest) := by
  rcases Nat.eq_zero_or_pos n with rfl | positive
  · have zero : writeNat 0 = ['0'] := by decide
    have plain : (rest.head?.map isDigit).getD false = false := stops_iff.1 follows.stops
    simp only [zero, List.cons_append, List.nil_append, number, plain, Bool.false_eq_true, if_false]
    exact numberTail_of_follows rfl follows
  · have all : ∀ c ∈ natDigits n, isDigit c = true := fun c mem => isDigit_of_mem_natDigits mem
    obtain ⟨taken, left⟩ := span_append all follows.stops
    have opens : number true (natDigits n ++ rest) =
        numberTail (((natDigits n ++ rest).takeWhile isDigit).foldl Significand.addWhole {}) true
          ((natDigits n ++ rest).dropWhile isDigit) := by
      cases found : natDigits n with
      | nil => exact absurd found (natDigits_ne_nil n)
      | cons c r =>
        have digit : isDigit c = true := all c (found ▸ List.mem_cons_self)
        have first : c ≠ '0' := fun zero => head?_natDigits positive (by rw [found, zero]; rfl)
        simp [number, digit]
    have value : (natDigits n).foldl (fun acc c => acc * 10 + digitValue c) 0 = n := valueOf_natDigits n
    have added : (natDigits n).foldl Significand.addWhole {} = { value := n } := by
      rw [foldl_addWhole rfl (by rw [value]; exact fits), value]
    rw [writeNat, opens, taken, left, added]
    exact numberTail_of_follows rfl follows

theorem writes_natural {bound n : Nat} (expected : String) (word : bound ≤ 0x10000000000000000)
    (fits : n < bound) : Writes (natural bound expected) (writeNat n) n := by
  obtain ⟨c, r, found, digit⟩ : ∃ c r, natDigits n = c :: r ∧ isDigit c = true := by
    cases found : natDigits n with
    | nil => exact absurd found (natDigits_ne_nil n)
    | cons c r => exact ⟨c, r, rfl, isDigit_of_mem_natDigits (found ▸ List.mem_cons_self)⟩
  have other (d : Char) (no : isDigit d = false) : c ≠ d := by
    rintro rfl
    rw [digit] at no
    cases no
  have ink : isSpace c = false := by
    have plain : c.toNat ≠ 13 := fun same => other (Char.ofNat 13) (by decide)
      (same ▸ (Char.ofNat_toNat c).symm)
    simp [isSpace, plain, other ' ' (by decide), other '\n' (by decide), other '\t' (by decide)]
  refine ⟨⟨c, r, found, ink, other _ (by decide), other _ (by decide)⟩, fun rest follows => ?_⟩
  have read := number_writeNat (Nat.lt_of_lt_of_le fits word) follows
  have minus : c ≠ '-' := other _ (by decide)
  rw [writeNat, found, List.cons_append] at read ⊢
  simp [natural, numberWith, skipSpace_of_head ink, digit, read, fits]

theorem writes_optional {reader : Reader α} {written : List Char} {v : α}
    (writes : Writes reader written v) : Writes (optional reader) written (some v) := by
  obtain ⟨⟨c, r, rfl, ink, null, close⟩, reads⟩ := writes
  refine ⟨⟨c, r, rfl, ink, null, close⟩, fun rest follows => ?_⟩
  have read := reads rest follows
  rw [List.cons_append] at read ⊢
  simp [optional, skipSpace_of_head ink, null, read, Except.map]

def later (parts : List (List Char)) : List Char := parts.flatMap (',' :: ·)

theorem commas_cons (part : List Char) (parts : List (List Char)) :
    commas (part :: parts) = part ++ later parts := by
  induction parts generalizing part with
  | nil => simp [commas, later]
  | cons next parts ih =>
    rw [commas, ih next]
    · simp [later]
    · simp

theorem follows_later (parts : List (List Char)) {close : Char} (known : close ∈ [',', ']', '\x7d'])
    (rest : List Char) : Follows (later parts ++ close :: rest) := by
  cases parts with
  | nil => exact follows_cons known rest
  | cons part parts => exact follows_cons (by simp) _

theorem length_le_later (parts : List (List Char)) : parts.length ≤ (later parts).length := by
  induction parts with
  | nil => simp
  | cons part parts ih =>
    simp only [later, List.flatMap_cons, List.length_append, List.length_cons] at ih ⊢
    omega

theorem length_le_commas {parts : List (List Char)} (there : ∀ part ∈ parts, part ≠ []) :
    parts.length ≤ (commas parts).length := by
  cases parts with
  | nil => simp
  | cons part parts =>
    have first := List.length_pos_iff.2 (there part List.mem_cons_self)
    have others := length_le_later parts
    rw [commas_cons]
    simp only [List.length_append, List.length_cons]
    omega

theorem Writes.ne_nil {reader : Reader α} {written : List Char} {v : α}
    (writes : Writes reader written v) : written ≠ [] := by
  obtain ⟨c, r, rfl, -⟩ := writes.starts
  simp

theorem nextElement_of_writes {reader : Reader α} {written : List Char} {v : α}
    (writes : Writes reader written v) (rest : List Char) :
    nextElement true (written ++ rest) = .ok (true, written ++ rest) ∧
      nextElement false (',' :: (written ++ rest)) = .ok (true, written ++ rest) := by
  obtain ⟨c, r, rfl, ink, -, close⟩ := writes.starts
  have comma : isSpace ',' = false := by decide
  simp [nextElement, skipSpace_of_head ink, skipSpace_of_head comma, close]

variable {reader : Reader α} {write : α → List Char} {values : List α}

theorem elementsWith_later (writes : ∀ v ∈ values, Writes reader (write v) v) {fuel : Nat}
    (enough : values.length < fuel) (rest : List Char) :
    elementsWith reader fuel false (later (values.map write) ++ ']' :: rest) =
      .ok (values, ']' :: rest) := by
  induction values generalizing fuel with
  | nil =>
    obtain ⟨fuel, rfl⟩ := Nat.exists_eq_add_one.2 enough
    rfl
  | cons v values ih =>
    obtain ⟨fuel, rfl⟩ := Nat.exists_eq_add_one.2 (Nat.zero_lt_of_lt enough)
    have first := writes v List.mem_cons_self
    have others := ih (fun v mem => writes v (List.mem_cons_of_mem _ mem)) (Nat.lt_of_succ_lt_succ enough)
    have read := first.reads (later (values.map write) ++ ']' :: rest) (follows_later _ (by simp) rest)
    have split : later ((v :: values).map write) ++ ']' :: rest =
        ',' :: (write v ++ (later (values.map write) ++ ']' :: rest)) := by
      simp [later]
    rw [split, elementsWith, (nextElement_of_writes first _).2]
    simp only [bind, Except.bind, if_true, read, others, pure, Except.pure]

theorem elementsWith_commas (writes : ∀ v ∈ values, Writes reader (write v) v) {fuel : Nat}
    (enough : values.length < fuel) (rest : List Char) :
    elementsWith reader fuel true (commas (values.map write) ++ ']' :: rest) =
      .ok (values, ']' :: rest) := by
  obtain ⟨fuel, rfl⟩ := Nat.exists_eq_add_one.2 (Nat.zero_lt_of_lt enough)
  cases values with
  | nil => rfl
  | cons v values =>
    have first := writes v List.mem_cons_self
    have others := elementsWith_later (fun v mem => writes v (List.mem_cons_of_mem _ mem))
      (Nat.lt_of_succ_lt_succ enough) rest
    have read := first.reads (later (values.map write) ++ ']' :: rest) (follows_later _ (by simp) rest)
    rw [List.map_cons, commas_cons, List.append_assoc, elementsWith, (nextElement_of_writes first _).1]
    simp only [bind, Except.bind, if_true, read, others, pure, Except.pure]

theorem writes_list (writes : ∀ v ∈ values, Writes reader (write v) v) :
    Writes (list reader) (writeList (values.map write)) values where
  starts := ⟨'[', _, rfl, by decide, by decide, by decide⟩
  reads rest _ := by
    have bracket : isSpace '[' = false := by decide
    have close : isSpace ']' = false := by decide
    have count : values.length ≤ (commas (values.map write)).length := by
      refine Nat.le_trans (by simp) (length_le_commas fun part mem => ?_)
      obtain ⟨v, known, rfl⟩ := List.mem_map.1 mem
      exact (writes v known).ne_nil
    have read : elementsWith reader ((commas (values.map write) ++ ']' :: rest).length + 1) true
        (commas (values.map write) ++ ']' :: rest) = .ok (values, ']' :: rest) :=
      elementsWith_commas writes (by simp only [List.length_append]; omega) rest
    simp only [list, writeList, List.cons_append, List.append_assoc, List.nil_append,
      skipSpace_of_head bracket, read, closed, closeList, skipSpace_of_head close]

end Herald.Json
