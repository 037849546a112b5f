import Herald.Json.Reader
import Herald.Json.Skip
import Herald.Proofs.Json.Grammar
import Herald.Proofs.Json.Written

/-! The readers of numbers take what the grammar says, and nothing else. An integer is read from a number that is
written like it; all other numbers are no integers. -/
namespace Herald.Json

open Herald.Text

theorem digits_iff {s r : List Char} : Digits s r ↔ s.takeWhile isDigit ≠ [] ∧ r = s.dropWhile isDigit := by
  constructor
  · rintro ⟨row, rfl, some_, all, stops⟩
    obtain ⟨taken, left⟩ := span_append all stops
    exact ⟨by rwa [taken], left.symm⟩
  · rintro ⟨some_, rfl⟩
    exact ⟨_, List.takeWhile_append_dropWhile.symm, some_, fun _ => List.mem_takeWhile_imp, stops_dropWhile _ _⟩

theorem digits_cons_iff {c : Char} {s r : List Char} :
    Digits (c :: s) r ↔ isDigit c = true ∧ r = s.dropWhile isDigit := by
  cases digit : isDigit c <;> simp [digits_iff, digit]

theorem not_digits_nil {r : List Char} : ¬ Digits [] r := by simp [digits_iff]

theorem skipExponent_eq_ok_iff {s r : List Char} : skipExponent s = .ok r ↔
    Digits s r ∨ ∃ sign t, s = sign :: t ∧ (sign = '+' ∨ sign = '-') ∧ Digits t r := by
  have signed {sign : Char} (known : sign = '+' ∨ sign = '-') (t : List Char) :
      skipExponent (sign :: t) = .ok r ↔ Digits t r := by
    rcases t with _ | ⟨c, t⟩
    · rcases known with rfl | rfl <;> simp [skipExponent, not_digits_nil]
    · rcases known with rfl | rfl <;> cases digit : isDigit c <;>
        simp [skipExponent, digits_cons_iff, digit, eq_comm]
  cases s with
  | nil => simp [skipExponent, not_digits_nil]
  | cons c t =>
    by_cases known : c = '+' ∨ c = '-'
    · have bare : ¬ Digits (c :: t) r := by
        rw [digits_cons_iff]
        rcases known with rfl | rfl <;> exact fun digit => absurd digit.1 (by decide)
      rw [signed known]
      refine ⟨fun digits => .inr ⟨c, t, rfl, known, digits⟩, ?_⟩
      rintro (digits | ⟨_, _, is, -, digits⟩)
      · exact absurd digits bare
      · cases is
        exact digits
    · have plus : c ≠ '+' := fun is => known (.inl is)
      have minus : c ≠ '-' := fun is => known (.inr is)
      cases digit : isDigit c <;> simp [skipExponent, plus, minus, digits_cons_iff, digit, eq_comm]

theorem exponent_cons_iff {e : Char} {s r : List Char} (is : e = 'e' ∨ e = 'E') :
    Exponent (e :: s) r ↔ skipExponent s = .ok r := by
  rw [skipExponent_eq_ok_iff]
  constructor
  · rintro (⟨small, large⟩ | ⟨-, digits⟩ | ⟨-, sign, digits⟩)
    · simp only [List.head?_cons, ne_eq, Option.some.injEq] at small large
      exact absurd is (not_or.2 ⟨small, large⟩)
    · exact .inl digits
    · exact .inr ⟨_, _, rfl, sign, digits⟩
  · rintro (digits | ⟨sign, t, rfl, known, digits⟩)
    · exact .plain is digits
    · exact .signed is known digits

theorem fraction_cons_iff {s r : List Char} : Fraction ('.' :: s) r ↔ Digits s r :=
  ⟨fun | .none other => absurd rfl other | .some digits => digits, .some⟩

theorem fraction_iff {s r : List Char} (other : s.head? ≠ some '.') : Fraction s r ↔ s = r := by
  constructor
  · rintro (_ | digits)
    · rfl
    · exact absurd rfl other
  · rintro rfl
    exact .none other

theorem exponent_iff {s r : List Char} (small : s.head? ≠ some 'e') (large : s.head? ≠ some 'E') :
    Exponent s r ↔ s = r := by
  constructor
  · rintro (_ | ⟨rfl | rfl, _⟩ | ⟨rfl | rfl, _, _⟩)
    · rfl
    · exact absurd rfl small
    · exact absurd rfl large
    · exact absurd rfl small
    · exact absurd rfl large
  · rintro rfl
    exact .none small large

theorem head?_ne {c : Char} {s : List Char} (other : ∀ t, s = c :: t → False) : s.head? ≠ some c := by
  intro first
  obtain ⟨t, is⟩ := List.head?_eq_some_iff.1 first
  exact other t is

theorem skipNumberTail_eq_ok_iff {s r : List Char} :
    skipNumberTail s = .ok r ↔ ∃ e, Fraction s e ∧ Exponent e r := by
  have bare {c : Char} {t : List Char} (other : c ≠ '.') : (∃ e, Fraction (c :: t) e ∧ Exponent e r) ↔
      Exponent (c :: t) r := by
    have none_ : (c :: t).head? ≠ some '.' := by simpa using other
    simp [fraction_iff none_]
  unfold skipNumberTail
  split
  · next t => rw [bare (by decide), exponent_cons_iff (.inl rfl)]
  · next t => rw [bare (by decide), exponent_cons_iff (.inr rfl)]
  · next t =>
    have digits (e : List Char) : Fraction ('.' :: t) e ↔ t.takeWhile isDigit ≠ [] ∧ e = t.dropWhile isDigit := by
      rw [fraction_cons_iff, digits_iff]
    simp only [digits]
    split
    · next none_ => simp [none_]
    · next some_ =>
      have one : (∃ e, (t.takeWhile isDigit ≠ [] ∧ e = t.dropWhile isDigit) ∧ Exponent e r) ↔
          Exponent (t.dropWhile isDigit) r := by simp [some_]
      rw [one]
      split
      · next is => rw [is, exponent_cons_iff (.inl rfl)]
      · next is => rw [is, exponent_cons_iff (.inr rfl)]
      · next small large => rw [exponent_iff (head?_ne small) (head?_ne large), Except.ok.injEq]
  · next small large point =>
    have none_ := head?_ne point
    simp [fraction_iff none_, exponent_iff (head?_ne small) (head?_ne large)]

theorem whole_zero_iff {s r : List Char} : Whole ('0' :: s) r ↔ s = r ∧ Stops isDigit s := by
  constructor
  · rintro (stops | ⟨lead, -⟩)
    · exact ⟨rfl, stops⟩
    · exact absurd rfl lead
  · rintro ⟨rfl, stops⟩
    exact .zero stops

theorem whole_cons_iff {c : Char} (other : c ≠ '0') {s r : List Char} :
    Whole (c :: s) r ↔ isDigit c = true ∧ r = s.dropWhile isDigit := by
  rw [← digits_cons_iff]
  constructor
  · rintro (_ | ⟨-, digits⟩)
    · exact absurd rfl other
    · exact digits
  · exact .row (by simpa using other)

theorem not_whole_nil {r : List Char} : ¬ Whole [] r := by
  rintro (_ | ⟨-, digits⟩)
  exact not_digits_nil digits

theorem skipNumber_eq_ok_iff {s r : List Char} : skipNumber s = .ok r ↔ Unsigned s r := by
  have tail (f : List Char) : skipNumberTail f = .ok r ↔ ∃ e, Fraction f e ∧ Exponent e r :=
    skipNumberTail_eq_ok_iff
  have splits : Unsigned s r ↔ ∃ f, Whole s f ∧ skipNumberTail f = .ok r := by
    simp only [Unsigned, tail, exists_and_left]
  rw [splits]
  unfold skipNumber
  split
  · next t =>
    simp only [whole_zero_iff, stops_iff]
    split <;> simp_all
  · next c t other =>
    have other : c ≠ '0' := other
    simp only [whole_cons_iff other]
    split <;> simp_all
  · simp [not_whole_nil]

theorem whole_iff {s r : List Char} : Whole s r ↔ ∃ n, s = natDigits n ++ r ∧ Stops isDigit r := by
  constructor
  · rintro (stops | ⟨lead, row, rfl, some_, all, stops⟩)
    · exact ⟨0, rfl, stops⟩
    · have lead : row.head? ≠ some '0' := by
        obtain ⟨c, row, rfl⟩ := List.exists_cons_of_ne_nil some_
        exact lead
      exact ⟨valueOf row, by rw [(natDigits_valueOf all lead some_).1], stops⟩
  · rintro ⟨n, rfl, stops⟩
    rcases Nat.eq_zero_or_pos n with rfl | positive
    · exact .zero stops
    · refine .row ?_ ⟨_, rfl, natDigits_ne_nil n, fun c mem => isDigit_of_mem_natDigits mem, stops⟩
      have lead := head?_natDigits positive
      obtain ⟨c, row, is⟩ := List.exists_cons_of_ne_nil (natDigits_ne_nil n)
      rw [is] at lead ⊢
      exact lead

theorem number_eq_ok_iff {positive : Bool} {s : List Char} {read : Number × List Char} :
    number positive s = .ok read ↔ ∃ n r, s = natDigits n ++ r ∧ Stops isDigit r ∧
      numberTail ((natDigits n).foldl Significand.addWhole {}) positive r = .ok read := by
  have splits : (∃ n r, s = natDigits n ++ r ∧ Stops isDigit r ∧
      numberTail ((natDigits n).foldl Significand.addWhole {}) positive r = .ok read) ↔
      ∃ r, Whole s r ∧ numberTail ((s.takeWhile isDigit).foldl Significand.addWhole {}) positive r = .ok read := by
    constructor
    · rintro ⟨n, r, rfl, stops, tail⟩
      obtain ⟨taken, -⟩ := span_append (fun c mem => isDigit_of_mem_natDigits mem) stops
      exact ⟨r, whole_iff.2 ⟨n, rfl, stops⟩, by rwa [taken]⟩
    · rintro ⟨r, whole, tail⟩
      obtain ⟨n, rfl, stops⟩ := whole_iff.1 whole
      obtain ⟨taken, -⟩ := span_append (fun c mem => isDigit_of_mem_natDigits mem) stops
      rw [taken] at tail
      exact ⟨n, r, rfl, stops, tail⟩
  rw [splits]
  unfold number
  split
  · simp [not_whole_nil]
  · next t =>
    simp only [whole_zero_iff, stops_iff]
    split
    · simp_all
    · next stops =>
      have zero : ('0' :: t).takeWhile isDigit = ['0'] := by
        have stops : Stops isDigit t := stops_iff.2 (by simpa using stops)
        have digit : isDigit '0' = true := by decide
        simp [digit, stops.span.1]
      have same : (['0'].foldl Significand.addWhole {}) = {} := rfl
      simp_all
  · next c t other =>
    have other : c ≠ '0' := other
    simp only [whole_cons_iff other]
    split
    · next digit => simp [digit]
    · simp_all

def Number.integer? : Number → Option Int
  | .natural value => some value
  | .negative size => some (-(size : Int))
  | .fractional _ => none

theorem integer?_number {m : Significand} {positive : Bool} {rest r : List Char} {x : Number}
    (read : m.number positive rest = .ok (x, r)) : x.integer? = none := by
  unfold Significand.number at read
  split at read
  · cases read
  · cases read
    rfl

theorem integer?_exponent {m : Significand} {positive : Bool} {s r : List Char} {x : Number}
    (read : exponent m positive s = .ok (x, r)) : x.integer? = none := by
  unfold exponent at read
  dsimp only at read
  split at read
  · cases read
  · split at read
    · split at read
      · exact integer?_number read
      · split at read
        · cases read
        · cases read
          rfl
    · cases read

theorem full_foldl_addWhole {digits : List Char} {m : Significand} (large : m.full = true ∨
    m.value < 0x10000000000000000 ∧
      0x10000000000000000 ≤ digits.foldl (fun acc c => acc * 10 + digitValue c) m.value) :
    (digits.foldl Significand.addWhole m).full = true := by
  induction digits generalizing m with
  | nil =>
    rcases large with full | ⟨small, large⟩
    · exact full
    · exact absurd small (Nat.not_lt.2 large)
  | cons c digits ih =>
    refine ih ?_
    unfold Significand.addWhole
    dsimp only
    split
    · exact .inl rfl
    · next room =>
      simp only [Bool.or_eq_true, decide_eq_true_eq, not_or, Nat.not_le] at room
      rcases large with full | ⟨-, large⟩
      · exact absurd full room.1
      · exact .inr ⟨room.2, large⟩

theorem foldl_addWhole_natDigits (n : Nat) : (n < 0x10000000000000000 →
      (natDigits n).foldl Significand.addWhole {} = { value := n }) ∧
    (0x10000000000000000 ≤ n → ((natDigits n).foldl Significand.addWhole {}).full = true) := by
  have value : (natDigits n).foldl (fun acc c => acc * 10 + digitValue c) 0 = n := valueOf_natDigits n
  constructor
  · intro fits
    rw [foldl_addWhole rfl (by rw [value]; exact fits), value]
  · intro large
    exact full_foldl_addWhole (.inr ⟨by decide, by rw [value]; exact large⟩)

def Bare (s : List Char) : Prop := s.head? ≠ some '.' ∧ s.head? ≠ some 'e' ∧ s.head? ≠ some 'E'

theorem numberTail_integer_iff {m : Significand} {positive : Bool} {s r : List Char} {n : Int} :
    (∃ x, numberTail m positive s = .ok (x, r) ∧ x.integer? = some n) ↔ s = r ∧ Bare s ∧ m.full = false ∧
      (positive = true ∧ n = m.value ∨
        positive = false ∧ n = -(m.value : Int) ∧ 0 < m.value ∧ m.value ≤ 0x8000000000000000) := by
  have none_ {read : Except Fault (Number × List Char)} (no : ∀ x r, read = .ok (x, r) → x.integer? = none) :
      ¬ ∃ x, read = .ok (x, r) ∧ x.integer? = some n := by
    rintro ⟨x, is, integer⟩
    rw [no x r is] at integer
    cases integer
  have goesOn {c : Char} {t : List Char} (known : c = '.' ∨ c = 'e' ∨ c = 'E') : ¬ Bare (c :: t) := by
    rintro ⟨point, small, large⟩
    rcases known with rfl | rfl | rfl
    · exact point rfl
    · exact small rfl
    · exact large rfl
  unfold numberTail
  split
  · next t =>
    refine iff_of_false (none_ fun x r is => ?_) fun all => goesOn (.inl rfl) all.2.1
    dsimp only at is
    split at is
    · cases is
    · split at is
      · exact integer?_exponent is
      · exact integer?_exponent is
      · exact integer?_number is
  · exact iff_of_false (none_ fun x r => integer?_exponent) fun all => goesOn (.inr (.inl rfl)) all.2.1
  · exact iff_of_false (none_ fun x r => integer?_exponent) fun all => goesOn (.inr (.inr rfl)) all.2.1
  · next point small large =>
    have bare : Bare s := ⟨head?_ne point, head?_ne small, head?_ne large⟩
    split
    · next full => exact iff_of_false (none_ fun x r => integer?_number) fun all => by simp [full] at all
    · next room =>
      split
      · next isPositive => simp [Number.integer?, bare, room, isPositive, eq_comm]
      · next isNegative =>
        split
        · next out =>
          refine iff_of_false (by simp [Number.integer?]) fun all => ?_
          obtain ⟨-, -, -, other | ⟨-, -, some_, within⟩⟩ := all
          · exact isNegative other.1
          · omega
        · next within =>
          simp only [Except.ok.injEq, Prod.mk.injEq]
          constructor
          · rintro ⟨x, ⟨rfl, rfl⟩, integer⟩
            refine ⟨rfl, bare, by simpa using room, .inr ⟨by simpa using isNegative, ?_, by omega, by omega⟩⟩
            exact (Option.some.inj integer).symm
          · rintro ⟨rfl, -, -, other | ⟨-, rfl, -⟩⟩
            · exact absurd other.1 isNegative
            · exact ⟨_, ⟨rfl, rfl⟩, rfl⟩

theorem number_integer_iff {positive : Bool} {s r : List Char} {n : Int} :
    (∃ x, number positive s = .ok (x, r) ∧ x.integer? = some n) ↔
      s = natDigits n.natAbs ++ r ∧ Stops isDigit r ∧ Bare r ∧ (positive = true ∧ 0 ≤ n ∧ n < 0x10000000000000000 ∨
        positive = false ∧ n < 0 ∧ -0x8000000000000000 ≤ n) := by
  have splits : (∃ x, number positive s = .ok (x, r) ∧ x.integer? = some n) ↔ ∃ k t, s = natDigits k ++ t ∧
      Stops isDigit t ∧ ∃ x, numberTail ((natDigits k).foldl Significand.addWhole {}) positive t = .ok (x, r) ∧
        x.integer? = some n := by
    simp only [number_eq_ok_iff]
    grind
  rw [splits]
  simp only [numberTail_integer_iff]
  constructor
  · rintro ⟨k, t, rfl, stops, rfl, bare, room, known⟩
    have fits : k < 0x10000000000000000 := by
      refine Nat.lt_of_not_le fun large => ?_
      rw [(foldl_addWhole_natDigits k).2 large] at room
      cases room
    rw [(foldl_addWhole_natDigits k).1 fits] at known
    dsimp only at known
    have size : n.natAbs = k := by omega
    refine ⟨by rw [size], stops, bare, known.imp ?_ ?_⟩
    · rintro ⟨isPositive, is⟩
      exact ⟨isPositive, by omega, by omega⟩
    · rintro ⟨isNegative, is, some_, within⟩
      exact ⟨isNegative, by omega, by omega⟩
  · rintro ⟨rfl, stops, bare, known⟩
    have fits : n.natAbs < 0x10000000000000000 := by omega
    refine ⟨n.natAbs, r, rfl, stops, rfl, bare, ?_⟩
    rw [(foldl_addWhole_natDigits _).1 fits]
    refine ⟨rfl, known.imp ?_ ?_⟩
    · rintro ⟨isPositive, least, -⟩
      exact ⟨isPositive, by dsimp only; omega⟩
    · rintro ⟨isNegative, most, least⟩
      exact ⟨isNegative, by dsimp only; omega, by dsimp only; omega, by dsimp only; omega⟩

theorem fraction_length_le {s r : List Char} (fraction : Fraction s r) : r.length ≤ s.length ∧
    (r.length = s.length → s = r ∧ s.head? ≠ some '.') := by
  cases fraction with
  | none other => exact ⟨Nat.le_refl _, fun _ => ⟨rfl, other⟩⟩
  | some digits =>
    obtain ⟨row, rfl, -⟩ := digits
    simp only [List.length_cons, List.length_append]
    omega

theorem exponent_length_le {s r : List Char} (exponent : Exponent s r) : r.length ≤ s.length ∧
    (r.length = s.length → s = r ∧ s.head? ≠ some 'e' ∧ s.head? ≠ some 'E') := by
  cases exponent with
  | none small large => exact ⟨Nat.le_refl _, fun _ => ⟨rfl, small, large⟩⟩
  | plain _ digits =>
    obtain ⟨row, rfl, -⟩ := digits
    simp only [List.length_cons, List.length_append]
    omega
  | signed _ _ digits =>
    obtain ⟨row, rfl, -⟩ := digits
    simp only [List.length_cons, List.length_append]
    omega

theorem unsigned_natDigits_iff {k : Nat} {r : List Char} :
    Unsigned (natDigits k ++ r) r ↔ Stops isDigit r ∧ Bare r := by
  constructor
  · rintro ⟨f, e, whole, fraction, exponent⟩
    obtain ⟨n, same, stops⟩ := whole_iff.1 whole
    have upTo := fraction_length_le fraction
    have andThen := exponent_length_le exponent
    rcases Nat.lt_or_ge r.length f.length with before | all
    · -- then some of the digits are left behind the row that was read
      obtain ⟨u, digits, rest⟩ : ∃ u, natDigits k = natDigits n ++ u ∧ f = u ++ r := by
        rcases List.append_eq_append_iff.1 same with ⟨u, -, rfl⟩ | ⟨u, digits, rest⟩
        · simp only [List.length_append] at before
          omega
        · exact ⟨u, digits, rest⟩
      have some_ : u ≠ [] := by
        rintro rfl
        rw [rest] at before
        exact absurd before (Nat.lt_irrefl _)
      obtain ⟨c, u, rfl⟩ := List.exists_cons_of_ne_nil some_
      have there : c ∈ natDigits k := by rw [digits]; simp
      have digit := isDigit_of_mem_natDigits there
      rw [rest, List.cons_append, stops_cons, digit] at stops
      cases stops
    · obtain ⟨rfl, small, large⟩ := andThen.2 (by omega)
      obtain ⟨rfl, point⟩ := upTo.2 (by omega)
      exact ⟨stops, point, small, large⟩
  · rintro ⟨stops, point, small, large⟩
    exact ⟨r, r, whole_iff.2 ⟨k, rfl, stops⟩, .none point, .none small large⟩

theorem intDigits_of_nonneg {n : Int} (known : 0 ≤ n) : intDigits n = natDigits n.natAbs := by
  cases n with
  | ofNat k => rfl
  | negSucc k => omega

theorem intDigits_of_neg {n : Int} (known : n < 0) : intDigits n = '-' :: natDigits n.natAbs := by
  cases n with
  | ofNat k => exact absurd known (by simp)
  | negSucc k => rfl

theorem not_whole_of_not_digit {c : Char} {s r : List Char} (other : isDigit c = false) : ¬ Whole (c :: s) r := by
  have zero : c ≠ '0' := by rintro rfl; cases other
  rw [whole_cons_iff zero, other]
  exact nofun

theorem numeral_negative_iff {s r : List Char} : Numeral ('-' :: s) r ↔ Unsigned s r := by
  constructor
  · rintro (⟨f, e, whole, -⟩ | unsigned)
    · exact absurd whole (not_whole_of_not_digit (by decide))
    · exact unsigned
  · exact .negative

theorem numeral_positive_iff {c : Char} {s r : List Char} (other : c ≠ '-') :
    Numeral (c :: s) r ↔ Unsigned (c :: s) r := by
  constructor
  · rintro (unsigned | _)
    · exact unsigned
    · exact absurd rfl other
  · exact .positive

theorem exists_of_numeral_natDigits {k : Nat} {r : List Char} (numeral : Numeral (natDigits k ++ r) r) :
    ∃ c t, natDigits k = c :: t ∧ isDigit c = true ∧ Stops isDigit r ∧ Bare r := by
  obtain ⟨c, t, opens⟩ := List.exists_cons_of_ne_nil (natDigits_ne_nil k)
  have digit : isDigit c = true := isDigit_of_mem_natDigits (by rw [opens]; exact List.mem_cons_self)
  have minus : c ≠ '-' := by rintro rfl; cases digit
  have unsigned : Unsigned (natDigits k ++ r) r := by
    rw [opens] at numeral ⊢
    exact (numeral_positive_iff minus).1 numeral
  exact ⟨c, t, opens, digit, unsigned_natDigits_iff.1 unsigned⟩

theorem numberWith_eq_ok_iff {α : Type} {expected : String} {accept : Number → Except Mismatch α} {s r : List Char}
    {v : α} : numberWith expected accept s = .ok (v, r) ↔ ∃ x, accept x = .ok v ∧
      ((∃ t, skipSpace s = '-' :: t ∧ number false t = .ok (x, r)) ∨
        ∃ c t, skipSpace s = c :: t ∧ isDigit c = true ∧ number true (c :: t) = .ok (x, r)) := by
  have minus : isDigit '-' = false := by decide
  unfold numberWith
  dsimp only
  generalize skipSpace s = w
  rcases w with _ | ⟨c, t⟩
  · simp
  · by_cases is : c = '-'
    · subst is
      rcases read : number false t with f | ⟨x, r'⟩
      · simp [minus, read]
      · cases accepted : accept x <;> simp [minus, read, accepted]
    · cases digit : isDigit c with
      | false => simp [is, digit]
      | true =>
        rcases read : number true (c :: t) with f | ⟨x, r'⟩
        · simp [is, digit, read]
        · cases accepted : accept x <;> simp [is, digit, read, accepted]

theorem signed_eq_ok_iff {expected : String} {s r : List Char} {n : Int} : signed expected s = .ok (n, r) ↔
    skipSpace s = intDigits n ++ r ∧ Numeral (skipSpace s) r ∧ -0x8000000000000000 ≤ n ∧ n < 0x8000000000000000 := by
  rw [signed, numberWith_eq_ok_iff]
  generalize skipSpace s = w
  refine (exists_congr fun x => and_congr_left'
    (b := x.integer? = some n ∧ n < 0x8000000000000000) ?_).trans ?_
  · cases x with
    | natural value =>
      simp only [Number.integer?, Option.some.injEq]
      split
      · simp only [Except.ok.injEq]
        omega
      · simp only [reduceCtorEq, false_iff]
        omega
    | negative size =>
      simp only [Number.integer?, Except.ok.injEq, Option.some.injEq]
      omega
    | fractional value => simp [Number.integer?]
  · have integer (positive : Bool) (t : List Char) := @number_integer_iff positive t r n
    constructor
    · rintro ⟨x, ⟨is, fits⟩, ⟨t, rfl, read⟩ | ⟨c, t, rfl, digit, read⟩⟩
      · obtain ⟨rfl, stops, bare, ⟨other, -⟩ | ⟨-, below, least⟩⟩ := (integer false t).1 ⟨x, read, is⟩
        · cases other
        · refine ⟨by rw [intDigits_of_neg below]; rfl, ?_, by omega, fits⟩
          exact numeral_negative_iff.2 (unsigned_natDigits_iff.2 ⟨stops, bare⟩)
      · obtain ⟨written, stops, bare, ⟨-, least, -⟩ | ⟨other, -⟩⟩ := (integer true (c :: t)).1 ⟨x, read, is⟩
        · rw [written]
          refine ⟨by rw [intDigits_of_nonneg least], ?_, by omega, fits⟩
          exact .positive (unsigned_natDigits_iff.2 ⟨stops, bare⟩)
        · cases other
    · rintro ⟨rfl, numeral, least, fits⟩
      by_cases below : n < 0
      · rw [intDigits_of_neg below, List.cons_append] at numeral ⊢
        obtain ⟨stops, bare⟩ := unsigned_natDigits_iff.1 (numeral_negative_iff.1 numeral)
        obtain ⟨x, read, is⟩ := (integer false _).2 ⟨rfl, stops, bare, .inr ⟨rfl, below, least⟩⟩
        exact ⟨x, ⟨is, fits⟩, .inl ⟨_, rfl, read⟩⟩
      · have above : 0 ≤ n := Int.not_lt.1 below
        rw [intDigits_of_nonneg above] at numeral ⊢
        obtain ⟨c, t, opens, digit, stops, bare⟩ := exists_of_numeral_natDigits numeral
        obtain ⟨x, read, is⟩ := (integer true _).2 ⟨rfl, stops, bare, .inl ⟨rfl, above, by omega⟩⟩
        refine ⟨x, ⟨is, fits⟩, .inr ⟨c, t ++ r, by rw [opens]; rfl, digit, ?_⟩⟩
        rw [opens] at read
        exact read

end Herald.Json
