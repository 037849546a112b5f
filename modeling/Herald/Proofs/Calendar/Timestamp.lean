import Herald.Calendar.Timestamp
import Herald.Proofs.Text.Blank
import Herald.Proofs.Text.Numeral

/-! Instants are read back from the text that is written for them. Every instant that was read is valid, and
every valid one is read back: with its fraction, in a leap second and in a year of any length. -/
namespace Herald.Calendar.Timestamp

open Herald.Text

theorem isValid_of_parse? {s : List Char} {t : Timestamp} (read : parse? s = some t) :
    t.isValid = true := by
  simp only [parse?, Option.bind_eq_bind, Option.bind_eq_some_iff] at read
  obtain ⟨⟨time, rest⟩, -, ⟨offset, last⟩, -, checked⟩ := read
  simp only at checked
  split at checked
  · next sound =>
    cases checked
    simp only [Bool.and_eq_true] at sound
    obtain ⟨⟨-, valid⟩, date⟩ := sound
    simp only [isValid, Bool.and_eq_true, decide_eq_true_eq] at valid ⊢
    have second : time.second ≤ 60 := valid.1.2
    have nanos : time.nanos < 1000000000 := valid.2
    refine ⟨⟨⟨⟨date, ?_⟩, ?_⟩, second⟩, nanos⟩
    · simp only [shifted]
      omega
    · simp only [shifted]
      omega
  · cases checked

theorem trimStart_of_ink {c : Char} (ink : isBlank c = false) (r : List Char) :
    trimStart (c :: r) = c :: r := by
  simp [trimStart, ink]

theorem isBlank_of_isDigit {c : Char} (digit : isDigit c = true) : isBlank c = false := by
  have bounds : 48 ≤ c.toNat ∧ c.toNat ≤ 57 := by
    simpa [isDigit, Char.le_def, UInt32.le_iff_toNat_le] using digit
  simp only [isBlank, Bool.or_eq_false_iff, Bool.and_eq_false_iff, decide_eq_false_iff_not,
    beq_eq_false_iff_ne]
  omega

theorem exists_padded (width n : Nat) : ∃ c r, padded width n = c :: r ∧ isDigit c = true := by
  cases found : padded width n with
  | nil => exact absurd found (padded_ne_nil width n)
  | cons c r => exact ⟨c, r, rfl, isDigit_of_mem_padded (found ▸ List.mem_cons_self)⟩

theorem trimStart_padded (width n : Nat) (rest : List Char) :
    trimStart (padded width n ++ rest) = padded width n ++ rest := by
  obtain ⟨c, r, found, digit⟩ := exists_padded width n
  rw [found]
  exact trimStart_of_ink (isBlank_of_isDigit digit) _

theorem takeWhile_padded (width n : Nat) {rest : List Char} (stops : Stops isDigit rest) :
    (padded width n ++ rest).takeWhile isDigit = padded width n :=
  (span_append (fun _ mem => isDigit_of_mem_padded mem) stops).1

theorem number?_padded {width n : Nat} (positive : 0 < width) (fits : n < 10 ^ width)
    (rest : List Char) : number? width (padded width n ++ rest) = some (n, rest) := by
  have length : (padded width n).length = width := length_padded positive fits
  have front : ((padded width n ++ rest).take width).takeWhile isDigit = padded width n := by
    rw [List.take_left' length, ← List.append_nil (padded width n)]
    rw [takeWhile_padded width n (stops_nil _), List.append_nil]
  simp only [number?, trimStart_padded, front, padded_ne_nil, if_false, valueOf_padded]
  rw [List.drop_left]

theorem separator?_self {c : Char} (ink : isBlank c = false) (rest : List Char) :
    separator? c (c :: rest) = some rest := by
  simp [separator?, trimStart_of_ink ink]

theorem year?_yearText (year : Int) (rest : List Char) :
    year? (yearText year ++ '-' :: rest) = some (year, '-' :: rest) := by
  have digits : (padded 4 year.natAbs ++ '-' :: rest).takeWhile isDigit = padded 4 year.natAbs :=
    takeWhile_padded _ _ (stops_cons.2 (by decide))
  have ink : isBlank '-' = false ∧ isBlank '+' = false := by decide
  unfold yearText
  split
  · next short =>
    have read : number? 4 (padded 4 year.natAbs ++ '-' :: rest) = some (year.natAbs, '-' :: rest) :=
      number?_padded (by decide) (by omega) _
    obtain ⟨c, r, found, digit⟩ := exists_padded 4 year.natAbs
    simp only [year?, trimStart_padded]
    rw [found, List.cons_append] at read ⊢
    split
    · next same => cases same; cases digit
    · next same => cases same; cases digit
    · rw [read, Option.map_some, Int.natAbs_of_nonneg short.1]
  · split
    · next negative =>
      simp only [List.cons_append, year?, trimStart_of_ink ink.1, digits, padded_ne_nil, if_false,
        valueOf_padded, List.drop_left]
      congr 2
      omega
    · next positive =>
      simp only [List.cons_append, year?, trimStart_of_ink ink.2, digits, padded_ne_nil, if_false,
        valueOf_padded, List.drop_left]
      congr 2
      omega

theorem fraction?_padded {width n : Nat} (positive : 0 < width) (few : width ≤ 9)
    (fits : n < 10 ^ width) (rest : List Char) :
    fraction? ('.' :: padded width n ++ 'Z' :: rest) = some (n * 10 ^ (9 - width), 'Z' :: rest) := by
  have digits : (padded width n ++ 'Z' :: rest).takeWhile isDigit = padded width n :=
    takeWhile_padded _ _ (stops_cons.2 (by decide))
  have length : (padded width n).length = width := length_padded positive fits
  have kept : (padded width n).take 9 = padded width n := List.take_of_length_le (by omega)
  simp only [List.cons_append, fraction?, digits, padded_ne_nil, if_false, kept, valueOf_padded,
    List.drop_left]
  rw [length]
  rfl

theorem fraction?_fractionText {nanos : Nat} (small : nanos < 1000000000) (rest : List Char) :
    fraction? (fractionText nanos ++ 'Z' :: rest) = some (nanos, 'Z' :: rest) := by
  unfold fractionText
  split
  · next none_ => simp [fraction?, none_]
  · split
    · rw [fraction?_padded (by decide) (by decide) (by omega)]
      congr 2
      omega
    · split
      · rw [fraction?_padded (by decide) (by decide) (by omega)]
        congr 2
        omega
      · rw [fraction?_padded (by decide) (by decide) (by omega)]
        simp

theorem local?_text {t : Timestamp} (valid : t.isValid = true) :
    local? t.text = some (t, ['Z']) := by
  simp only [isValid, Date.isValid, Bool.and_eq_true, decide_eq_true_eq] at valid
  have days : monthLength t.date.year t.date.month ≤ 31 := by
    unfold monthLength
    split
    · split <;> decide
    · split <;> decide
  have two {n : Nat} (fits : n < 100) (rest : List Char) :
      number? 2 (padded 2 n ++ rest) = some (n, rest) := number?_padded (by decide) fits rest
  have hyphen : isBlank '-' = false := by decide
  have colon : isBlank ':' = false := by decide
  have zed : trimStart ['Z'] = ['Z'] := by decide
  simp only [local?, text, List.append_assoc, List.cons_append, year?_yearText, Option.bind_eq_bind,
    Option.bind_some, separator?_self hyphen, separator?_self colon, fraction?_fractionText valid.2,
    zed, two (show t.date.month < 100 by omega), two (show t.date.day < 100 by omega),
    two (show t.hour < 100 by omega), two (show t.minute < 100 by omega),
    two (show t.second < 100 by omega)]
  rfl

/-- The instants that come out of reading are those that are read back. -/
theorem parse?_text {t : Timestamp} (valid : t.isValid = true) : parse? t.text = some t := by
  have whole := valid
  simp only [isValid, Bool.and_eq_true, decide_eq_true_eq] at valid
  have same : t.shifted 0 = t := shifted_zero (by omega) (by omega)
  have universal : offset? ['Z'] = some (0, []) := rfl
  simp only [parse?, local?_text whole, universal, Option.bind_eq_bind, Option.bind_some, same, whole,
    valid.1.1.1.1, List.all_nil, Bool.and_self, if_true]

end Herald.Calendar.Timestamp
