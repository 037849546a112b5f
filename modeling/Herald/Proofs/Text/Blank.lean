import Herald.Text.Blank
import Mathlib.Data.List.TakeWhile

/-! Blanks around a text. A trimmed text begins and ends with ink, which is all that trimming leaves to do; the
blanks around it do not matter. A text is cut where the characters of some kind stop. -/
namespace Herald.Text

def Blank (s : List Char) : Prop := ∀ c ∈ s, isBlank c = true

def Stops (kind : Char → Bool) (s : List Char) : Prop := ∀ c, s.head? = some c → kind c = false

theorem blank_nil : Blank [] := by simp [Blank]

theorem stops_nil (kind : Char → Bool) : Stops kind [] := by simp [Stops]

@[simp] theorem stops_cons {kind : Char → Bool} {c : Char} {s : List Char} :
    Stops kind (c :: s) ↔ kind c = false := by
  simp [Stops]

theorem stops_iff {kind : Char → Bool} {s : List Char} : Stops kind s ↔ (s.head?.map kind).getD false = false := by
  cases s <;> simp [stops_nil]

theorem Blank.eq_nil_of_stops {a b : List Char} (blank : Blank a) (stops : Stops isBlank (a ++ b)) : a = [] := by
  rcases a with _ | ⟨c, a⟩
  · rfl
  · have first := blank c List.mem_cons_self
    rw [stops_cons.1 stops] at first
    cases first

theorem Stops.append {kind : Char → Bool} {a : List Char} (stops : Stops kind a) (some_ : a ≠ []) (b : List Char) :
    Stops kind (a ++ b) := by
  obtain ⟨c, a, rfl⟩ := List.exists_cons_of_ne_nil some_
  exact stops_cons.2 (stops_cons.1 stops)

theorem stops_dropWhile (kind : Char → Bool) (s : List Char) : Stops kind (s.dropWhile kind) := by
  intro c first
  simpa [first] using List.head?_dropWhile_not kind s

theorem span_append {kind : Char → Bool} {row rest : List Char} (all : ∀ c ∈ row, kind c = true)
    (stops : Stops kind rest) :
    (row ++ rest).takeWhile kind = row ∧ (row ++ rest).dropWhile kind = rest := by
  rw [List.takeWhile_append_of_pos all, List.dropWhile_append_of_pos all]
  cases rest with
  | nil => simp
  | cons c r => simp [stops_cons.1 stops]

theorem span_append_cons {kind : Char → Bool} {row : List Char} {c : Char} (all : ∀ d ∈ row, kind d = true)
    (stop : kind c = false) (rest : List Char) :
    (row ++ c :: rest).takeWhile kind = row ∧ (row ++ c :: rest).dropWhile kind = c :: rest :=
  span_append all (stops_cons.2 stop)

theorem Stops.span {kind : Char → Bool} {s : List Char} (stops : Stops kind s) :
    s.takeWhile kind = [] ∧ s.dropWhile kind = s := by
  have none_ : ∀ c ∈ [], kind c = true := by simp
  exact span_append none_ stops

def EndsInInk (s : List Char) : Prop := ∀ c, s.getLast? = some c → isBlank c = false

theorem endsInInk_trimEnd (s : List Char) : EndsInInk (trimEnd s) := by
  intro c last
  have first : (s.reverse.dropWhile isBlank).head? = some c := by simpa [trimEnd] using last
  simpa [first] using List.head?_dropWhile_not isBlank s.reverse

theorem EndsInInk.of_append {a b : List Char} (ends : EndsInInk (a ++ b)) : EndsInInk b := by
  intro c last
  exact ends c (by simp [List.getLast?_append, last])

theorem EndsInInk.append {a b : List Char} (ends : EndsInInk b) (there : b ≠ []) :
    EndsInInk (a ++ b) := by
  intro c last
  obtain ⟨d, found⟩ := Option.isSome_iff_exists.1 (List.getLast?_isSome.2 there)
  rw [List.getLast?_append, found] at last
  exact ends c (found.trans last)

theorem EndsInInk.trimEnd_eq {s : List Char} (ends : EndsInInk s) : trimEnd s = s := by
  rcases List.eq_nil_or_concat s with rfl | ⟨init, c, rfl⟩
  · rfl
  · have ink : isBlank c = false := ends c (by simp)
    simp [trimEnd, ink]

theorem EndsInInk.trim_eq {s : List Char} (ends : EndsInInk s) : trim s = trimStart s := by
  refine EndsInInk.trimEnd_eq ?_
  rw [← List.takeWhile_append_dropWhile (p := isBlank) (l := s)] at ends
  exact ends.of_append

theorem dropWhile_append_cons {kind : Char → Bool} {c : Char} (stop : kind c = false) (s rest : List Char) :
    (s ++ c :: rest).dropWhile kind = s.dropWhile kind ++ c :: rest := by
  induction s with
  | nil => simp [stop]
  | cons d s ih => by_cases same : kind d = true <;> simp [same, ih]

theorem stops_ends (kind : Char → Bool) (s : List Char) :
    Stops kind ((s.dropWhile kind).reverse.dropWhile kind).reverse := by
  cases found : s.dropWhile kind with
  | nil => exact stops_nil kind
  | cons c r =>
    have stop : kind c = false := stops_cons.1 (found ▸ stops_dropWhile kind s)
    rw [List.reverse_cons, dropWhile_append_cons stop, List.reverse_append]
    exact stops_cons.2 stop

theorem ends_append_cons {kind : Char → Bool} {c : Char} (stop : kind c = false) (a b : List Char) :
    (((a ++ c :: b).dropWhile kind).reverse.dropWhile kind).reverse =
      a.dropWhile kind ++ c :: (b.reverse.dropWhile kind).reverse := by
  rw [dropWhile_append_cons stop, List.reverse_append, List.reverse_cons, List.append_assoc,
    List.singleton_append, dropWhile_append_cons stop]
  simp

theorem stops_trim (s : List Char) : Stops isBlank (trim s) := stops_ends isBlank s

theorem takeWhile_trim (s : List Char) : (trim s).takeWhile isBlank = [] := (stops_trim s).span.1

theorem endsInInk_trim (s : List Char) : EndsInInk (trim s) := endsInInk_trimEnd _

theorem trim_eq_self_iff (s : List Char) : trim s = s ↔ Stops isBlank s ∧ EndsInInk s := by
  constructor
  · intro same
    exact ⟨same ▸ stops_trim s, same ▸ endsInInk_trim s⟩
  · rintro ⟨stops, ends⟩
    rw [ends.trim_eq]
    exact stops.span.2

theorem trim_trim (s : List Char) : trim (trim s) = trim s :=
  (trim_eq_self_iff _).2 ⟨stops_trim s, endsInInk_trim s⟩

theorem Blank.trim_append {a b : List Char} (blankA : Blank a) (blankB : Blank b) (s : List Char) :
    trim (a ++ (s ++ b)) = trim s := by
  have start : trimStart (a ++ (s ++ b)) = trimStart (s ++ b) :=
    List.dropWhile_append_of_pos blankA
  rw [trim, start, trim, trimStart, trimStart, List.dropWhile_append]
  split
  · next none_ =>
    rw [List.isEmpty_iff] at none_
    have left : b.dropWhile isBlank = [] := List.dropWhile_eq_nil_iff.2 blankB
    rw [none_, left]
  · rw [trimEnd, trimEnd, List.reverse_append]
    have back : ∀ c ∈ b.reverse, isBlank c = true := fun c mem => blankB c (List.mem_reverse.1 mem)
    rw [List.dropWhile_append_of_pos back]

theorem exists_ends (kind : Char → Bool) (s : List Char) :
    ∃ a b, (∀ c ∈ a, kind c = true) ∧ (∀ c ∈ b, kind c = true) ∧
      s = a ++ (((s.dropWhile kind).reverse.dropWhile kind).reverse ++ b) := by
  refine ⟨s.takeWhile kind, ((s.dropWhile kind).reverse.takeWhile kind).reverse,
    fun c => List.mem_takeWhile_imp, fun c mem => List.mem_takeWhile_imp (List.mem_reverse.1 mem), ?_⟩
  have back := congrArg List.reverse (List.takeWhile_append_dropWhile (p := kind) (l := (s.dropWhile kind).reverse))
  rw [List.reverse_append, List.reverse_reverse] at back
  rw [back, List.takeWhile_append_dropWhile]

theorem exists_blank_trim (s : List Char) : ∃ a b, Blank a ∧ Blank b ∧ s = a ++ (trim s ++ b) :=
  exists_ends isBlank s

theorem trim_eq_nil_iff {s : List Char} : trim s = [] ↔ Blank s := by
  constructor
  · intro nothing
    obtain ⟨a, b, blankA, blankB, whole⟩ := exists_blank_trim s
    rw [nothing, List.nil_append] at whole
    rw [whole]
    exact List.forall_mem_append.2 ⟨blankA, blankB⟩
  · intro blank
    have same := blank.trim_append blank_nil []
    rwa [List.append_nil, List.append_nil] at same

theorem trim_sublist (s : List Char) : (trim s).Sublist s := by
  have start : (trimStart s).Sublist s := List.dropWhile_sublist _
  have back : ((trimStart s).reverse.dropWhile isBlank).Sublist (trimStart s).reverse := List.dropWhile_sublist _
  have whole := List.reverse_sublist.2 back
  rw [List.reverse_reverse] at whole
  exact whole.trans start

/-! ### Pieces -/

theorem splitAt_of_not_mem {sep : Char} {s : List Char} (absent : sep ∉ s) : splitAt sep s = [s] := by
  induction s with
  | nil => rfl
  | cons c s ih =>
    rw [List.mem_cons, not_or] at absent
    rw [splitAt, if_neg (Ne.symm absent.1), ih absent.2]

theorem splitAt_append (sep : Char) (a b : List Char) :
    splitAt sep (a ++ sep :: b) = splitAt sep a ++ splitAt sep b := by
  induction a with
  | nil => simp [splitAt]
  | cons c a ih =>
    rw [List.cons_append, splitAt, splitAt, ih]
    split
    · rfl
    · cases found : splitAt sep a with
      | nil => exact absurd found (splitAt_ne_nil sep a)
      | cons piece rest => rfl

theorem not_mem_of_mem_splitAt {sep : Char} {s piece : List Char} (mem : piece ∈ splitAt sep s) :
    sep ∉ piece := by
  induction s generalizing piece with
  | nil => simp_all [splitAt]
  | cons c r ih =>
    rw [splitAt] at mem
    split at mem
    · rcases List.mem_cons.1 mem with rfl | later
      · exact List.not_mem_nil
      · exact ih later
    · next other =>
      cases found : splitAt sep r with
      | nil => exact absurd found (splitAt_ne_nil sep r)
      | cons first rest =>
        rw [found] at ih mem
        rcases List.mem_cons.1 mem with rfl | later
        · rw [List.mem_cons, not_or]
          exact ⟨Ne.symm other, ih List.mem_cons_self⟩
        · exact ih (List.mem_cons_of_mem _ later)

theorem splitAt_flatMap {sep : Char} {lines : List (List Char)} {last : List Char}
    (absent : ∀ line ∈ lines, sep ∉ line) (absentLast : sep ∉ last) :
    splitAt sep (lines.flatMap (· ++ [sep]) ++ last) = lines ++ [last] := by
  induction lines with
  | nil => exact splitAt_of_not_mem absentLast
  | cons line lines ih =>
    obtain ⟨first, later⟩ := List.forall_mem_cons.1 absent
    rw [List.flatMap_cons, List.append_assoc, List.append_assoc, List.singleton_append, splitAt_append,
      splitAt_of_not_mem first, ih later, List.singleton_append, List.cons_append]

theorem splitAt_joinWith {sep : Char} {pieces : List (List Char)} (absent : ∀ piece ∈ pieces, sep ∉ piece)
    (some_ : pieces ≠ []) : splitAt sep (joinWith sep pieces) = pieces := by
  induction pieces with
  | nil => exact absurd rfl some_
  | cons piece pieces ih =>
    obtain ⟨first, later⟩ := List.forall_mem_cons.1 absent
    cases pieces with
    | nil => exact splitAt_of_not_mem first
    | cons next pieces =>
      rw [joinWith, splitAt_append, splitAt_of_not_mem first, ih later (by simp), List.singleton_append]
      simp

end Herald.Text
