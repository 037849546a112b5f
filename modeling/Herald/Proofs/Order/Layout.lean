import Herald.Order.Summary
import Herald.Proofs.Order.Metadata

/-! The layout of a memo: what surrounds the texts of its lines. An order depends on the lines that hold more than
blanks and on nothing around them, since a tag is found in the ink of a single line or not at all. -/
namespace Herald.Order

open Herald.Text

def inkLines (content : List Char) : List (List Char) := (trimmedLines content).filter (· ≠ [])

def bare (content : String) : String := String.ofList (joinWith '\n' (inkLines content.toList))

/-- A line as it is laid out: an indent, a text, and blanks at the end such as a carriage return. -/
structure LaidLine where
  indent : List Char
  text : List Char
  tail : List Char
  blank_indent : Blank indent
  blank_tail : Blank tail
  noBreak : '\n' ∉ indent ++ (text ++ tail)

namespace LaidLine

def whole (line : LaidLine) : List Char := line.indent ++ (line.text ++ line.tail)

def memo (lines : List LaidLine) : String := String.ofList (joinWith '\n' (lines.map whole))

def plainMemo (lines : List LaidLine) : String :=
  String.ofList (joinWith '\n' ((lines.map text).filter (· ≠ [])))

end LaidLine

/-- A search that finds something in two texts with a blank between them if and only if it finds it in one of them,
and nothing in nothing. -/
structure StaysInInk {α : Type} (find : List Char → Option α) : Prop where
  nil : find [] = none
  blank : ∀ {c}, isBlank c = true → ∀ s r, find (s ++ c :: r) = (find s).or (find r)

variable {α : Type} {find : List Char → Option α} {content other : List Char} {lines : List (List Char)}

/-! ### Searches -/

namespace StaysInInk

theorem blank_append (stays : StaysInInk find) {a : List Char} (blank : Blank a) (s : List Char) :
    find (a ++ s) = find s := by
  induction a with
  | nil => rfl
  | cons c a ih =>
    obtain ⟨first, later⟩ := List.forall_mem_cons.1 blank
    have cut := stays.blank first [] (a ++ s)
    rwa [stays.nil, Option.none_or, ih later] at cut

theorem append_blank (stays : StaysInInk find) {b : List Char} (blank : Blank b) (s : List Char) :
    find (s ++ b) = find s := by
  cases b with
  | nil => rw [List.append_nil]
  | cons c b =>
    obtain ⟨first, later⟩ := List.forall_mem_cons.1 blank
    have nothing := stays.blank_append later []
    rw [List.append_nil, stays.nil] at nothing
    rw [stays.blank first, nothing, Option.or_none]

theorem trim (stays : StaysInInk find) (s : List Char) : find (trim s) = find s := by
  obtain ⟨a, b, blankA, blankB, whole⟩ := exists_blank_trim s
  have found := congrArg find whole
  rw [stays.blank_append blankA, stays.append_blank blankB] at found
  exact found.symm

theorem joinWith (stays : StaysInInk find) (lines : List (List Char)) :
    find (joinWith '\n' lines) = lines.findSome? find := by
  induction lines with
  | nil => exact stays.nil
  | cons line lines ih =>
    cases lines with
    | nil => simp [Text.joinWith]
    | cons next lines =>
      have cut : find (line ++ '\n' :: Text.joinWith '\n' (next :: lines)) = _ := stays.blank rfl _ _
      rw [ih] at cut
      rw [Text.joinWith, cut]
      · cases found : find line <;> simp [found]
      · simp

theorem inkLines (stays : StaysInInk find) (content : List Char) :
    find content = (inkLines content).findSome? find := by
  have pieces := stays.joinWith (splitAt '\n' content)
  rw [joinWith_splitAt] at pieces
  rw [pieces, Order.inkLines, trimmedLines]
  induction splitAt '\n' content with
  | nil => rfl
  | cons piece pieces ih =>
    have ink := stays.trim piece
    by_cases empty : Text.trim piece = []
    · have nothing : find piece = none := by rw [← ink, empty, stays.nil]
      simp [nothing, empty, ih]
    · cases found : find piece with
      | none => simp [found.symm ▸ ink, found, empty, ih]
      | some a => simp [found.symm ▸ ink, found, empty]

end StaysInInk

theorem dropLead_append_cons {lead : List Char} {c : Char} (absent : c ∉ lead) (s r : List Char) :
    dropLead lead (s ++ c :: r) = (dropLead lead s).map (· ++ c :: r) := by
  induction lead generalizing s with
  | nil => simp [dropLead]
  | cons a lead ih =>
    rw [List.mem_cons, not_or] at absent
    cases s with
    | nil => simp [dropLead, Ne.symm absent.1]
    | cons b s =>
      by_cases same : a = b
      · simpa [dropLead, same] using ih absent.2 s
      · simp [dropLead, same]

theorem contains_cons (phrase : List Char) (c : Char) (s : List Char) :
    contains phrase (c :: s) = ((dropLead phrase (c :: s)).isSome || contains phrase s) := by
  rw [contains, cutAt, contains]
  cases dropLead phrase (c :: s) <;> simp

theorem ink_of_all {s : List Char} (all : (s.all fun c => !isBlank c) = true) : ∀ c ∈ s, isBlank c = false := by
  simpa using all

theorem staysInInk_contains {phrase : List Char} (some_ : phrase ≠ []) (ink : ∀ c ∈ phrase, isBlank c = false) :
    StaysInInk fun s => if contains phrase s then some () else none where
  nil := by simp [contains, cutAt, some_]
  blank {c} blank s r := by
    have absent : c ∉ phrase := fun mem => by simp [ink c mem] at blank
    have found : contains phrase (s ++ c :: r) = (contains phrase s || contains phrase r) := by
      induction s with
      | nil =>
        have lead := dropLead_append_cons absent [] r
        obtain ⟨a, lead_, rfl⟩ := List.exists_cons_of_ne_nil some_
        rw [List.nil_append] at lead ⊢
        rw [contains_cons, lead]
        simp [contains, cutAt, dropLead]
      | cons d s ih =>
        rw [List.cons_append, contains_cons, contains_cons, ih, ← List.cons_append, dropLead_append_cons absent,
          Option.isSome_map, Bool.or_assoc]
    rw [found]
    cases contains phrase s <;> cases contains phrase r <;> rfl

theorem isBlank_of_isMenuChar {c : Char} (menu : isMenuChar c = true) : isBlank c = false := by
  unfold isMenuChar Char.isAlphanum Char.isAlpha Char.isUpper Char.isLower Char.isDigit at menu
  simp only [Bool.or_eq_true, Bool.and_eq_true, decide_eq_true_eq, beq_iff_eq, ge_iff_le,
    UInt32.le_iff_toNat_le] at menu
  have code : c.toNat = c.val.toNat := rfl
  rcases menu with ((_ | _) | rfl) | rfl
  case inr => decide
  case inl.inr => decide
  all_goals
    simp [isBlank] at *
    omega

theorem not_isMenuChar_of_isBlank {c : Char} (blank : isBlank c = true) : isMenuChar c = false := by
  cases menu : isMenuChar c with
  | false => rfl
  | true =>
    rw [isBlank_of_isMenuChar menu] at blank
    cases blank

theorem takeWhile_append_cons {kind : Char → Bool} {c : Char} (stop : kind c = false) (s r : List Char) :
    (s ++ c :: r).takeWhile kind = s.takeWhile kind := by
  induction s with
  | nil => simp [stop]
  | cons d s ih => rw [List.cons_append, List.takeWhile_cons, List.takeWhile_cons, ih]

theorem menu?_cons (c : Char) (s : List Char) :
    menu? (c :: s) =
      if ((dropLead "#menu:".toList (c :: s)).getD []).takeWhile isMenuChar = [] then menu? s
      else some (((dropLead "#menu:".toList (c :: s)).getD []).takeWhile isMenuChar) := rfl

theorem staysInInk_menu? : StaysInInk menu? where
  nil := rfl
  blank {c} blank s r := by
    have absent : c ∉ "#menu:".toList := by
      intro mem
      have ink : ∀ d ∈ "#menu:".toList, isBlank d = false := ink_of_all (by decide)
      simp [ink c mem] at blank
    have name (s : List Char) :
        ((dropLead "#menu:".toList (s ++ c :: r)).getD []).takeWhile isMenuChar =
          ((dropLead "#menu:".toList s).getD []).takeWhile isMenuChar := by
      rw [dropLead_append_cons absent]
      cases dropLead "#menu:".toList s with
      | none => rfl
      | some rest => exact takeWhile_append_cons (not_isMenuChar_of_isBlank blank) rest r
    induction s with
    | nil =>
      have nothing := name []
      rw [List.nil_append] at nothing ⊢
      rw [menu?_cons, nothing]
      rfl
    | cons d s ih =>
      have here := name (d :: s)
      rw [List.cons_append] at here ⊢
      rw [menu?_cons, menu?_cons, here, ih]
      split
      · rfl
      · rfl

/-! ### Orders -/

theorem foldl_addLine_filter (o : Order) (lines : List (List Char)) :
    (lines.filter (· ≠ [])).foldl addLine o = lines.foldl addLine o := by
  induction lines generalizing o with
  | nil => rfl
  | cons line lines ih =>
    by_cases empty : line = []
    · simpa [empty, addLine_nil] using ih o
    · simpa [empty] using ih (o.addLine line)

/-- An order is known from the ink of its lines. -/
theorem parseText_congr (same : inkLines content = inkLines other) : parseText content = parseText other := by
  have tagged : contains tag content = contains tag other := by
    have found := (staysInInk_contains (show tag ≠ [] by decide) (ink_of_all (by decide))).inkLines
    have both := (found content).trans ((congrArg _ same).trans (found other).symm)
    revert both
    cases contains tag content <;> cases contains tag other <;> simp
  have menu : menu? content = menu? other := by
    rw [staysInInk_menu?.inkLines, same, ← staysInInk_menu?.inkLines]
  rw [parseText, parseText, tagged, menu, ← foldl_addLine_filter _ (trimmedLines content),
    ← foldl_addLine_filter _ (trimmedLines other)]
  simp only [inkLines] at same
  rw [same]

theorem inkLines_joinWith (noBreak : ∀ line ∈ lines, '\n' ∉ line) :
    inkLines (joinWith '\n' lines) = (lines.map trim).filter (· ≠ []) := by
  cases lines with
  | nil => rfl
  | cons line lines =>
    rw [inkLines, trimmedLines, splitAt_joinWith noBreak (by simp)]

theorem noBreak_of_mem_inkLines {line : List Char} (mem : line ∈ inkLines content) : '\n' ∉ line := by
  obtain ⟨piece, found, rfl⟩ := List.mem_map.1 (List.mem_filter.1 mem).1
  exact fun inside => not_mem_of_mem_splitAt found ((trim_sublist piece).mem inside)

theorem inkLines_bare (content : List Char) : inkLines (joinWith '\n' (inkLines content)) = inkLines content := by
  have trimmed : (inkLines content).map trim = inkLines content := by
    refine (List.map_congr_left fun line mem => ?_).trans (List.map_id _)
    obtain ⟨piece, -, rfl⟩ := List.mem_map.1 (List.mem_filter.1 mem).1
    exact trim_trim piece
  rw [inkLines_joinWith fun line mem => noBreak_of_mem_inkLines mem, trimmed]
  simp [inkLines]

theorem filter_trim (texts : List (List Char)) :
    ((texts.filter (· ≠ [])).map trim).filter (· ≠ []) = (texts.map trim).filter (· ≠ []) := by
  induction texts with
  | nil => rfl
  | cons text texts ih =>
    have nothing : trim [] = [] := rfl
    by_cases empty : text = []
    · simpa [empty, nothing] using ih
    · by_cases blank : trim text = []
      · simpa [empty, blank] using ih
      · simpa [empty, blank] using ih

theorem inkLines_memo (lines : List LaidLine) :
    inkLines (LaidLine.memo lines).toList = inkLines (LaidLine.plainMemo lines).toList := by
  have breaks (line : LaidLine) : '\n' ∉ line.whole ∧ '\n' ∉ line.text :=
    ⟨line.noBreak, fun inside => line.noBreak (by simp [inside])⟩
  have trimmed (line : LaidLine) : trim line.whole = trim line.text :=
    line.blank_indent.trim_append line.blank_tail line.text
  have texts : ∀ text ∈ (lines.map LaidLine.text).filter (· ≠ []), '\n' ∉ text := by
    intro text mem
    obtain ⟨line, -, rfl⟩ := List.mem_map.1 (List.mem_filter.1 mem).1
    exact (breaks line).2
  rw [LaidLine.memo, LaidLine.plainMemo, String.toList_ofList, String.toList_ofList, inkLines_joinWith texts,
    inkLines_joinWith (List.forall_mem_map.2 fun line _ => (breaks line).1), filter_trim, List.map_map,
    List.map_map]
  exact congrArg (List.filter _) (List.map_congr_left fun line _ => trimmed line)

/-- Whether a memo is an order, and the order and its summaries, are those of its lines trimmed, without the empty
ones, and joined by a single line feed. They do not depend on how lines are laid out: not on indents, on blanks at
the ends of lines, carriage returns among them, nor on blank lines. -/
theorem parse_bare (content : String) (lines : List LaidLine) :
    (parse content = parse (bare content) ∧
      ∀ style, summarize? style content = summarize? style (bare content)) ∧
    parse (LaidLine.memo lines) = parse (LaidLine.plainMemo lines) ∧
      ∀ style, summarize? style (LaidLine.memo lines) = summarize? style (LaidLine.plainMemo lines) := by
  have own : parse content = parse (bare content) := by
    refine parseText_congr ?_
    rw [bare, String.toList_ofList, inkLines_bare]
  have laid : parse (LaidLine.memo lines) = parse (LaidLine.plainMemo lines) := parseText_congr (inkLines_memo lines)
  exact ⟨⟨own, fun style => by rw [summarize?, own, summarize?]⟩, laid,
    fun style => by rw [summarize?, laid, summarize?]⟩

end Herald.Order
