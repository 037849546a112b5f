import Herald.Proofs.Text.Blank
import Herald.Proofs.Text.Percent
import Herald.Proofs.Url.Host
import Herald.Url.Segments

/-! The segments of the path of a web address. Such a path starts with a slash, and stays so; a segment that is
put behind it is one more segment in encoded form, which decodes to its text. Only a text of dots is none: it
adds an empty segment, or takes one away. -/
namespace Herald

open Herald.Text

namespace Url.Path

def IsAbsolute (path : List Char) : Prop := path.head? = some '/'

def segments (path : List Char) : List (List Char) := (splitAt '/' path).drop 1

/-- The segments that come before a new one; the slash that opens a path is not a segment then. -/
def before (path : List Char) : List (List Char) := if path = ['/'] then [] else segments path

def grow (path segment : List Char) : List Char :=
  if path = ['/'] then '/' :: segment else path ++ '/' :: segment

variable {path segment : List Char}

theorem segments_append (path : List Char) {segment : List Char} (whole : '/' ∉ segment) :
    segments (path ++ '/' :: segment) = segments path ++ [segment] := by
  have some_ : 1 ≤ (splitAt '/' path).length := List.length_pos_of_ne_nil (splitAt_ne_nil _ _)
  rw [segments, splitAt_append, splitAt_of_not_mem whole, List.drop_append_of_le_length some_]
  rfl

theorem segments_grow (path : List Char) {segment : List Char} (whole : '/' ∉ segment) :
    segments (grow path segment) = before path ++ [segment] := by
  unfold grow before
  split
  · exact segments_append [] whole
  · exact segments_append path whole

theorem IsAbsolute.of_prefix {part : List Char} (absolute : IsAbsolute path) (front : part <+: path)
    (some_ : part ≠ []) : IsAbsolute part := by
  obtain ⟨rest, rfl⟩ := front
  cases part with
  | nil => exact absurd rfl some_
  | cons c part => exact absolute

theorem IsAbsolute.slash_mem (absolute : IsAbsolute path) : '/' ∈ path :=
  List.mem_of_head? absolute

theorem cutLast_eq {a last : List Char} (whole : '/' ∉ last) :
    cutLast (a ++ '/' :: last) = (a ++ ['/'], last) := by
  have stops : ∀ c ∈ last.reverse, (c != '/') = true := by
    intro c mem
    simp only [bne_iff_ne]
    rintro rfl
    exact whole (List.mem_reverse.1 mem)
  simp only [cutLast, List.reverse_append, List.reverse_cons, List.append_assoc]
  rw [List.dropWhile_append_of_pos stops, List.takeWhile_append_of_pos stops]
  simp

theorem exists_last (slash : '/' ∈ path) :
    ∃ a last, '/' ∉ last ∧ path = a ++ '/' :: last := by
  obtain ⟨back, front, reversed, absent⟩ := List.eq_append_cons_of_mem (List.mem_reverse.2 slash)
  refine ⟨front.reverse, back.reverse, by simpa using absent, ?_⟩
  rw [← List.reverse_reverse path, reversed]
  simp

theorem isAbsolute_shorten (absolute : IsAbsolute path) : IsAbsolute (shorten .web path) := by
  obtain ⟨a, last, whole, rfl⟩ := exists_last absolute.slash_mem
  have short : shorten .web (a ++ '/' :: last) = a ++ ['/'] := by
    simp [shorten, cutLast_eq whole]
  rw [short]
  exact absolute.of_prefix ⟨last, by simp⟩ (by simp)

theorem isAbsolute_dropLast (absolute : IsAbsolute path)
    (removable : lastSlashRemovable path = true) : IsAbsolute path.dropLast := by
  refine absolute.of_prefix (List.dropLast_prefix path) fun none_ => ?_
  simp [lastSlashRemovable, none_, cutLast] at removable

theorem isAbsolute_append (absolute : IsAbsolute path) (more : List Char) :
    IsAbsolute (path ++ more) := by
  unfold IsAbsolute at *
  rw [List.head?_append, absolute]
  rfl

theorem isAbsolute_step (absolute : IsAbsolute path) (segment : List Char) (slash : Bool) :
    IsAbsolute (step .web path segment slash) := by
  unfold step
  dsimp only
  split
  · have kept : IsAbsolute
        (if endsWithSlash path && lastSlashRemovable path then path.dropLast else path) := by
      split
      · next cuts =>
        rw [Bool.and_eq_true] at cuts
        exact isAbsolute_dropLast absolute cuts.2
      · exact absolute
    generalize (if endsWithSlash path && lastSlashRemovable path then path.dropLast else path) =
      short at kept ⊢
    have shorter := isAbsolute_shorten kept
    split
    · exact isAbsolute_append shorter _
    · exact shorter
  · split
    · split
      · exact absolute
      · exact isAbsolute_append absolute _
    · rw [if_neg (by simp), List.append_assoc]
      exact isAbsolute_append absolute _

theorem isAbsolute_walk (absolute : IsAbsolute path) (current text : List Char) :
    IsAbsolute (walk .web path current text).1 := by
  induction text generalizing path current with
  | nil => exact isAbsolute_step absolute _ _
  | cons c text ih =>
    unfold walk
    split
    · exact ih (isAbsolute_step absolute _ _) _
    · split
      · exact isAbsolute_step absolute _ _
      · exact ih absolute _

theorem isAbsolute_readAfterHost (text : List Char) : IsAbsolute (readAfterHost .web text).1 := by
  have opens : IsAbsolute ['/'] := rfl
  have read (text : List Char) : IsAbsolute (read .web ['/'] text).1 := isAbsolute_walk opens [] text
  have special : Family.web.isSpecial = true := rfl
  unfold readAfterHost
  rw [if_pos special]
  split
  · split <;> exact read _
  · exact read _

def IsDots (s : List Char) : Prop := s = ['.'] ∨ s = ['.', '.']

instance (s : List Char) : Decidable (IsDots s) := inferInstanceAs (Decidable (_ ∨ _))

def encoded (s : List Char) : List Char := Percent.encode (reservedInSegment true) s

theorem decode_encoded (s : List Char) : Percent.decode (encoded s) = Utf8.encode s :=
  Percent.decode_encode (by decide) s

theorem slash_not_mem_encoded (s : List Char) : '/' ∉ encoded s :=
  Percent.not_mem_encode (by decide) (by decide) (by decide) s

theorem encoded_isDots_iff (s : List Char) :
    (isDot (encoded s) = true ∨ isDoubleDot (encoded s) = true) ↔ IsDots s := by
  constructor
  · intro spelled
    have one : ∀ text ∈ [".", "%2e", "%2E"], Percent.decode text.toList = Utf8.encode ['.'] := by
      decide
    have two : ∀ text ∈ ["..", "%2e%2e", "%2e%2E", "%2E%2e", "%2E%2E", "%2e.", "%2E.", ".%2e", ".%2E"],
        Percent.decode text.toList = Utf8.encode ['.', '.'] := by
      decide
    have decoded := spelled.imp (fun dot => one _ (List.contains_iff_mem.1 dot))
      fun dots => two _ (List.contains_iff_mem.1 dots)
    rw [String.toList_ofList, decode_encoded] at decoded
    exact decoded.imp Utf8.encode_inj Utf8.encode_inj
  · rintro (rfl | rfl) <;> decide

/-- What becomes of a path and a text that is put behind it as a segment. -/
inductive Pushed (path text result : List Char) : Prop
  | segment : ¬ IsDots text → segments result = before path ++ [encoded text] → Pushed path text result
  | empty : IsDots text → segments result = before path ++ [[]] → Pushed path text result
  | less : IsDots text → (before result).length ≤ (before path).length → Pushed path text result

theorem segments_cons (path : List Char) : segments ('/' :: path) = splitAt '/' path := by
  simp [segments, splitAt]

theorem IsAbsolute.segments_ne_nil (absolute : IsAbsolute path) : segments path ≠ [] := by
  obtain ⟨rest, rfl⟩ := List.head?_eq_some_iff.1 absolute
  rw [segments_cons]
  exact splitAt_ne_nil _ _

theorem IsAbsolute.eq_root (absolute : IsAbsolute path) (empty : segments path = [[]]) :
    path = ['/'] := by
  obtain ⟨rest, rfl⟩ := List.head?_eq_some_iff.1 absolute
  rw [segments_cons] at empty
  have joined := joinWith_splitAt '/' rest
  rw [empty] at joined
  rw [← joined]
  rfl

theorem before_of_ne_nil (some_ : before path ≠ []) : before path = segments path := by
  unfold before at *
  split
  · next root => exact absurd (if_pos root) some_
  · rfl

theorem before_eq_nil_iff (absolute : IsAbsolute path) : before path = [] ↔ path = ['/'] := by
  unfold before
  split
  · next root => simp [root]
  · next other => simp [other, absolute.segments_ne_nil]

theorem before_of_segments {kept : List (List Char)} {first second : List Char}
    (parts : segments path = kept ++ [first, second]) : before path = (kept ++ [first]) ++ [second] := by
  rw [before, parts, List.append_assoc]
  split
  · next root =>
    have count := congrArg List.length parts
    rw [root, List.length_append] at count
    simp [segments, splitAt] at count
  · rfl

theorem Pushed.length_le {text result : List Char} (pushed : Pushed path text result) :
    (before result).length ≤ (before path).length + 1 := by
  have small : (before result).length ≤ (segments result).length := by
    unfold before
    split <;> simp
  cases pushed with
  | segment _ parts => simpa [parts] using small
  | empty _ parts => simpa [parts] using small
  | less _ few => exact Nat.le_succ_of_le few

theorem Pushed.segments_eq {text result : List Char} (pushed : Pushed path text result)
    (plain : ¬ IsDots text) : segments result = before path ++ [encoded text] := by
  cases pushed with
  | segment _ parts => exact parts
  | empty dots => exact absurd dots plain
  | less dots => exact absurd dots plain

theorem Pushed.last_eq {text result last : List Char} {kept : List (List Char)}
    (pushed : Pushed path text result) (whole : before result = kept ++ [last])
    (few : (before path).length ≤ kept.length) :
    before path = kept ∧ (¬ IsDots text ∧ last = encoded text ∨ IsDots text ∧ last = []) := by
  have same : before result = segments result := before_of_ne_nil (by simp [whole])
  rw [whole] at same
  cases pushed with
  | segment plain parts =>
    rw [parts] at same
    obtain ⟨front, back⟩ := List.append_inj' same rfl
    exact ⟨front.symm, .inl ⟨plain, List.singleton_inj.1 back⟩⟩
  | empty dots parts =>
    rw [parts] at same
    obtain ⟨front, back⟩ := List.append_inj' same rfl
    exact ⟨front.symm, .inr ⟨dots, List.singleton_inj.1 back⟩⟩
  | less _ fewer =>
    rw [whole, List.length_append, List.length_singleton] at fewer
    omega

theorem grow_eq (absolute : IsAbsolute path) (segment : List Char) :
    (if path.length = 1 then path else path ++ ['/']) ++ segment = grow path segment := by
  unfold grow
  by_cases root : path = ['/']
  · simp [root]
  · have long : path.length ≠ 1 := by
      intro one
      obtain ⟨c, rfl⟩ := List.length_eq_one_iff.1 one
      exact root (by rw [Option.some.inj absolute])
    rw [if_neg long, if_neg root]
    simp

theorem length_before_cutLast (root : path ≠ ['/']) (absolute : IsAbsolute path) :
    (before (cutLast path).1).length ≤ (before path).length := by
  obtain ⟨a, last, whole, rfl⟩ := exists_last absolute.slash_mem
  have count (last : List Char) (whole : '/' ∉ last) :
      (segments (a ++ '/' :: last)).length = (segments a).length + 1 := by
    rw [segments_append a whole, List.length_append, List.length_singleton]
  rw [cutLast_eq whole]
  unfold before
  rw [if_neg root, count last whole]
  split
  · exact Nat.zero_le _
  · exact Nat.le_of_eq (count [] (by simp))

theorem pushed_dots (absolute : IsAbsolute path) {text : List Char} (dots : IsDots text) :
    Pushed path text
      (step .web (if path.length = 1 then path else path ++ ['/']) (encoded text) false) := by
  by_cases root : path = ['/']
  · refine .less dots ?_
    have stays : step .web ['/'] (encoded text) false = ['/'] := by
      rcases dots with rfl | rfl <;> decide
    exact Nat.le_of_eq (by rw [root, List.length_singleton, if_pos rfl, stays])
  · have start : (if path.length = 1 then path else path ++ ['/']) = path ++ ['/'] := by
      have grown := grow_eq absolute []
      rwa [List.append_nil, grow, if_neg root] at grown
    have ends : endsWithSlash (path ++ ['/']) = true := by simp [endsWithSlash]
    have opened : segments (path ++ ['/']) = before path ++ [[]] := by
      rw [before, if_neg root]
      exact segments_append path (by simp)
    rw [start]
    rcases dots with rfl | rfl
    · have stays : step .web (path ++ ['/']) (encoded ['.']) false = path ++ ['/'] := by
        have plain : encoded ['.'] = ['.'] := by decide
        have one : isDoubleDot ['.'] = false ∧ isDot ['.'] = true := by decide
        simp [step, plain, one, ends]
      exact .empty (.inl rfl) (by rw [stays, opened])
    · have up : step .web (path ++ ['/']) (encoded ['.', '.']) false =
          (cutLast (if lastSlashRemovable (path ++ ['/']) then path else path ++ ['/'])).1 := by
        have plain : encoded ['.', '.'] = ['.', '.'] := by decide
        have two : isDoubleDot ['.', '.'] = true := by decide
        simp [step, plain, two, ends, shorten]
      rw [up]
      split
      · exact .less (.inr rfl) (length_before_cutLast root absolute)
      · refine .empty (.inr rfl) ?_
        rw [cutLast_eq (by simp), opened]

end Url.Path

namespace Url

open Herald.Url.Path

variable {u : Url}

theorem segments_eq (u : Url) : u.segments = Path.segments u.path := rfl

/-- A text without its tabs and line ends becomes a segment. -/
theorem pushed_pushSegment (web : u.family = .web) (absolute : IsAbsolute u.path) (text : List Char) :
    IsAbsolute (u.pushSegment text).path ∧
      Pushed u.path (segmentText text) (u.pushSegment text).path := by
  unfold pushSegment
  split
  · next dots =>
    refine ⟨absolute, .less ?_ (Nat.le_refl _)⟩
    rcases dots with rfl | rfl <;> decide
  · simp only [web, settle, reduceCtorEq, if_false]
    have special : Family.web.isSpecial = true := rfl
    rw [special, ← encoded]
    have start : IsAbsolute (if u.path.length = 1 then u.path else u.path ++ ['/']) := by
      split
      · exact absolute
      · exact isAbsolute_append absolute _
    refine ⟨isAbsolute_step start _ _, ?_⟩
    by_cases dots : IsDots (segmentText text)
    · exact pushed_dots absolute dots
    · have plain := mt (encoded_isDots_iff (segmentText text)).1 dots
      rw [not_or, Bool.not_eq_true, Bool.not_eq_true] at plain
      have grown : step .web (if u.path.length = 1 then u.path else u.path ++ ['/'])
          (encoded (segmentText text)) false = grow u.path (encoded (segmentText text)) := by
        rw [← grow_eq absolute]
        simp [step, plain.1, plain.2]
      rw [grown]
      exact .segment dots (segments_grow u.path (slash_not_mem_encoded _))

theorem isAbsolute_of_parse {text : List Char} (parsed : parse text = .ok u) (web : u.family = .web) :
    IsAbsolute u.path := by
  simp only [parse] at parsed
  split at parsed
  · next scheme rest _ =>
    unfold readWithScheme at parsed
    split at parsed
    · next family =>
      simp only [afterSlashes, bind, Except.bind, pure, Except.pure, family] at parsed
      split at parsed <;> cases parsed
      exact isAbsolute_readAfterHost _
    · next file =>
      rw [Url.family, scheme_of_readFile parsed, file] at web
      cases web
    · next other =>
      rw [Url.family, scheme_of_readOther parsed, other] at web
      cases web
  · cases parsed

def stem (u : Url) : List (List Char) :=
  if u.segments.getLast? = some [] then u.segments.dropLast else u.segments

theorem isAbsolute_popEmptySegment (absolute : IsAbsolute u.path) :
    IsAbsolute u.popEmptySegment.path := by
  unfold popEmptySegment
  split
  · next cuts =>
    rw [Bool.and_eq_true, decide_eq_true_eq] at cuts
    refine absolute.of_prefix (List.dropLast_prefix _) fun none_ => ?_
    have few := congrArg List.length none_
    rw [List.length_dropLast, List.length_nil] at few
    omega
  · exact absolute

theorem before_popEmptySegment (absolute : IsAbsolute u.path) :
    u.path ≠ ['/', '/'] ∧ before u.popEmptySegment.path = u.stem ∨
      u.path = ['/', '/'] ∧ before u.popEmptySegment.path = [] ∧ u.stem = [[]] := by
  by_cases root : u.path = ['/']
  · refine .inl ⟨by simp [root], ?_⟩
    simp [popEmptySegment, stem, before, root, segments_eq, Path.segments, splitAt]
  · obtain ⟨a, last, whole, path⟩ := exists_last absolute.slash_mem
    have parts : u.segments = Path.segments a ++ [last] := by
      rw [segments_eq, path, segments_append a whole]
    cases last with
    | cons c last =>
      have ends : endsWithSlash u.path = false := by
        have inside : (c :: last).getLast? ≠ some '/' := fun is => whole (List.mem_of_getLast? is)
        simpa [endsWithSlash, path] using inside
      refine .inl ⟨fun two => by simp [two, endsWithSlash] at ends, ?_⟩
      simp [popEmptySegment, stem, before, root, ends, parts, ← segments_eq]
    | nil =>
      have ends : endsWithSlash u.path = true := by simp [endsWithSlash, path]
      have some_ : a ≠ [] := by
        rintro rfl
        exact root path
      have long : 1 < u.path.length := by
        have pos := List.length_pos_of_ne_nil some_
        rw [path, List.length_append, List.length_singleton]
        omega
      have popped : u.popEmptySegment.path = a := by
        rw [popEmptySegment, if_pos (by simp [long, ends])]
        simp [path]
      have kept : u.stem = Path.segments a := by simp [stem, parts]
      rw [popped, kept]
      by_cases opening : a = ['/']
      · exact .inr ⟨by rw [path, opening]; rfl, by simp [before, opening], by rw [opening]; rfl⟩
      · refine .inl ⟨fun two => opening ?_, by rw [before, if_neg opening]⟩
        rw [two] at path
        simpa using congrArg List.dropLast path.symm

theorem stem_eq_nil_iff (absolute : IsAbsolute u.path) : u.stem = [] ↔ u.path = ['/'] := by
  rcases before_popEmptySegment absolute with ⟨other, ready⟩ | ⟨two, -, kept⟩
  · rw [← ready, before_eq_nil_iff (isAbsolute_popEmptySegment absolute)]
    unfold popEmptySegment
    split
    · next cuts =>
      rw [Bool.and_eq_true, decide_eq_true_eq] at cuts
      have ends : u.path.getLast? = some '/' := by simpa [endsWithSlash] using cuts.2
      have whole := List.dropLast_append_getLast? '/' ends
      constructor
      · intro root
        have front : u.path.dropLast = ['/'] := root
        rw [front] at whole
        exact absurd whole.symm other
      · intro root
        rw [root] at cuts
        simp at cuts
    · rfl
  · simp [two, kept]

end Url

end Herald
