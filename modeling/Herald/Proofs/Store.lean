import Herald.Proofs.Json.Roundtrip
import Herald.Proofs.Json.Slots
import Herald.Proofs.Json.Values
import Herald.Proofs.Text.Signed
import Herald.Proofs.Text.Utf8
import Herald.Store

/-! Hooks that are looked up in a file. The text of the file must be an object whose members are all lists of hooks;
any other file gives the same fault for every owner. The hooks of an owner are those of the last member whose key is
the number of the owner in plain form, whatever stands under other keys. A file and a store in memory that hold the
same map cannot be told apart. -/
namespace Herald

open Herald.Json Herald.Text

/-! ### Hooks as values -/

namespace Hook

/-- What members tell of a hook: its id and its locator once each, its title at most once. -/
structure Told (ms : List (Option (List Char) × Tree)) (h : Hook) : Prop where
  legible : ∀ m ∈ ms, m.1 ≠ none
  id : valuesAt "id" ms = [.string (some h.id.toList)]
  title : valuesAt "title" ms = [.string (some h.title.toList)] ∨ valuesAt "title" ms = [] ∧ h.title = ""
  url : valuesAt "url" ms = [.string (some h.url.toList)]

def IsTree (t : Tree) (h : Hook) : Prop := ∃ ms, Spells ["id", "title", "url"] t ms ∧ Told ms h

def textSlot (name : String) (required : Bool) (get : Draft → Option String) (put : String → Draft → Draft) :
    Slot Draft :=
  ⟨String, name, required, text, fun t x => t = .string (some x.toList), accepts_text, get, put⟩

def slots : List (Slot Draft) := [
  textSlot "id" true Draft.id fun v d => { d with id := some v },
  textSlot "title" false Draft.title fun v d => { d with title := some v },
  textSlot "url" true Draft.url fun v d => { d with url := some v }]

theorem spans_slots : Slot.Spans slots where
  distinct := by decide
  get_put := by
    simp only [slots, List.forall_mem_cons, List.not_mem_nil, false_implies, implies_true, and_true]
    exact ⟨fun _ _ => rfl, fun _ _ => rfl, fun _ _ => rfl⟩
  get_put_other := by
    intro slot mem other otherMem ne v d
    simp only [slots, List.mem_cons, List.not_mem_nil, or_false] at mem otherMem
    rcases mem with rfl | rfl | rfl <;> rcases otherMem with rfl | rfl | rfl <;>
      first | rfl | exact absurd rfl ne
  ext := by
    rintro ⟨id, title, url⟩ ⟨id', title', url'⟩ same
    simp only [slots, List.forall_mem_cons] at same
    obtain ⟨rfl, rfl, rfl, -⟩ := same
    rfl

theorem valuesAt_of_atMostOnce {ts : List Tree} {text : Option String}
    (once : AtMostOnce (fun t (x : String) => t = .string (some x.toList)) ts text) :
    ts = [.string (some (text.getD "").toList)] ∨ ts = [] ∧ text = none := by
  cases once with
  | absent => exact .inr ⟨rfl, rfl⟩
  | once is => exact .inl (by rw [is]; rfl)

theorem told_iff {ms : List (Option (List Char) × Tree)} {h : Hook} :
    (∃ d : Draft, Slot.Filled slots ms d ∧ d.hook = h) ↔ Told ms h := by
  constructor
  · rintro ⟨d, ⟨legible, values, complete⟩, rfl⟩
    simp only [slots, List.forall_mem_cons] at values complete
    refine ⟨legible, ?_, ?_, ?_⟩
    · exact (valuesAt_of_atMostOnce values.1).resolve_right fun absent => complete.1 rfl absent.2
    · refine (valuesAt_of_atMostOnce values.2.1).imp_right fun ⟨nothing, absent⟩ => ⟨nothing, ?_⟩
      exact congrArg (fun title : Option String => title.getD "") absent
    · exact (valuesAt_of_atMostOnce values.2.2.1).resolve_right fun absent => complete.2.2.1 rfl absent.2
  · rintro ⟨legible, id, title, url⟩
    have filled {known : Option String}
        (once : AtMostOnce (fun t (x : String) => t = .string (some x.toList)) (valuesAt "title" ms) known) :
        Slot.Filled slots ms ⟨some h.id, known, some h.url⟩ := by
      refine ⟨legible, ?_, ?_⟩
      · simp only [slots, List.forall_mem_cons]
        exact ⟨atMostOnce_some_iff.2 ⟨_, id, rfl⟩, once, atMostOnce_some_iff.2 ⟨_, url, rfl⟩, nofun⟩
      · simp only [slots, List.forall_mem_cons]
        exact ⟨nofun, nofun, nofun, nofun⟩
    rcases title with single | ⟨absent, default⟩
    · exact ⟨_, filled (atMostOnce_some_iff.2 ⟨_, single, rfl⟩), rfl⟩
    · refine ⟨_, filled (atMostOnce_none_iff.2 absent), ?_⟩
      rw [Draft.hook, Option.getD_none, ← default]
      rfl

theorem accepts_reader : Accepts reader IsTree := by
  have blank : ∀ slot ∈ slots, slot.get shape.blank = none := by
    simp only [slots, List.forall_mem_cons, List.not_mem_nil, false_implies, implies_true, and_true]
    exact ⟨rfl, rfl, rfl⟩
  intro s h r
  rw [reader, accepts_map (spans_slots.accepts_record rfl blank) Draft.hook s h r]
  refine exists_congr fun t => and_congr_right fun _ => ?_
  constructor
  · rintro ⟨d, ⟨ms, spells, filled⟩, is⟩
    exact ⟨ms, spells, told_iff.1 ⟨d, filled, is⟩⟩
  · rintro ⟨ms, spells, told⟩
    obtain ⟨d, filled, is⟩ := told_iff.2 told
    exact ⟨d, ⟨ms, spells, filled⟩, is⟩

end Hook

namespace Store

/-! ### Files -/

def IsHooks (t : Tree) (hooks : List Hook) : Prop := ∃ ts, t = .list ts ∧ List.Forall₂ Hook.IsTree ts hooks

/-- A file with a text that is an object, whose members are all lists of hooks. -/
def HasMembers (file : Option (List UInt8)) (members : List (String × List Hook)) : Prop :=
  ∃ text ms, file = some (Utf8.encode text) ∧ IsText (.object ms) text ∧ List.Forall₂ (IsMember IsHooks) ms members

variable {file other : Option (List UInt8)} {members others : List (String × List Hook)} {owner : Int}

theorem parseFile_eq_ok_iff {text : List Char} : parseFile text = .ok members ↔
    ∃ ms, IsText (.object ms) text ∧ List.Forall₂ (IsMember IsHooks) ms members := by
  rw [parseFile, whole_eq_ok_iff (accepts_members (accepts_list Hook.accepts_reader))]
  constructor
  · rintro ⟨_, is, ms, rfl, all⟩
    exact ⟨ms, is, all⟩
  · rintro ⟨ms, is, all⟩
    exact ⟨_, is, ms, rfl, all⟩

theorem hasMembers_iff : HasMembers file members ↔ (Source.ofBytes file).read parseFile = .ok members := by
  simp only [Source.read_eq_ok_iff, Source.ofBytes_eq_text_iff, parseFile_eq_ok_iff, HasMembers, exists_and_left]

theorem HasMembers.fileHooks_eq (has : HasMembers file members) (path : String) (owner : Int) :
    fileHooks path (.ofBytes file) owner = .ok (ofOwner members owner) := by
  rw [fileHooks, hasMembers_iff.1 has]

/-- What a file without such members says of itself: it has no text, or a wrong one. -/
structure Refuses (path : String) (file : Option (List UInt8)) (fault : FileFault) : Prop where
  always : ∀ owner, fileHooks path (.ofBytes file) owner = .error fault
  unreadable : (∀ text, file ≠ some (Utf8.encode text)) → fault.context = s!"failed to read {path}"
  malformed : ∀ text, file = some (Utf8.encode text) → fault.context = s!"failed to parse {path}"

theorem exists_refuses (none_ : ¬ ∃ members, HasMembers file members) (path : String) :
    ∃ fault, Refuses path file fault := by
  have textless (known : ∀ text, Source.ofBytes file ≠ .text text) (text : List Char) :
      file ≠ some (Utf8.encode text) := fun is => known text (Source.ofBytes_eq_text_iff.2 is)
  cases found : Source.ofBytes file with
  | missing =>
    refine ⟨.unreadable path .missing, fun owner => by rw [found]; rfl, fun _ => rfl, fun text is => ?_⟩
    exact absurd is (textless (by simp [found]) text)
  | notText =>
    refine ⟨.unreadable path .notText, fun owner => by rw [found]; rfl, fun _ => rfl, fun text is => ?_⟩
    exact absurd is (textless (by simp [found]) text)
  | text content =>
    cases parsed : parseFile content with
    | ok members =>
      have read := Source.read_eq_ok_iff.2 ⟨content, found, parsed⟩
      exact absurd ⟨members, hasMembers_iff.2 read⟩ none_
    | error fault =>
      have read : (Source.text content).read parseFile = .error (.json fault content) := by
        rw [Source.read, parsed]
        rfl
      refine ⟨.malformed path (.json fault content), fun owner => ?_, fun missing => ?_, fun _ _ => rfl⟩
      · rw [fileHooks, found, read]
      · exact absurd (Source.ofBytes_eq_text_iff.1 found) (missing content)

/-! ### Owners -/

def Names (key : String) (owner : Int) : Prop := Numbers key.toList owner ∧ IsPlain key.toList

theorem names_iff {key : String} : Names key owner ↔ key = String.ofList (intDigits owner) := by
  constructor
  · rintro ⟨numbers, plain⟩
    rw [← numbers.eq_intDigits plain, String.ofList_toList]
  · rintro rfl
    rw [Names, String.toList_ofList]
    exact ⟨numbers_intDigits owner, isPlain_intDigits owner⟩

instance (key : String) (owner : Int) : Decidable (Names key owner) := decidable_of_iff _ names_iff.symm

/-- The hooks of the last member of an owner; none if there is no such member. -/
inductive Latest (owner : Int) : List (String × List Hook) → List Hook → Prop
  | none {members : List (String × List Hook)} : (∀ m ∈ members, ¬ Names m.1 owner) → Latest owner members []
  | last {key : String} {hooks : List Hook} {before after : List (String × List Hook)} : Names key owner →
    (∀ m ∈ after, ¬ Names m.1 owner) → Latest owner (before ++ (key, hooks) :: after) hooks

theorem ofOwner_eq (members : List (String × List Hook)) (owner : Int) :
    ofOwner members owner = ((members.reverse.find? fun m => Names m.1 owner).map Prod.snd).getD [] := by
  have same : (fun m : String × List Hook => m.1 == String.ofList (intDigits owner)) =
      fun m => decide (Names m.1 owner) := by
    funext m
    rw [beq_eq_decide, decide_eq_decide, names_iff]
  rw [ofOwner, same]

theorem latest_ofOwner (members : List (String × List Hook)) (owner : Int) :
    Latest owner members (ofOwner members owner) := by
  rw [ofOwner_eq]
  cases found : members.reverse.find? fun m => Names m.1 owner with
  | none =>
    refine .none fun m mem => ?_
    have other := List.find?_eq_none.1 found m (List.mem_reverse.2 mem)
    simpa using other
  | some m =>
    obtain ⟨names, after, before, split, none_⟩ := List.find?_eq_some_iff_append.1 found
    have parts : members = before.reverse ++ (m.1, m.2) :: after.reverse := by
      rw [← List.reverse_reverse members, split]
      simp
    rw [parts]
    refine .last (by simpa using names) fun m mem => ?_
    simpa using none_ m (List.mem_reverse.1 mem)

theorem ofOwner_filter (members : List (String × List Hook)) (owner : Int) :
    ofOwner (members.filter fun m => Names m.1 owner) owner = ofOwner members owner := by
  rw [ofOwner_eq, ofOwner_eq, ← List.filter_reverse, List.find?_filter]
  simp

theorem Names.unique {key : String} {z : Int} (names : Names key owner) (others : Names key z) : owner = z :=
  names.1.unique others.1

/-! ### Maps -/

def setAll (s : Store) (entries : List (Int × List Hook)) : Store := entries.foldl (fun s e => s.set e.1 e.2) s

def addAll (s : Store) (hooks : List (Int × Hook)) : Store := hooks.foldl (fun s h => s.add h.1 h.2) s

theorem get_setAll {s : Store} {entries : List (Int × List Hook)} {hooks : List Hook}
    (same : ∀ e ∈ entries, e.1 = owner → e.2 = hooks) (there : (∃ e ∈ entries, e.1 = owner) ∨ s.get owner = hooks) :
    (s.setAll entries).get owner = hooks := by
  -- by induction on the entries: the last one of an owner counts, and all of them have the same hooks
  induction entries generalizing s with
  | nil => exact there.resolve_left nofun
  | cons e entries ih =>
    obtain ⟨first, rest⟩ := List.forall_mem_cons.1 same
    have step : s.setAll (e :: entries) = (s.set e.1 e.2).setAll entries := rfl
    rw [step]
    refine ih rest ?_
    by_cases own : e.1 = owner
    · rw [own, get_set_self]
      exact .inr (first own)
    · rw [get_set_other s (Ne.symm own)]
      refine there.imp_left ?_
      rintro ⟨d, mem, is⟩
      rcases List.mem_cons.1 mem with rfl | mem
      · exact absurd is own
      · exact ⟨d, mem, is⟩

theorem get_addAll (s : Store) (hooks : List (Int × Hook)) (owner : Int) :
    (s.addAll hooks).get owner = s.get owner ++ (hooks.filter fun h => h.1 = owner).map Prod.snd := by
  induction hooks generalizing s with
  | nil => simp [addAll]
  | cons h hooks ih =>
    have step : s.addAll (h :: hooks) = (s.add h.1 h.2).addAll hooks := rfl
    rw [step, ih]
    by_cases own : h.1 = owner
    · simp [own, get_add_self]
    · simp [own, add, get_set_other s (Ne.symm own)]

def listText (hooks : List Hook) : List Char := writeList (hooks.map Hook.json)

theorem writes_listText (hooks : List Hook) : Writes (list Hook.reader) (listText hooks) hooks :=
  writes_list fun h _ => h.writes_json

/-- A finite map from owners to their hooks. -/
structure Assignment where
  entries : List (Int × List Hook)
  distinct : (entries.map Prod.fst).Nodup

namespace Assignment

def hooks (a : Assignment) (owner : Int) : List Hook := ((a.entries.find? fun e => e.1 = owner).map Prod.snd).getD []

def IsIn (a : Assignment) (file : Option (List UInt8)) : Prop :=
  ∃ members, HasMembers file members ∧ ∀ m, m ∈ members ↔ ∃ e ∈ a.entries, Names m.1 e.1 ∧ m.2 = e.2

def IsSetBy (a : Assignment) (entries : List (Int × List Hook)) : Prop := ∀ e, e ∈ entries ↔ e ∈ a.entries

/-- The hooks of each owner in their order, between those of other owners. -/
def IsAddedBy (a : Assignment) (hooks : List (Int × Hook)) : Prop :=
  ∀ owner, (hooks.filter fun h => h.1 = owner).map Prod.snd = a.hooks owner

def parts (a : Assignment) : List (String × List Hook) :=
  a.entries.map fun e => (String.ofList (intDigits e.1), e.2)

def json (a : Assignment) : List Char :=
  writeObject (a.parts.map fun m => (m.1, listText m.2))

variable {a : Assignment} {listed : List Hook}

theorem hooks_of_mem (mem : (owner, listed) ∈ a.entries) : a.hooks owner = listed := by
  rw [hooks]
  cases found : a.entries.find? fun e => e.1 = owner with
  | none =>
    have other := List.find?_eq_none.1 found _ mem
    simp at other
  | some e =>
    have own : e.1 = owner := by simpa using List.find?_some found
    have same := List.inj_on_of_nodup_map a.distinct (List.mem_of_find?_eq_some found) mem own
    rw [same]
    rfl

theorem hooks_of_not_mem (new : owner ∉ a.entries.map Prod.fst) : a.hooks owner = [] := by
  have found : (a.entries.find? fun e => e.1 = owner) = none := by
    refine List.find?_eq_none.2 fun e mem => ?_
    have other : e.1 ≠ owner := fun own => new (own ▸ List.mem_map_of_mem mem)
    simpa using other
  rw [hooks, found]
  rfl

theorem IsIn.fileHooks_eq (isIn : a.IsIn file) (path : String) (owner : Int) :
    fileHooks path (.ofBytes file) owner = .ok (a.hooks owner) := by
  obtain ⟨members, has, all⟩ := isIn
  rw [has.fileHooks_eq]
  congr 1
  have latest := latest_ofOwner members owner
  generalize ofOwner members owner = found at latest
  cases latest with
  | none none_ =>
    refine (hooks_of_not_mem fun there => ?_).symm
    obtain ⟨e, mem, rfl⟩ := List.mem_map.1 there
    have names : Names (String.ofList (intDigits e.1)) e.1 := names_iff.2 rfl
    exact none_ (_, e.2) ((all _).2 ⟨e, mem, names, rfl⟩) names
  | last names _ =>
    obtain ⟨⟨z, listed⟩, mem, named, same⟩ := (all _).1 (List.mem_append_right _ List.mem_cons_self)
    obtain rfl := names.unique named
    exact same.trans (hooks_of_mem mem).symm

theorem IsSetBy.get_eq {entries : List (Int × List Hook)} (isSet : a.IsSetBy entries) (owner : Int) :
    (({} : Store).setAll entries).get owner = a.hooks owner := by
  refine get_setAll (fun e mem own => ?_) ?_
  · exact (hooks_of_mem (own ▸ (isSet e).1 mem)).symm
  · by_cases there : ∃ e ∈ entries, e.1 = owner
    · exact .inl there
    · refine .inr (hooks_of_not_mem fun known => ?_).symm
      obtain ⟨e, mem, own⟩ := List.mem_map.1 known
      exact there ⟨e, (isSet e).2 mem, own⟩

theorem IsAddedBy.get_eq {added : List (Int × Hook)} (isAdded : a.IsAddedBy added) (owner : Int) :
    (({} : Store).addAll added).get owner = a.hooks owner := by
  rw [get_addAll, isAdded owner]
  rfl

theorem isIn_json (a : Assignment) : a.IsIn (some (Utf8.encode a.json)) := by
  have read : parseFile a.json = .ok a.parts := whole_of_writes (writes_members fun m _ => writes_listText m.2)
  refine ⟨a.parts, hasMembers_iff.2 (Source.read_eq_ok_iff.2 ⟨_, Source.ofBytes_eq_text_iff.2 rfl, read⟩), ?_⟩
  rintro ⟨key, listed⟩
  simp only [parts, List.mem_map, names_iff, Prod.mk.injEq]
  constructor
  · rintro ⟨e, mem, rfl, rfl⟩
    exact ⟨e, mem, rfl, rfl⟩
  · rintro ⟨e, mem, rfl, rfl⟩
    exact ⟨e, mem, rfl, rfl⟩

theorem isAddedBy_entries (a : Assignment) : a.IsAddedBy (a.entries.flatMap fun e => e.2.map fun h => (e.1, h)) := by
  intro owner
  have skipped {entries : List (Int × List Hook)} (new : owner ∉ entries.map Prod.fst) :
      (entries.flatMap fun e => e.2.map fun h => (e.1, h)).filter (fun h => h.1 = owner) = [] := by
    refine List.filter_eq_nil_iff.2 fun h mem => ?_
    obtain ⟨e, known, added⟩ := List.mem_flatMap.1 mem
    obtain ⟨_, -, rfl⟩ := List.mem_map.1 added
    have other : e.1 ≠ owner := fun own => new (own ▸ List.mem_map_of_mem known)
    simpa using other
  by_cases there : owner ∈ a.entries.map Prod.fst
  · obtain ⟨⟨z, listed⟩, mem, own⟩ := List.mem_map.1 there
    obtain rfl : z = owner := own
    rw [hooks_of_mem mem]
    have distinct := a.distinct
    obtain ⟨before, after, split⟩ := List.append_of_mem mem
    rw [split, List.map_append, List.map_cons, List.nodup_middle, List.nodup_cons, List.mem_append, not_or] at distinct
    have kept : (listed.map fun h => (z, h)).filter (fun h => h.1 = z) = listed.map fun h => (z, h) := by simp
    have back : (listed.map fun h => (z, h)).map Prod.snd = listed := by
      rw [List.map_map]
      exact List.map_id listed
    rw [split, List.flatMap_append, List.flatMap_cons, List.filter_append, List.filter_append, skipped distinct.1.1,
      skipped distinct.1.2, kept, List.nil_append, List.append_nil, back]
  · rw [hooks_of_not_mem there, skipped there]
    rfl

end Assignment

/-- Hooks are looked up exactly, for each owner alone, and a file answers like a store in memory. -/
theorem lookup_exact (path : String) (file : Option (List UInt8)) :
    ((¬ ∃ members, HasMembers file members) → ∃ fault, Refuses path file fault) ∧
      (∀ members, HasMembers file members → ∀ owner,
        (∃ hooks, fileHooks path (.ofBytes file) owner = .ok hooks ∧ Latest owner members hooks) ∧
        ∀ other others, HasMembers other others →
          (others.filter fun m => Names m.1 owner) = (members.filter fun m => Names m.1 owner) →
          fileHooks path (.ofBytes other) owner = fileHooks path (.ofBytes file) owner) ∧
      ∀ a : Assignment, a.IsIn file → ∀ entries added, a.IsSetBy entries → a.IsAddedBy added → ∀ owner,
        fileHooks path (.ofBytes file) owner = .ok ((({} : Store).setAll entries).get owner) ∧
        fileHooks path (.ofBytes file) owner = .ok ((({} : Store).addAll added).get owner) := by
  refine ⟨fun none_ => exists_refuses none_ path, fun members has owner => ⟨?_, ?_⟩, ?_⟩
  · exact ⟨_, has.fileHooks_eq path owner, latest_ofOwner members owner⟩
  · intro other others hasOthers same
    rw [has.fileHooks_eq, hasOthers.fileHooks_eq, ← ofOwner_filter members, ← ofOwner_filter others, same]
  · intro a isIn entries added isSet isAdded owner
    rw [isIn.fileHooks_eq, isSet.get_eq, isAdded.get_eq]
    exact ⟨rfl, rfl⟩

/-- A file that names an owner twice and has a key with a zero in front, no file, and a map with a negative owner. -/
theorem lookup_exact_of_repeated_owner :
    let hook : Hook := ⟨"a", "", "b"⟩
    let text :=
      "\x7b\x221\x22:[],\x2201\x22:[],\x221\x22:[\x7b\x22url\x22:\x22b\x22,\x22id\x22:\x22a\x22\x7d]\x7d".toList
    let a : Assignment := ⟨[(-2, [hook]), (1, [])], by decide⟩
    let added : List (Int × Hook) := [(-2, hook)]
    (∃ fault, Refuses "f" none fault) ∧
      (∃ hooks, fileHooks "f" (.ofBytes (some (Utf8.encode text))) 1 = .ok hooks ∧
        Latest 1 [("1", []), ("01", []), ("1", [hook])] hooks) ∧
      fileHooks "f" (.ofBytes (some (Utf8.encode a.json))) (-2) = .ok ((({} : Store).addAll added).get (-2)) := by
  intro hook text a added
  have missing : ¬ ∃ members, HasMembers none members := by
    rintro ⟨_, _, _, is, -⟩
    cases is
  have read : parseFile text = .ok [("1", []), ("01", []), ("1", [hook])] := by rfl
  have has : HasMembers (some (Utf8.encode text)) [("1", []), ("01", []), ("1", [hook])] :=
    hasMembers_iff.2 (Source.read_eq_ok_iff.2 ⟨_, Source.ofBytes_eq_text_iff.2 rfl, read⟩)
  have isSet : a.IsSetBy a.entries := fun _ => Iff.rfl
  refine ⟨(lookup_exact "f" none).1 missing, ((lookup_exact "f" _).2.1 _ has 1).1, ?_⟩
  exact ((lookup_exact "f" _).2.2 a a.isIn_json _ added isSet a.isAddedBy_entries (-2)).2

end Store

end Herald
