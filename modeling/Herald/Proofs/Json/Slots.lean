import Herald.Proofs.Json.Accepted
import Mathlib.Data.List.Nodup

/-! Records as a whole. A slot of a draft takes the value of one field. Slots that have names of their own and do not
touch each other are filled by an object independently: each from the only value under its name, if there is one. A
list of values is taken for the object that has them under the names of the fields, in their order. -/
namespace Herald.Json

open Herald.Text

variable {α δ : Type} {means : Tree → α → Prop} {ms : List (Option (List Char) × Tree)}

/-! ### The values of a key -/

def valuesAt (key : String) (ms : List (Option (List Char) × Tree)) : List Tree :=
  ms.filterMap fun m => if m.1 = some key.toList then some m.2 else none

theorem valuesAt_self (key : String) (t : Tree) : valuesAt key ((some key.toList, t) :: ms) = t :: valuesAt key ms := by
  simp [valuesAt]

theorem valuesAt_other {key : String} {other : List Char} (different : key.toList ≠ other) (t : Tree) :
    valuesAt key ((some other, t) :: ms) = valuesAt key ms := by
  simp [valuesAt, Ne.symm different]

inductive Adds (means : Tree → α → Prop) : Option α → List Tree → Option α → Prop
  | none {known : Option α} : Adds means known [] known
  | single {t : Tree} {x : α} : means t x → Adds means none [t] (some x)

theorem adds_nil_iff {known new : Option α} : Adds means known [] new ↔ new = known := by
  constructor
  · rintro ⟨⟩
    rfl
  · rintro rfl
    exact .none

theorem adds_cons_iff {known new : Option α} {t : Tree} {ts : List Tree} :
    Adds means known (t :: ts) new ↔ known = none ∧ ∃ x, means t x ∧ Adds means (some x) ts new := by
  constructor
  · rintro ⟨⟩
    next x is => exact ⟨rfl, x, is, .none⟩
  · rintro ⟨rfl, x, is, ⟨⟩⟩
    exact .single is

theorem Adds.eq_some {x : α} {ts : List Tree} {new : Option α} (adds : Adds means (some x) ts new) : new = some x := by
  cases adds
  rfl

inductive AtMostOnce (means : Tree → α → Prop) : List Tree → Option α → Prop
  | absent : AtMostOnce means [] none
  | once {t : Tree} {x : α} : means t x → AtMostOnce means [t] (some x)

theorem atMostOnce_none_iff {ts : List Tree} : AtMostOnce means ts none ↔ ts = [] := by
  constructor
  · rintro ⟨⟩
    rfl
  · rintro rfl
    exact .absent

theorem atMostOnce_some_iff {ts : List Tree} {x : α} : AtMostOnce means ts (some x) ↔ ∃ t, ts = [t] ∧ means t x := by
  constructor
  · rintro ⟨⟩
    next t is => exact ⟨t, rfl, is⟩
  · rintro ⟨t, rfl, is⟩
    exact .once is

theorem adds_none_iff {ts : List Tree} {new : Option α} : Adds means none ts new ↔ AtMostOnce means ts new := by
  constructor
  · rintro (_ | is)
    · exact .absent
    · exact .once is
  · rintro (_ | is)
    · exact .none
    · exact .single is

/-! ### Slots -/

/-- A place in a draft for the value of a field. -/
structure Slot (δ : Type) where
  Value : Type
  name : String
  required : Bool
  read : Reader Value
  means : Tree → Value → Prop
  accepts : Accepts read means
  get : δ → Option Value
  put : Value → δ → δ

def Slot.field (slot : Slot δ) : Field δ := .of slot.name slot.required slot.read slot.get slot.put

/-- The slots have names of their own, do not touch each other, and are all that there is of a draft. -/
structure Slot.Spans (slots : List (Slot δ)) : Prop where
  distinct : (slots.map Slot.name).Nodup
  get_put : ∀ slot ∈ slots, ∀ v d, slot.get (slot.put v d) = some v
  get_put_other : ∀ slot ∈ slots, ∀ other ∈ slots, other.name ≠ slot.name → ∀ v d,
    other.get (slot.put v d) = other.get d
  ext : ∀ d e, (∀ slot ∈ slots, slot.get d = slot.get e) → d = e

def Slot.meaning (slots : List (Slot δ)) (name : String) (t : Tree) (put : δ → δ) : Prop :=
  ∃ slot ∈ slots, slot.name = name ∧ ∃ v, slot.means t v ∧ slot.put v = put

namespace Slot.Spans

variable {slots : List (Slot δ)} {slot other : Slot δ} {d e : δ}

theorem eq_of_name (spans : Spans slots) (mem : slot ∈ slots) (otherMem : other ∈ slots)
    (same : other.name = slot.name) : other = slot :=
  List.inj_on_of_nodup_map spans.distinct otherMem mem same

theorem meaning_name (spans : Spans slots) (mem : slot ∈ slots) {t : Tree} {put : δ → δ} :
    meaning slots slot.name t put ↔ ∃ v, slot.means t v ∧ slot.put v = put := by
  constructor
  · rintro ⟨other, otherMem, same, known⟩
    obtain rfl := spans.eq_of_name mem otherMem same
    exact known
  · exact fun known => ⟨slot, mem, rfl, known⟩

theorem accept_fields (spans : Spans slots) : ∀ f ∈ slots.map field, Accepts f.read (meaning slots f.name) := by
  refine List.forall_mem_map.2 fun slot mem => ?_
  have same : meaning slots slot.field.name = fun t put => ∃ v, slot.means t v ∧ slot.put v = put := by
    funext t put
    exact propext (spans.meaning_name mem)
  rw [same]
  exact accepts_map slot.accepts slot.put

theorem find?_field (spans : Spans slots) (mem : slot ∈ slots) :
    ((slots.map field).find? fun f => f.name == String.ofList slot.name.toList) = some slot.field := by
  rw [String.ofList_toList]
  cases found : (slots.map field).find? fun f => f.name == slot.name with
  | none =>
    have different := List.find?_eq_none.1 found slot.field (List.mem_map_of_mem mem)
    exact absurd (beq_self_eq_true slot.name) different
  | some f =>
    obtain ⟨other, otherMem, rfl⟩ := List.mem_map.1 (List.mem_of_find?_eq_some found)
    have same := List.find?_some found
    rw [spans.eq_of_name mem otherMem (eq_of_beq same)]

theorem takes_slot_iff (spans : Spans slots) (mem : slot ∈ slots) {t : Tree} :
    Takes (slots.map field) (meaning slots) d ((some slot.name.toList, t) :: ms) e ↔
      slot.get d = none ∧ ∃ v, slot.means t v ∧ Takes (slots.map field) (meaning slots) (slot.put v d) ms e := by
  have isSet : slot.field.isSet d = (slot.get d).isSome := rfl
  have name : slot.field.name = slot.name := rfl
  rw [takes_field_iff (spans.find?_field mem), isSet, name, Option.isSome_eq_false_iff, Option.isNone_iff_eq_none]
  simp only [spans.meaning_name mem, exists_exists_and_eq_and]

theorem takes_iff (spans : Spans slots) : Takes (slots.map field) (meaning slots) d ms e ↔
    (∀ m ∈ ms, m.1 ≠ none) ∧ ∀ slot ∈ slots, Adds slot.means (slot.get d) (valuesAt slot.name ms) (slot.get e) := by
  induction ms generalizing d with
  | nil =>
    have same : e = d ↔ ∀ slot ∈ slots, slot.get e = slot.get d :=
      ⟨fun is _ _ => is ▸ rfl, fun all => spans.ext e d all⟩
    have nothing (key : String) : valuesAt key [] = [] := rfl
    rw [takes_nil_iff, same]
    simp only [nothing, adds_nil_iff, List.not_mem_nil, false_implies, implies_true, true_and]
  | cons m ms ih =>
    obtain ⟨_ | key, t⟩ := m
    · exact iff_of_false not_takes_of_illegible fun all => all.1 _ List.mem_cons_self rfl
    · have legible : (∀ m ∈ (some key, t) :: ms, m.1 ≠ none) ↔ ∀ m ∈ ms, m.1 ≠ none := by simp
      rw [legible]
      by_cases known : ∃ slot ∈ slots, slot.name.toList = key
      · obtain ⟨slot, mem, rfl⟩ := known
        have differ {other : Slot δ} (ne : other.name ≠ slot.name) : other.name.toList ≠ slot.name.toList :=
          fun same => ne (String.toList_inj.1 same)
        rw [spans.takes_slot_iff mem]
        simp only [ih]
        constructor
        · rintro ⟨unset, v, is, legible, all⟩
          refine ⟨legible, fun other otherMem => ?_⟩
          by_cases same : other.name = slot.name
          · obtain rfl := spans.eq_of_name mem otherMem same
            have own := all other mem
            rw [spans.get_put other mem] at own
            rw [valuesAt_self]
            exact adds_cons_iff.2 ⟨unset, v, is, own⟩
          · have own := all other otherMem
            rw [spans.get_put_other slot mem other otherMem same] at own
            rwa [valuesAt_other (differ same)]
        · rintro ⟨legible, all⟩
          have own := all slot mem
          rw [valuesAt_self] at own
          obtain ⟨unset, v, is, rest⟩ := adds_cons_iff.1 own
          refine ⟨unset, v, is, legible, fun other otherMem => ?_⟩
          by_cases same : other.name = slot.name
          · obtain rfl := spans.eq_of_name mem otherMem same
            rwa [spans.get_put other mem]
          · have own := all other otherMem
            rw [valuesAt_other (differ same)] at own
            rwa [spans.get_put_other slot mem other otherMem same]
      · have differ : ∀ slot ∈ slots, slot.name.toList ≠ key := fun slot mem same => known ⟨slot, mem, same⟩
        have unknown : ((slots.map field).find? fun f => f.name == String.ofList key) = none := by
          refine List.find?_eq_none.2 (List.forall_mem_map.2 fun slot mem found => ?_)
          have same : slot.name = String.ofList key := eq_of_beq found
          exact differ slot mem (by rw [same, String.toList_ofList])
        rw [takes_other_iff unknown, ih]
        refine and_congr_right fun _ => forall₂_congr fun slot mem => ?_
        rw [valuesAt_other (differ slot mem)]

end Slot.Spans

/-! ### Records -/

def keyed (names : List String) (ts : List Tree) : List (Option (List Char) × Tree) :=
  names.zipWith (fun name t => (some name.toList, t)) ts

/-- A value that is written as a record: an object, or a list of at most as many values as there are fields. -/
inductive Spells (names : List String) : Tree → List (Option (List Char) × Tree) → Prop
  | object {ms : List (Option (List Char) × Tree)} : Spells names (.object ms) ms
  | list {ts : List Tree} : ts.length ≤ names.length → Spells names (.list ts) (keyed names ts)

structure Slot.Filled (slots : List (Slot δ)) (ms : List (Option (List Char) × Tree)) (d : δ) : Prop where
  legible : ∀ m ∈ ms, m.1 ≠ none
  values : ∀ slot ∈ slots, AtMostOnce slot.means (valuesAt slot.name ms) (slot.get d)
  complete : ∀ slot ∈ slots, slot.required = true → slot.get d ≠ none

namespace Slot.Spans

variable {slots rest : List (Slot δ)} {d e : δ}

theorem places_iff (spans : Spans slots) (left : rest ⊆ slots) (distinct : (rest.map Slot.name).Nodup)
    (blank : ∀ slot ∈ rest, slot.get d = none) {ts : List Tree} :
    Places (meaning slots) (rest.map field) d ts e ↔ ts.length ≤ rest.length ∧
      Takes (slots.map field) (meaning slots) d (keyed (rest.map Slot.name) ts) e ∧
      ∀ slot ∈ rest, slot.required = true → slot.get e ≠ none := by
  induction rest generalizing d ts with
  | nil =>
    have nothing : keyed [] ts = [] := rfl
    simp [places_nil_iff, takes_nil_iff, nothing]
  | cons slot rest ih =>
    obtain ⟨mem, left⟩ := List.cons_subset.1 left
    obtain ⟨new, distinct⟩ := List.nodup_cons.1 distinct
    obtain ⟨unset, blank⟩ := List.forall_mem_cons.1 blank
    rw [List.map_cons, places_cons_iff]
    cases ts with
    | nil =>
      have nothing (names : List String) : keyed names [] = [] := List.zipWith_nil_right
      have optional : slot.field.required = slot.required := rfl
      simp only [ih left distinct blank, nothing, takes_nil_iff, List.forall_mem_cons, optional]
      constructor
      · rintro (⟨-, optional, -, rfl, complete⟩ | ⟨_, _, _, is, -⟩)
        · exact ⟨Nat.zero_le _, rfl, fun needed => by simp [optional] at needed, complete⟩
        · cases is
      · rintro ⟨-, rfl, needed, complete⟩
        refine .inl ⟨trivial, ?_, Nat.zero_le _, rfl, complete⟩
        by_contra required
        exact needed (by simpa using required) unset
    | cons t ts =>
      have first : keyed ((slot :: rest).map Slot.name) (t :: ts) =
          (some slot.name.toList, t) :: keyed (rest.map Slot.name) ts := rfl
      have name : slot.field.name = slot.name := rfl
      have others (v : slot.Value) : ∀ other ∈ rest, other.get (slot.put v d) = none := by
        intro other otherMem
        have ne : other.name ≠ slot.name := fun same => new (same ▸ List.mem_map_of_mem otherMem)
        rw [spans.get_put_other slot mem other (left otherMem) ne, blank other otherMem]
      rw [first, spans.takes_slot_iff mem, name]
      constructor
      · rintro (⟨is, -⟩ | ⟨t', us, put, is, known, places⟩)
        · cases is
        · cases is
          obtain ⟨v, is, rfl⟩ := (spans.meaning_name mem).1 known
          obtain ⟨short, takes, complete⟩ := (ih left distinct (others v)).1 places
          refine ⟨Nat.succ_le_succ short, ⟨unset, v, is, takes⟩, List.forall_mem_cons.2 ⟨fun _ => ?_, complete⟩⟩
          have own := (spans.takes_iff.1 takes).2 slot mem
          rw [spans.get_put slot mem] at own
          rw [own.eq_some]
          exact Option.some_ne_none v
      · rintro ⟨short, ⟨-, v, is, takes⟩, complete⟩
        refine .inr ⟨t, ts, _, rfl, (spans.meaning_name mem).2 ⟨v, is, rfl⟩, ?_⟩
        exact (ih left distinct (others v)).2
          ⟨Nat.le_of_succ_le_succ short, takes, (List.forall_mem_cons.1 complete).2⟩

theorem missing?_eq_none_iff : missing? (slots.map field) e = none ↔
    ∀ slot ∈ slots, slot.required = true → slot.get e ≠ none := by
  have needed (slot : Slot δ) : ¬ (slot.field.required && !slot.field.isSet e) = true ↔
      (slot.required = true → slot.get e ≠ none) := by
    have isSet : slot.field.isSet e = (slot.get e).isSome := rfl
    have required : slot.field.required = slot.required := rfl
    rw [isSet, required]
    cases slot.get e <;> simp
  simp only [missing?, Option.map_eq_none_iff, List.find?_eq_none, List.forall_mem_map, needed]

/-- A record means what its members fill the slots with. -/
theorem accepts_record (spans : Spans slots) {shape : Shape δ} (fields : shape.fields = slots.map field)
    (blank : ∀ slot ∈ slots, slot.get shape.blank = none) :
    Accepts (record shape) fun t d => ∃ ms, Spells (slots.map Slot.name) t ms ∧ Filled slots ms d := by
  have taken (ms : List (Option (List Char) × Tree)) (d : δ) :
      Takes (slots.map field) (meaning slots) shape.blank ms d ↔ (∀ m ∈ ms, m.1 ≠ none) ∧
        ∀ slot ∈ slots, AtMostOnce slot.means (valuesAt slot.name ms) (slot.get d) := by
    rw [spans.takes_iff]
    refine and_congr_right fun _ => forall₂_congr fun slot mem => ?_
    rw [blank slot mem, adds_none_iff]
  have accepts := @Json.accepts_record δ shape (meaning slots) (fields ▸ spans.accept_fields)
  rw [fields] at accepts
  intro s d r
  rw [accepts s d r]
  refine exists_congr fun t => and_congr_right fun _ => ?_
  simp only [missing?_eq_none_iff]
  constructor
  · rintro (⟨ms, rfl, takes, complete⟩ | ⟨ts, rfl, places⟩)
    · obtain ⟨legible, values⟩ := (taken ms d).1 takes
      exact ⟨ms, .object, legible, values, complete⟩
    · obtain ⟨short, takes, complete⟩ := (spans.places_iff (List.Subset.refl _) spans.distinct blank).1 places
      obtain ⟨legible, values⟩ := (taken _ d).1 takes
      exact ⟨_, .list (by rwa [List.length_map]), legible, values, complete⟩
  · rintro ⟨ms, spells, filled⟩
    have takes := (taken ms d).2 ⟨filled.legible, filled.values⟩
    cases spells with
    | object => exact .inl ⟨ms, rfl, takes, filled.complete⟩
    | list short =>
      rw [List.length_map] at short
      exact .inr ⟨_, rfl, (spans.places_iff (List.Subset.refl _) spans.distinct blank).2
        ⟨short, takes, filled.complete⟩⟩

end Slot.Spans

end Herald.Json
