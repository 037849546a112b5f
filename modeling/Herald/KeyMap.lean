/-! Maps with finitely many keys set, kept as a list in the order in which the keys were first set. A
key that is not set has the value that the reader gives. -/
namespace Herald

structure KeyMap (κ α : Type) where
  entries : List (κ × α) := []

namespace KeyMap

variable {κ α : Type} [DecidableEq κ]

def get (m : KeyMap κ α) (key : κ) (unset : α) : α :=
  ((m.entries.find? fun e => e.1 == key).map Prod.snd).getD unset

def put (key : κ) (value : α) : List (κ × α) → List (κ × α)
  | [] => [(key, value)]
  | e :: r => if e.1 = key then (key, value) :: r else e :: put key value r

def set (m : KeyMap κ α) (key : κ) (value : α) : KeyMap κ α := ⟨put key value m.entries⟩

theorem find?_put_self (key : κ) (value : α) (entries : List (κ × α)) :
    (put key value entries).find? (fun e => e.1 == key) = some (key, value) := by
  induction entries with
  | nil => simp [put]
  | cons e r ih =>
    by_cases h : e.1 = key
    · simp [put, h]
    · simp [put, h, ih]

theorem find?_put_other {key other : κ} (ne : other ≠ key) (value : α) (entries : List (κ × α)) :
    (put key value entries).find? (fun e => e.1 == other) =
      entries.find? (fun e => e.1 == other) := by
  induction entries with
  | nil => simp [put, Ne.symm ne]
  | cons e r ih =>
    by_cases h : e.1 = key
    · simp [put, h, Ne.symm ne]
    · by_cases k : e.1 = other
      · simp [put, k, ne]
      · simp [put, h, k, ih]

@[simp] theorem get_set_self (m : KeyMap κ α) (key : κ) (value unset : α) :
    (m.set key value).get key unset = value := by
  simp [get, set, find?_put_self]

theorem get_set_other (m : KeyMap κ α) {key other : κ} (ne : other ≠ key) (value unset : α) :
    (m.set key value).get other unset = m.get other unset := by
  simp [get, set, find?_put_other ne]

theorem put_put (key : κ) (value later : α) (entries : List (κ × α)) :
    put key later (put key value entries) = put key later entries := by
  induction entries with
  | nil => simp [put]
  | cons e r ih =>
    by_cases h : e.1 = key
    · simp [put, h]
    · simp [put, h, ih]

@[simp] theorem set_set (m : KeyMap κ α) (key : κ) (value later : α) :
    (m.set key value).set key later = m.set key later := by
  simp [set, put_put]

@[simp] theorem get_empty (key : κ) (unset : α) : (⟨[]⟩ : KeyMap κ α).get key unset = unset := rfl

end KeyMap

end Herald
