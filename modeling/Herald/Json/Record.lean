import Herald.Json.Reader
import Herald.Json.Skip

/-! Records: objects with known fields, each at most once, and any others, which are passed over. A
record may also be written as a list of its fields in their order. -/
namespace Herald.Json

/-- A field of a record that is read into a draft of type `δ`. -/
structure Field (δ : Type) where
  name : String
  required : Bool
  isSet : δ → Bool
  read : Reader (δ → δ)

def Field.of {α δ : Type} (name : String) (required : Bool) (value : Reader α) (get : δ → Option α)
    (put : α → δ → δ) : Field δ :=
  ⟨name, required, fun d => (get d).isSome, fun s => (value s).map fun read => (put read.1, read.2)⟩

/-- The shape of a record: what it is called, its fields in order, and the draft without any field. -/
structure Shape (δ : Type) where
  title : String
  fields : List (Field δ)
  blank : δ

def fieldsWith {δ : Type} (fields : List (Field δ)) : Nat → Bool → δ → Reader δ
  | 0, _, d, s => .ok (d, s)
  | fuel + 1, isFirst, d, s => do
    let (key, r) ← nextKey isFirst s
    match key with
    | none => return (d, r)
    | some key =>
      match fields.find? fun f => f.name == String.ofList key with
      | none => fieldsWith fields fuel false d (← skipValue (← colon r))
      | some f =>
        if f.isSet d then throw (.mismatch (.duplicate f.name) r)
        else
          let (put, r) ← f.read (← colon r)
          fieldsWith fields fuel false (put d) r

def missing? {δ : Type} (fields : List (Field δ)) (d : δ) : Option String :=
  (fields.find? fun f => f.required && !f.isSet d).map Field.name

/-- The elements of a list as fields; only fields that are not required may be left out. -/
def positionsWith {δ : Type} (expected : String) : List (Field δ) → Nat → δ → Reader δ
  | [], _, d, s => .ok (d, s)
  | f :: fields, i, d, s => do
    let (more, r) ← nextElement (i == 0) s
    if more then
      let (put, r) ← f.read r
      positionsWith expected fields (i + 1) (put d) r
    else if f.required then throw (.mismatch (.length i expected) r)
    else positionsWith expected fields (i + 1) d r

def Shape.expected {δ : Type} (shape : Shape δ) : String :=
  s!"struct {shape.title} with {shape.fields.length} elements"

def record {δ : Type} (shape : Shape δ) : Reader δ := fun s =>
  match skipSpace s with
  | [] => .error (.here .endInValue [])
  | '[' :: r => closed closeList (positionsWith shape.expected shape.fields 0 shape.blank r)
  | '\x7b' :: r =>
    closed closeObject do
      let (d, r) ← fieldsWith shape.fields (r.length + 1) true shape.blank r
      match missing? shape.fields d with
      | some name => throw (.mismatch (.missing name) r)
      | none => return (d, r)
  | s => .error (unexpected s!"struct {shape.title}" s)

def Reader.map {α β : Type} (reader : Reader α) (f : α → β) : Reader β := fun s =>
  (reader s).map fun read => (f read.1, read.2)

end Herald.Json
