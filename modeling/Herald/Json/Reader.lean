import Herald.Json.Scan

/-! Readers for values of a known shape. JSON of another shape is a mismatch, which names what was found
and what was expected. -/
namespace Herald.Json

open Herald.Text

/-- The fault of a value of another shape. A value without parts is read first and may itself be
faulty; a list or an object is only named. -/
def unexpected (expected : String) (s : List Char) : Fault :=
  let of (found : Found) (rest : List Char) : Fault := .here (.shape (.type found expected)) rest
  let after (found : Found) : Except Fault (List Char) → Fault
    | .ok rest => of found rest
    | .error f => f
  let afterNumber : Except Fault (Number × List Char) → Fault
    | .ok (n, rest) => of n.found rest
    | .error f => f
  match s with
  | 'n' :: r => after .null (word "ull".toList r)
  | 't' :: r => after (.boolean true) (word "rue".toList r)
  | 'f' :: r => after (.boolean false) (word "alse".toList r)
  | '-' :: r => afterNumber (number false r)
  | '\x22' :: r =>
    match string r with
    | .ok (text, rest) => of (.text text) rest
    | .error f => f
  | '[' :: _ => of .sequence s
  | '\x7b' :: _ => of .map s
  | c :: _ => if isDigit c then afterNumber (number true s) else .next .noValue s
  | [] => .here .noValue []

def textWith {α : Type} (expected : String) (accept : List Char → Except Mismatch α) : Reader α :=
  fun s =>
    match skipSpace s with
    | [] => .error (.here .endInValue [])
    | '\x22' :: r => do
      let (text, r) ← string r
      match accept text with
      | .ok value => return (value, r)
      | .error m => throw (.here (.shape m) r)
    | s => .error (unexpected expected s)

def text : Reader String := textWith "a string" fun s => .ok (String.ofList s)

def boolean : Reader Bool := fun s =>
  match skipSpace s with
  | [] => .error (.here .endInValue [])
  | 't' :: r => (word "rue".toList r).map fun r => (true, r)
  | 'f' :: r => (word "alse".toList r).map fun r => (false, r)
  | s => .error (unexpected "a boolean" s)

def numberWith {α : Type} (expected : String) (accept : Number → Except Mismatch α) : Reader α :=
  fun s =>
    let judge : Except Fault (Number × List Char) → Except Fault (α × List Char)
      | .error f => .error f
      | .ok (n, r) =>
        match accept n with
        | .ok value => .ok (value, r)
        | .error m => .error (.here (.shape m) r)
    match skipSpace s with
    | [] => .error (.here .endInValue [])
    | '-' :: r => judge (number false r)
    | c :: r => if isDigit c then judge (number true (c :: r)) else .error (unexpected expected (c :: r))

def natural (bound : Nat) (expected : String) : Reader Nat :=
  numberWith expected fun n =>
    match n with
    | .natural value => if value < bound then .ok value else .error (.value n.found expected)
    | .negative _ => .error (.value n.found expected)
    | .fractional _ => .error (.type n.found expected)

def signed (expected : String) : Reader Int :=
  numberWith expected fun n =>
    match n with
    | .natural value => if value < 0x8000000000000000 then .ok value else .error (.value n.found expected)
    | .negative size => .ok (-(size : Int))
    | .fractional _ => .error (.type n.found expected)

def optional {α : Type} (inner : Reader α) : Reader (Option α) := fun s =>
  match skipSpace s with
  | 'n' :: r => (word "ull".toList r).map fun r => (none, r)
  | s => (inner s).map fun read => (some read.1, read.2)

def nextElement (isFirst : Bool) (s : List Char) : Except Fault (Bool × List Char) :=
  match skipSpace s with
  | [] => .error (.here .endInList [])
  | ']' :: r => .ok (false, ']' :: r)
  | c :: r =>
    if isFirst then .ok (true, c :: r)
    else if c == ',' then
      match skipSpace r with
      | [] => .error (.here .endInValue [])
      | ']' :: t => .error (.next .trailingComma (']' :: t))
      | r => .ok (true, r)
    else .error (.next .noListEnd (c :: r))

def nextKey (isFirst : Bool) (s : List Char) : Except Fault (Option (List Char) × List Char) :=
  let key (s : List Char) : Except Fault (Option (List Char) × List Char) :=
    match s with
    | '\x22' :: r => (string r).map fun read => (some read.1, read.2)
    | '\x7d' :: _ => .error (.next .trailingComma s)
    | [] => .error (.here .endInValue [])
    | _ => .error (.next .keyNotText s)
  match skipSpace s with
  | [] => .error (.here .endInObject [])
  | '\x7d' :: r => .ok (none, '\x7d' :: r)
  | c :: r =>
    if isFirst then key (c :: r)
    else if c == ',' then key (skipSpace r)
    else .error (.next .noObjectEnd (c :: r))

def colon (s : List Char) : Except Fault (List Char) :=
  match skipSpace s with
  | ':' :: r => .ok r
  | [] => .error (.here .endInObject [])
  | r => .error (.next .noColon r)

def closeList (s : List Char) : Option Fault × List Char :=
  match skipSpace s with
  | ']' :: r => (none, r)
  | ',' :: r =>
    match skipSpace r with
    | ']' :: t => (some (.next .trailingComma (']' :: t)), ']' :: t)
    | t => (some (.next .trailingText t), t)
  | [] => (some (.here .endInList []), [])
  | r => (some (.next .trailingText r), r)

def closeObject (s : List Char) : Option Fault × List Char :=
  match skipSpace s with
  | '\x7d' :: r => (none, r)
  | ',' :: r => (some (.next .trailingComma (',' :: r)), ',' :: r)
  | [] => (some (.here .endInObject []), [])
  | r => (some (.next .trailingText r), r)

/-- What was read between brackets, once the closing bracket is read. A mismatch inside is placed after
the closing bracket, whether it could be read or not. -/
def closed {α : Type} (close : List Char → Option Fault × List Char) :
    Except Fault (α × List Char) → Except Fault (α × List Char)
  | .ok (value, r) =>
    match close r with
    | (none, r) => .ok (value, r)
    | (some f, _) => .error f
  | .error f => .error (f.placeAt (close f.rest).2)

/-- The elements of a list from where the text stands; the fuel is at least the number of characters. -/
def elementsWith {α : Type} (element : Reader α) : Nat → Bool → Reader (List α)
  | 0, _, s => .ok ([], s)
  | fuel + 1, isFirst, s => do
    let (more, r) ← nextElement isFirst s
    if more then
      let (value, r) ← element r
      let (values, r) ← elementsWith element fuel false r
      return (value :: values, r)
    else return ([], r)

def list {α : Type} (element : Reader α) : Reader (List α) := fun s =>
  match skipSpace s with
  | [] => .error (.here .endInValue [])
  | '[' :: r => closed closeList (elementsWith element (r.length + 1) true r)
  | s => .error (unexpected "a sequence" s)

def membersWith {α : Type} (value : Reader α) : Nat → Bool → Reader (List (String × α))
  | 0, _, s => .ok ([], s)
  | fuel + 1, isFirst, s => do
    let (key, r) ← nextKey isFirst s
    match key with
    | none => return ([], r)
    | some key =>
      let (v, r) ← value (← colon r)
      let (members, r) ← membersWith value fuel false r
      return ((String.ofList key, v) :: members, r)

def members {α : Type} (value : Reader α) : Reader (List (String × α)) := fun s =>
  match skipSpace s with
  | [] => .error (.here .endInValue [])
  | '\x7b' :: r => closed closeObject (membersWith value (r.length + 1) true r)
  | s => .error (unexpected "a map" s)

/-- One of some names, alone or as the only key of an object with the value null. -/
def oneOf {α : Type} (ofName : String → Option α) : Reader α := fun s =>
  let name : Reader α := textWith "variant identifier" fun t =>
    match ofName (String.ofList t) with
    | some value => .ok value
    | none => .error (.variant (String.ofList t))
  match skipSpace s with
  | [] => .error (.here .endInValue [])
  | '\x22' :: r => name ('\x22' :: r)
  | '\x7b' :: r => do
    let (value, r) ← name r
    match skipSpace (← colon r) with
    | [] => throw (.here .endInValue [])
    | 'n' :: r =>
      match skipSpace (← word "ull".toList r) with
      | '\x7d' :: r => return (value, r)
      | [] => throw (.here .endInObject [])
      | r => throw (.here .noValue r)
    | r => throw (unexpected "unit" r)
  | s => .error (.next .noValue s)

def whole {α : Type} (reader : Reader α) (s : List Char) : Except Fault α := do
  let (value, r) ← reader s
  match skipSpace r with
  | [] => return value
  | r => throw (.next .trailingText r)

end Herald.Json
