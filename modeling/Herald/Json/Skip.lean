import Herald.Json.Scan

/-! Passing over a value that nobody asked for. It must be JSON, but strings are not decoded and numbers
may have any size; values may be nested to any depth, the open brackets being held in a list. -/
namespace Herald.Json

open Herald.Text

def skipString : Nat → List Char → Except Fault (List Char)
  | 0, s => .error (.here .endInString s)
  | fuel + 1, s =>
    match s with
    | [] => .error (.here .endInString [])
    | '\x22' :: r => .ok r
    | '\\' :: [] => .error (.here .endInString [])
    | '\\' :: 'u' :: r => do
      let (_, r) ← hexQuad r
      skipString fuel r
    | '\\' :: c :: r =>
      if "\x22\\/bfnrt".toList.contains c then skipString fuel r
      else .error (.next .badEscape (c :: r))
    | c :: r => if c.toNat < 0x20 then .error (.here .controlCharacter s) else skipString fuel r

def skipExponent (s : List Char) : Except Fault (List Char) :=
  let s := match s with
    | '+' :: r => r
    | '-' :: r => r
    | _ => s
  match s with
  | c :: r => if isDigit c then .ok (r.dropWhile isDigit) else .error (.next .badNumber s)
  | [] => .error (.here .badNumber [])

def skipNumberTail (s : List Char) : Except Fault (List Char) :=
  match s with
  | 'e' :: r => skipExponent r
  | 'E' :: r => skipExponent r
  | '.' :: r =>
    let rest := r.dropWhile isDigit
    if r.takeWhile isDigit = [] then .error (.next .badNumber rest)
    else match rest with
      | 'e' :: r => skipExponent r
      | 'E' :: r => skipExponent r
      | _ => .ok rest
  | _ => .ok s

def skipNumber (s : List Char) : Except Fault (List Char) :=
  match s with
  | '0' :: r =>
    if (r.head?.map isDigit).getD false then .error (.next .badNumber r) else skipNumberTail r
  | c :: r => if isDigit c then skipNumberTail (r.dropWhile isDigit) else .error (.next .badNumber s)
  | [] => .error (.here .badNumber [])

def skipLeaf (s : List Char) : Except Fault (Option Char × List Char) :=
  match s with
  | [] => .error (.here .endInValue [])
  | 'n' :: r => (word "ull".toList r).map fun r => (none, r)
  | 't' :: r => (word "rue".toList r).map fun r => (none, r)
  | 'f' :: r => (word "alse".toList r).map fun r => (none, r)
  | '-' :: r => (skipNumber r).map fun r => (none, r)
  | '\x22' :: r => (skipString (r.length + 1) r).map fun r => (none, r)
  | '[' :: r => .ok (some '[', r)
  | '\x7b' :: r => .ok (some '\x7b', r)
  | c :: _ =>
    if isDigit c then (skipNumber s).map fun r => (none, r) else .error (.next .noValue s)

/-- Closes brackets until a value follows. The flag says that a comma may stand here. The result is the
brackets that are still open and the text left. -/
def closeOpen : List Char → Bool → List Char → Except Fault (List Char × List Char)
  | [], _, s => .ok ([], s)
  | bracket :: outer, afterValue, s =>
    match skipSpace s with
    | [] => .error (.here (if bracket == '[' then .endInList else .endInObject) [])
    | c :: r =>
      if c == ',' && afterValue then .ok (bracket :: outer, r)
      else if c == (if bracket == '[' then ']' else '\x7d') then closeOpen outer true r
      else if afterValue then
        .error (.next (if bracket == '[' then .noListEnd else .noObjectEnd) (c :: r))
      else .ok (bracket :: outer, c :: r)

def skipKey (s : List Char) : Except Fault (List Char) :=
  match skipSpace s with
  | '\x22' :: r => do
    let r ← skipString (r.length + 1) r
    match skipSpace r with
    | ':' :: r => return r
    | [] => throw (.here .endInObject [])
    | r => throw (.next .noColon r)
  | [] => .error (.here .endInObject [])
  | r => .error (.next .keyNotText r)

/-- Passes over values until no bracket is open; the fuel is at least the number of characters. -/
def skipWith : Nat → List Char → List Char → Except Fault (List Char)
  | 0, _, s => .error (.here .endInValue s)
  | fuel + 1, brackets, s => do
    let (opened, r) ← skipLeaf (skipSpace s)
    let (brackets, r) ← match opened with
      | some bracket => closeOpen (bracket :: brackets) false r
      | none => closeOpen brackets true r
    match brackets with
    | [] => return r
    | '\x7b' :: _ => skipWith fuel brackets (← skipKey r)
    | _ => skipWith fuel brackets r

def skipValue (s : List Char) : Except Fault (List Char) := skipWith (s.length + 1) [] s

end Herald.Json
