import Herald.Text.Numeral

/-! The words of a command line. A word that starts with a dash is an option or a row of option letters,
another one takes the next place; a line with a word that fits nowhere is refused as a whole. -/
namespace Herald.Cli

open Herald.Text

inductive OptionKind
  | value
  | flag
  | help
  | version
  deriving DecidableEq, Repr

structure OptionRule where
  name : String
  letter : Option Char := none
  kind : OptionKind := .value
  accepts : String → Bool := fun _ => true

structure Place where
  name : String
  accepts : String → Bool := fun _ => true

/-- What a command understands. A command with subcommands ends at the name of one. -/
structure Grammar where
  options : List OptionRule
  places : List Place := []
  hasSubcommands : Bool := false

inductive Misuse
  | unknown (word : String)
  | noValue (option : String)
  | unwantedValue (option : String)
  | badValue (name value : String)
  | repeated (option : String)
  | missing (name : String)
  deriving DecidableEq, Repr

def Misuse.message : Misuse → String
  | .unknown word => s!"unexpected argument {word}"
  | .noValue option => s!"a value is required for --{option}"
  | .unwantedValue option => s!"no value is taken by --{option}"
  | .badValue name value => s!"invalid value {value} for {name}"
  | .repeated option => s!"--{option} cannot be used multiple times"
  | .missing name => s!"{name} was not provided"

inductive Stop
  | help
  | version
  | misuse (m : Misuse)
  deriving DecidableEq, Repr

/-- What was read: options with their values, words by place, and what is left from a subcommand on. -/
structure Reading where
  options : List (String × String) := []
  words : List String := []
  rest : List String := []
  deriving DecidableEq, Repr

namespace Reading

def option? (r : Reading) (name : String) : Option String :=
  (r.options.find? fun o => o.1 == name).map Prod.snd

def has (r : Reading) (name : String) : Bool := (r.option? name).isSome

def give (r : Reading) (rule : OptionRule) (value : String) : Except Stop Reading :=
  match rule.kind with
  | .help => .error .help
  | .version => .error .version
  | _ =>
    if r.has rule.name then .error (.misuse (.repeated rule.name))
    else if rule.accepts value then .ok { r with options := r.options ++ [(rule.name, value)] }
    else .error (.misuse (.badValue rule.name value))

def place (r : Reading) (g : Grammar) (word : String) : Except Stop Reading :=
  match g.places[r.words.length]? with
  | none => .error (.misuse (.unknown word))
  | some p =>
    if p.accepts word then .ok { r with words := r.words ++ [word] }
    else .error (.misuse (.badValue p.name word))

end Reading

inductive Word
  | separator
  | long (name : String) (value : Option String)
  | letters (letters : List Char)
  | plain

/-- The name of a long option ends at the first equals sign. A lone dash is a plain word. -/
def wordKind (word : String) : Word :=
  match word.toList with
  | ['-', '-'] => .separator
  | '-' :: '-' :: name =>
    let value := name.dropWhile (· != '=')
    .long (String.ofList (name.takeWhile (· != '=')))
      (if value = [] then none else some (String.ofList (value.drop 1)))
  | ['-'] => .plain
  | '-' :: letters => .letters letters
  | _ => .plain

def isPlain (word : String) : Bool :=
  match wordKind word with
  | .plain => true
  | _ => false

/-- A row of letters. The first one that takes a value takes the other letters for it, or else the next
word. -/
def readLetters (g : Grammar) : List Char → Reading → Except Stop (Reading × Option OptionRule)
  | [], r => .ok (r, none)
  | c :: rest, r =>
    match g.options.find? fun o => o.letter == some c with
    | none => .error (.misuse (.unknown (String.ofList ['-', c])))
    | some rule =>
      if rule.kind = .value then
        match rest with
        | [] => .ok (r, some rule)
        | '=' :: value => (r.give rule (String.ofList value)).map fun r => (r, none)
        | value => (r.give rule (String.ofList value)).map fun r => (r, none)
      else do readLetters g rest (← r.give rule "")

def readLong (g : Grammar) (name : String) (value : Option String) (r : Reading) :
    Except Stop (Reading × Option OptionRule) :=
  match g.options.find? fun o => o.name == name with
  | none => .error (.misuse (.unknown ("--" ++ name)))
  | some rule =>
    match rule.kind, value with
    | .value, none => .ok (r, some rule)
    | .value, some v => (r.give rule v).map fun r => (r, none)
    | _, none => (r.give rule "").map fun r => (r, none)
    | _, some _ => .error (.misuse (.unwantedValue name))

/-- Reads the words of a command. A value is the next word, which must not look like an option. -/
def readWords (g : Grammar) : List String → Reading → Except Stop Reading
  | [], r => .ok r
  | word :: rest, r =>
    let begun : Except Stop (Reading × Option OptionRule) :=
      match wordKind word with
      | .long name value => readLong g name value r
      | .letters letters => readLetters g letters r
      | _ => .ok (r, none)
    match wordKind word with
    | .separator => rest.foldlM (fun r word => r.place g word) r
    | .plain =>
      if g.hasSubcommands then .ok { r with rest := word :: rest }
      else do readWords g rest (← r.place g word)
    | _ =>
      match begun, rest with
      | .error stop, _ => .error stop
      | .ok (r, none), rest => readWords g rest r
      | .ok (_, some rule), [] => .error (.misuse (.noValue rule.name))
      | .ok (r, some rule), value :: rest =>
        if isPlain value then do readWords g rest (← r.give rule value)
        else .error (.misuse (.noValue rule.name))

def Grammar.read (g : Grammar) (words : List String) : Except Stop Reading := readWords g words {}

def require (name : String) : Option String → Except Stop String
  | some value => .ok value
  | none => .error (.misuse (.missing name))

end Herald.Cli
