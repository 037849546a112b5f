import Herald.Cli.Arguments

/-! The commands of the program and how a line names one. The settings file can be named before or after
the command; the later place counts. -/
namespace Herald.Cli

open Herald.Text

inductive Command
  | classify (locator : String)
  | summarize (file : Option String) (detailed : Bool)
  | test (locator content : String)
  | dispatch (store creator activity content snippet : String) (waitSecs : Nat)
  deriving DecidableEq, Repr

structure Request where
  config : Option String
  command : Command
  deriving DecidableEq, Repr

def isFileName (word : String) : Bool := word != ""

def seconds? (word : String) : Option Nat := unsigned? 0x10000000000000000 word.toList

def configOption : OptionRule := { name := "config", accepts := isFileName }

def helpOption : OptionRule := { name := "help", letter := some 'h', kind := .help }

def versionOption : OptionRule := { name := "version", letter := some 'V', kind := .version }

def mainGrammar : Grammar where
  options := [configOption, helpOption, versionOption]
  hasSubcommands := true

def classifyGrammar : Grammar where
  options := [configOption, helpOption]
  places := [{ name := "LOCATOR" }]

def summarizeGrammar : Grammar where
  options := [configOption, helpOption, { name := "detailed", kind := .flag }]
  places := [{ name := "FILE", accepts := isFileName }]

def testGrammar : Grammar where
  options := [configOption, helpOption, { name := "content", letter := some 'c' }]
  places := [{ name := "LOCATOR" }]

def dispatchGrammar : Grammar where
  options := [configOption, helpOption, { name := "store", accepts := isFileName },
    { name := "creator" }, { name := "activity" }, { name := "content" }, { name := "snippet" },
    { name := "wait", accepts := fun w => (seconds? w).isSome }]

def usualWait : Nat := 35

def readCommand (name : String) (words : List String) : Except Stop (Reading × Command) :=
  match name with
  | "classify" => do
    let r ← classifyGrammar.read words
    return (r, .classify (← require "LOCATOR" r.words[0]?))
  | "summarize" => do
    let r ← summarizeGrammar.read words
    return (r, .summarize r.words[0]? (r.has "detailed"))
  | "test" => do
    let r ← testGrammar.read words
    return (r, .test (← require "LOCATOR" r.words[0]?) ((r.option? "content").getD ""))
  | "dispatch" => do
    let r ← dispatchGrammar.read words
    let store ← require "--store" (r.option? "store")
    let content ← require "--content" (r.option? "content")
    return (r, .dispatch store ((r.option? "creator").getD "users/1")
      ((r.option? "activity").getD "memos.memo.created") content
      ((r.option? "snippet").getD "") (((r.option? "wait").bind seconds?).getD usualWait))
  | "help" =>
    match words with
    | [] => .error .help
    | topic :: _ =>
      if ["classify", "summarize", "test", "dispatch", "help"].contains topic then .error .help
      else .error (.misuse (.unknown topic))
  | _ => .error (.misuse (.unknown name))

def Request.parse (words : List String) : Except Stop Request := do
  let before ← mainGrammar.read words
  match before.rest with
  | [] => .error (.misuse (.missing "COMMAND"))
  | name :: rest =>
    let (r, command) ← readCommand name rest
    return ⟨r.option? "config" <|> before.option? "config", command⟩

end Herald.Cli
