import Herald.Cli.Command
import Herald.Service
import Herald.Text.Quoted

/-! What the program does with a line: what it prints, what it complains about, and its exit code. -/
namespace Herald.Cli

open Herald.Text

/-- Everything outside the program: files, its input, variables, names of hosts and the network. -/
structure Surroundings where
  file : String → Source
  input : Source
  env : Config.Env
  lookUp : List Char → Guard.Answer
  peer : List Http.Request → Http.Request → Option Http.Response

/-- A printed line; the time of an attempt is written when it is printed. -/
inductive Line
  | text (s : String)
  | attempt (a : Attempt)

def outcomeText : Outcome → String
  | .success => "Success"
  | .transientFailure text => s!"TransientFailure({String.ofList (quoted text.toList)})"
  | .permanentFailure text => s!"PermanentFailure({String.ofList (quoted text.toList)})"
  | .circuitRejected => "CircuitRejected"

def Line.render (time : Nat → String) : Line → String
  | .text s => s
  | .attempt a => s!"attempt {a.index} ({time a.elapsed} ms): {outcomeText a.outcome}"

/-- How the program ends: well, with an error, with its usage, or with a crash. -/
inductive Exit
  | success
  | failure (error : String)
  | refused (misuse : Misuse)
  | crashed (crash : Crash)

def Exit.code : Exit → Nat
  | .success => 0
  | .failure _ => 1
  | .refused _ => 2
  | .crashed _ => 101

structure Effect where
  lines : List Line := []
  exit : Exit := .success
  notices : List Notice := []

def version : String := "memo-notify 0.1.0"

def usage : List Line := [
  .text "Usage: memo-notify [--config <CONFIG>] <COMMAND>",
  .text "Commands: classify, summarize, test, dispatch, help"]

def defaultConfigFile (env : Config.Env) : String :=
  (env "HOME").getD "" ++ "/.config/memo-notifier/config.json"

/-- The settings: a named file must be usable, the usual one may be missing or broken. -/
def loadConfig (s : Surroundings) (file : Option String) : Except SourceFault Config :=
  match file with
  | some name => (Config.fromSource (s.file name)).map fun c => c.withEnv s.env
  | none => .ok (Config.auto (s.file (defaultConfigFile s.env)) s.env)

def world (s : Surroundings) : Http.World where
  guard := Guard.review s.lookUp
  peer := s.peer
  lookUp _ request :=
    match request.url.host with
    | some (.domain name) => some (s.lookUp name)
    | _ => none

def service (s : Surroundings) (config : Config) : Service := { config := config, world := world s }

def classify (locator : String) : Effect :=
  let destination := Locator.classify locator
  { lines := [.text s!"type:     {destination.channel.name}", .text s!"target:   {destination.target}",
      .text s!"host key: {destination.hostKey}"] }

def Effect.fail (error : String) (lines : List Line := []) (notices : List Notice := []) : Effect :=
  ⟨lines, .failure error, notices⟩

def notAnOrder : String := "no order summary (missing #order tag or no items)"

def summarize (source : Source) (detailed : Bool) : Effect :=
  match source.read fun text => .ok (String.ofList text) with
  | .error fault => .fail fault.message
  | .ok content =>
    match Order.summarize? (if detailed then .detailed else .compact) content with
    | none => .fail notAnOrder
    | some (.error _) => { exit := .crashed .quantity }
    | some (.ok summary) => { lines := [.text summary] }

def notices (s : Service) (f : Floor) (more : List Notice := []) : List Notice :=
  s.ready :: more ++ (f.since 0).filterMap f.notice?

def test (s : Service) (locator content : String) : Effect :=
  let start : Floor := { registry := s.config.registry }
  let (f, ending) := s.test locator content start
  match ending with
  | some (.reported report) =>
    let lines := report.attempts.map Line.attempt
    match report.result with
    | .ok () => { lines := lines ++ [.text "✅ delivered"], notices := notices s f }
    | .error failure => .fail s!"delivery failed: {failure.message}" lines (notices s f)
  | some (.refused failure) => .fail failure.message [] (notices s f)
  | some (.crashed crash) => { exit := .crashed crash }
  | none => {}

def dispatch (s : Service) (lookup : Int → Lookup) (event : Event) (waitSecs : Nat) : Effect :=
  let start : Floor := { registry := s.config.registry }
  let d := s.dispatch lookup event start
  match d.result with
  | .error failure => .fail failure.message [] (notices s d.floor d.notices)
  | .ok scheduled =>
    let f := d.floor.passUntil (d.floor.now + waitSecs * 1000)
    { lines := [.text s!"scheduled {scheduled} webhook(s)"], notices := notices s f d.notices }

/-- The hooks of an owner in a file that is read anew for every look-up. -/
def fileLookup (s : Surroundings) (name : String) (owner : Int) : Lookup :=
  ⟨0, (Store.fileHooks name (s.file name) owner).mapError fun fault => .stated fault.message⟩

def perform (s : Surroundings) (r : Request) : Effect :=
  let withConfig (use : Config → Effect) : Effect :=
    match loadConfig s r.config with
    | .error fault => .fail fault.message
    | .ok config => use config
  match r.command with
  | .classify locator => classify locator
  | .summarize none detailed => summarize s.input detailed
  | .summarize (some name) detailed => summarize (s.file name) detailed
  | .test locator content => withConfig fun config => test (service s config) locator content
  | .dispatch store creator activity content snippet waitSecs =>
    withConfig fun config =>
      let memo : Memo := { creator, content, snippet }
      dispatch (service s config) (fileLookup s store) ⟨Activity.parse activity, memo⟩ waitSecs

def run (s : Surroundings) (words : List String) : Effect :=
  match Request.parse words with
  | .ok request => perform s request
  | .error .help => { lines := usage }
  | .error .version => { lines := [.text version] }
  | .error (.misuse misuse) => { exit := .refused misuse }

end Herald.Cli
