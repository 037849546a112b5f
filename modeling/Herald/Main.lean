import Herald.Cli.Program

/-! The program: it reads files, its input and its variables, and prints what the command yields. No
network is attached: names are not found, and requests get no answer. -/
namespace Herald.Cli

def filesOf (env : Config.Env) (words : List String) : List String :=
  match Request.parse words with
  | .error _ => []
  | .ok r =>
    r.config.getD (defaultConfigFile env) ::
      match r.command with
      | .summarize (some name) _ => [name]
      | .dispatch store .. => [store]
      | _ => []

def readsInput (words : List String) : Bool :=
  match Request.parse words with
  | .ok ⟨_, .summarize none _⟩ => true
  | _ => false

def readFile (name : String) : IO Source := do
  try
    return .ofBytes (some (← IO.FS.readBinFile name).toList)
  catch _ => return .missing

def readInput : IO Source := do
  return .ofBytes (some (← (← IO.getStdin).readBinToEnd).toList)

def variableNames : List String :=
  ["HOME", Config.forceGetVariable, Config.timeoutVariable, Config.slotsVariable]

def noticeText (n : Notice) : String :=
  let field (name : String) (value : Notice.Value) : String :=
    match value with
    | .text s => s!" {name}={s}"
    | .flag b => s!" {name}={b}"
  (if n.isWarning then "WARN " else "INFO ") ++ n.message ++
    String.join (n.fields.map fun f => field f.1 f.2)

def report (effect : Effect) : IO UInt32 := do
  for n in effect.notices do IO.eprintln (noticeText n)
  for line in effect.lines do IO.println (line.render toString)
  match effect.exit with
  | .success => pure ()
  | .failure error => IO.eprintln s!"Error: {error}"
  | .refused misuse => IO.eprintln s!"error: {misuse.message}"
  | .crashed crash => IO.eprintln crash.message
  return effect.exit.code.toUInt32

end Herald.Cli

open Herald Herald.Cli in
def main (words : List String) : IO UInt32 := do
  let values ← variableNames.filterMapM fun name => return (← IO.getEnv name).map fun v => (name, v)
  let env : Config.Env := fun name => (values.find? fun v => v.1 == name).map Prod.snd
  let files ← (filesOf env words).mapM fun name => return (name, ← readFile name)
  let file (name : String) : Source :=
    ((files.find? fun f => f.1 == name).map Prod.snd).getD .missing
  let input ← if readsInput words then readInput else pure .missing
  report (run ⟨file, input, env, fun _ => .error "no name service", fun _ _ => none⟩ words)
