import Herald.Json.Record
import Herald.Json.Writer
import Herald.Source

/-! Settings of the delivery service. They come in layers, each of which overrides single fields of the
one below: the defaults, a file, and variables of the environment. -/
namespace Herald

open Herald.Text

structure Config where
  httpTimeoutSecs : Nat := 10
  fetchTimeoutMs : Nat := 2000
  deadlineSecs : Nat := 30
  slotsPerHost : Nat := 2
  failureThreshold : Nat := 3
  cooldownSecs : Nat := 60
  backoffMs : List Nat := [500, 1000, 2000]
  forceGet : Bool := false
  deriving DecidableEq, Repr

namespace Config

structure Draft where
  httpTimeoutSecs : Option Nat := none
  fetchTimeoutMs : Option Nat := none
  deadlineSecs : Option Nat := none
  slotsPerHost : Option Nat := none
  failureThreshold : Option Nat := none
  cooldownSecs : Option Nat := none
  backoffMs : Option (List Nat) := none
  forceGet : Option Bool := none

def Draft.config (d : Draft) : Config :=
  let base : Config := {}
  { httpTimeoutSecs := d.httpTimeoutSecs.getD base.httpTimeoutSecs
    fetchTimeoutMs := d.fetchTimeoutMs.getD base.fetchTimeoutMs
    deadlineSecs := d.deadlineSecs.getD base.deadlineSecs
    slotsPerHost := d.slotsPerHost.getD base.slotsPerHost
    failureThreshold := d.failureThreshold.getD base.failureThreshold
    cooldownSecs := d.cooldownSecs.getD base.cooldownSecs
    backoffMs := d.backoffMs.getD base.backoffMs
    forceGet := d.forceGet.getD base.forceGet }

def long : Json.Reader Nat := Json.natural 0x10000000000000000 "u64"

def size : Json.Reader Nat := Json.natural 0x10000000000000000 "usize"

def short : Json.Reader Nat := Json.natural 0x100000000 "u32"

def shape : Json.Shape Draft where
  title := "DispatchConfig"
  fields := [
    .of "http_timeout_secs" false long Draft.httpTimeoutSecs
      fun v d => { d with httpTimeoutSecs := some v },
    .of "fetch_timeout_ms" false long Draft.fetchTimeoutMs
      fun v d => { d with fetchTimeoutMs := some v },
    .of "delivery_deadline_secs" false long Draft.deadlineSecs
      fun v d => { d with deadlineSecs := some v },
    .of "max_concurrent_per_host" false size Draft.slotsPerHost
      fun v d => { d with slotsPerHost := some v },
    .of "circuit_failure_threshold" false short Draft.failureThreshold
      fun v d => { d with failureThreshold := some v },
    .of "circuit_cooldown_secs" false long Draft.cooldownSecs
      fun v d => { d with cooldownSecs := some v },
    .of "backoff_ms" false (Json.list long) Draft.backoffMs
      fun v d => { d with backoffMs := some v },
    .of "bark_force_get" false Json.boolean Draft.forceGet fun v d => { d with forceGet := some v }]
  blank := {}

def reader : Json.Reader Config := Json.Reader.map (Json.record shape) Draft.config

def parse (s : List Char) : Except Json.Fault Config := Json.whole reader s

def json (c : Config) : List Char :=
  Json.writeObject [("http_timeout_secs", Json.writeNat c.httpTimeoutSecs),
    ("fetch_timeout_ms", Json.writeNat c.fetchTimeoutMs),
    ("delivery_deadline_secs", Json.writeNat c.deadlineSecs),
    ("max_concurrent_per_host", Json.writeNat c.slotsPerHost),
    ("circuit_failure_threshold", Json.writeNat c.failureThreshold),
    ("circuit_cooldown_secs", Json.writeNat c.cooldownSecs),
    ("backoff_ms", Json.writeList (c.backoffMs.map Json.writeNat)),
    ("bark_force_get", Json.writeBool c.forceGet)]

abbrev Env := String → Option String

def forceGetVariable : String := "MEMOS_BARK_FORCE_GET"

def timeoutVariable : String := "MEMO_NOTIFIER_HTTP_TIMEOUT_SECS"

def slotsVariable : String := "MEMO_NOTIFIER_MAX_PER_HOST"

def wordOf (value : String) : Option Nat := unsigned? 0x10000000000000000 (trim value.toList)

def isTrue (value : String) : Bool := lower (trim value.toList) = "true".toList

/-- Overrides the three fields that have a variable. An unusable number changes nothing, and neither
does a count of zero slots; any value of the flag counts. -/
def withEnv (c : Config) (env : Env) : Config :=
  { c with
    forceGet := ((env forceGetVariable).map isTrue).getD c.forceGet
    httpTimeoutSecs := ((env timeoutVariable).bind wordOf).getD c.httpTimeoutSecs
    slotsPerHost := (((env slotsVariable).bind wordOf).filter (0 < ·)).getD c.slotsPerHost }

def fromSource (source : Source) : Except SourceFault Config := source.read parse

/-- A file that can be used gives the fields it has; any other file is ignored. -/
def auto (source : Source) (env : Env) : Config :=
  (match fromSource source with
    | .ok config => config
    | .error _ => {}).withEnv env

def warns (source : Source) : Bool :=
  match source, fromSource source with
  | .missing, _ => false
  | _, .ok _ => false
  | _, .error _ => true

end Config

end Herald
