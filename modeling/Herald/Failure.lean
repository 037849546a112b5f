import Herald.Channel
import Herald.Url.Basic

/-! Why a delivery fails. Every failure names its cause; the wording of each cause stands in one place.
Only failures that another attempt may mend are retryable. -/
namespace Herald

open Herald.Net

inductive OwnerFault
  | badId (id : String)
  | badName (name : String)
  | stated (text : String)
  deriving DecidableEq, Repr

def OwnerFault.message : OwnerFault → String
  | .badId id => s!"invalid user id: {id}"
  | .badName name => s!"invalid user resource name: {name}"
  | .stated text => text

inductive Objection
  | emptyTarget
  | badTarget (fault : Url.Fault)
  | scheme (name : String)
  | noHost
  | lookup (reason : String)
  | noAddresses
  | address (address : Address)
  | opaqueTarget
  | stated (text : String)
  deriving DecidableEq, Repr

def Objection.message : Objection → String
  | .emptyTarget => "empty webhook url"
  | .badTarget fault => s!"invalid url: {fault.message}"
  | .scheme name => s!"unsupported scheme: {name}"
  | .noHost => "empty host"
  | .lookup reason => s!"dns lookup failed: {reason}"
  | .noAddresses => "dns lookup failed: no addresses"
  | .address a => s!"disallowed target ip: {String.ofList a.text}"
  | .opaqueTarget => "bark url cannot be a base"
  | .stated text => text

/-- Why no usable response arrived; the address is that of the request. -/
inductive TransportFault
  | building (url : String)
  | sending (url : String)
  | redirecting (url : String)
  | stated (text : String)
  deriving DecidableEq, Repr

def TransportFault.message : TransportFault → String
  | .building url => s!"builder error for url ({url})"
  | .sending url => s!"error sending request for url ({url})"
  | .redirecting url => s!"error following redirect for url ({url})"
  | .stated text => text

inductive LookupFault
  | timedOut (limitMs : Nat)
  | stated (text : String)
  deriving DecidableEq, Repr

def LookupFault.message : LookupFault → String
  | .timedOut limit => s!"webhook lookup timed out after {limit}ms"
  | .stated text => text

inductive PayloadFault
  | creator (fault : OwnerFault)
  | stated (text : String)
  deriving DecidableEq, Repr

/-- What a receiver reports although it answered with success. -/
inductive Report
  | code (number : Int) (text : String)
  | stated (text : String)
  deriving DecidableEq, Repr

def Report.message : Report → String
  | .code number text => s!"wecom errcode: {number}, errmsg: {text}"
  | .stated text => text

inductive Failure
  | configuration (fault : LookupFault)
  | invalidOwner (fault : OwnerFault)
  | validation (objection : Objection)
  | http (fault : TransportFault)
  | status (channel : Channel) (code : Nat) (body : Option String)
  | provider (report : Report)
  | circuitOpen (host : String)
  | cancelled
  | deadlineExceeded
  | conversion (fault : PayloadFault)
  deriving DecidableEq, Repr

def ownerMessage (fault : OwnerFault) : String := s!"invalid owner reference: {fault.message}"

def PayloadFault.message : PayloadFault → String
  | .creator fault => s!"invalid memo creator: {ownerMessage fault}"
  | .stated text => text

namespace Failure

def bodyText : Option String → String
  | some body => if body = "" then "" else s!", body: {body}"
  | none => ""

def message : Failure → String
  | configuration fault => s!"failed to load webhooks: {fault.message}"
  | invalidOwner fault => ownerMessage fault
  | validation objection => objection.message
  | http fault => s!"http request failed: {fault.message}"
  | status channel code body => s!"{channel.statusName} status: {code}{bodyText body}"
  | provider report => report.message
  | circuitOpen host => s!"circuit open for {host}"
  | cancelled => "delivery cancelled"
  | deadlineExceeded => "delivery deadline exceeded"
  | conversion fault => s!"convert payload failed: {fault.message}"

/-- Another attempt may succeed: the network failed, or the receiver answered with a failure. -/
def isRetryable : Failure → Bool
  | http _ => true
  | status .. => true
  | provider _ => true
  | _ => false

def isCircuitOpen : Failure → Bool
  | circuitOpen _ => true
  | _ => false

end Failure

/-- What lies behind an error, one thing behind the other. -/
inductive Cause
  | disallowed (objection : Objection)
  | stated (text : String)
  | within (text : String) (source : Cause)

def Cause.objection? : Cause → Option Objection
  | disallowed objection => some objection
  | stated _ => none
  | within _ source => source.objection?

/-- The error of a client, and what lies behind it if that is known. -/
structure ClientError where
  fault : TransportFault
  source : Option Cause := none

/-- An error that goes back to an objection to a target counts as that objection. -/
def ClientError.failure (e : ClientError) : Failure :=
  match e.source.bind Cause.objection? with
  | some objection => .validation objection
  | none => .http e.fault

@[simp] theorem ClientError.failure_of_none (fault : TransportFault) :
    failure ⟨fault, none⟩ = .http fault := rfl

@[simp] theorem ClientError.failure_of_some (fault : TransportFault) (cause : Cause) :
    failure ⟨fault, some cause⟩ = (cause.objection?.map .validation).getD (.http fault) := by
  rw [failure, Option.bind_some]
  cases cause.objection? <;> rfl

end Herald
