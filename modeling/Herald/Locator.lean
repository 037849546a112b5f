import Herald.Channel
import Herald.Url.Parser

/-! Which channel a locator names and which host its deliveries count for. A locator is a web address,
or a shorthand that starts with the name of a channel. -/
namespace Herald

open Herald.Text

structure Destination where
  channel : Channel
  target : String
  deriving DecidableEq, Repr

namespace Locator

def weComLead : List Char := "wecom://".toList

def barkLead : List Char := "bark://".toList

def weComDomain : List Char := "qyapi.weixin.qq.com".toList

def barkDomain : List Char := "api.day.app".toList

def barkMarker : List Char := "bark".toList

def trimSlashes (path : List Char) : List Char :=
  ((path.dropWhile (· == '/')).reverse.dropWhile (· == '/')).reverse

def isDeviceKey (segment : List Char) : Bool :=
  16 ≤ segment.length && segment.length ≤ 64 && segment.all Char.isAlphanum

def deviceKey? (path : List Char) : Option (List Char) :=
  let first := (trimSlashes path).takeWhile (· != '/')
  if isDeviceKey first then some first else none

def namesPush (path : List Char) : Bool :=
  contains "/push/".toList ('/' :: trimSlashes path ++ ['/'])

def channelOf (u : Url) : Channel :=
  let host := lower (u.hostText.getD [])
  if contains weComDomain host then .weCom
  else if contains barkDomain host || contains barkMarker host then .bark
  else if trimSlashes u.path = [] then .raw
  else if namesPush u.path || (deviceKey? u.path).isSome then .bark
  else .raw

/-- A shorthand without a scheme of its own is reached over https. -/
def withScheme (rest : List Char) : List Char :=
  if rest = [] || contains "://".toList rest then rest else "https://".toList ++ rest

def classifyText (locator : List Char) : Channel × List Char :=
  let text := trim locator
  match dropLead weComLead text with
  | some rest => (.weCom, withScheme rest)
  | none =>
    match dropLead barkLead text with
    | some rest => (.bark, withScheme rest)
    | none =>
      match Url.parse text with
      | .ok u => (channelOf u, text)
      | .error _ => (.raw, text)

def classify (locator : String) : Destination :=
  let found := classifyText locator.toList
  ⟨found.1, String.ofList found.2⟩

/-- The host of an address in lower case with its port, if that is not the usual one. -/
def authorityKey (u : Url) : Option (List Char) :=
  u.hostText.map fun host => lower host ++ Url.portText u.port

/-- The key under which slots and failures of a target are counted. -/
def hostKeyText (target : List Char) : List Char :=
  match Url.parse target with
  | .ok u => (authorityKey u).getD (trim target)
  | .error _ => trim target

def hostKey (target : String) : String := String.ofList (hostKeyText target.toList)

end Locator

def Destination.hostKey (d : Destination) : String := Locator.hostKey d.target

end Herald
