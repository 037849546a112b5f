import Herald.Hook
import Herald.Json.Reader
import Herald.KeyMap
import Herald.Source
import Herald.Text.Numeral

/-! Where the hooks of an owner come from: a map that is kept in memory, or a file that is read anew for
every look-up. In a file the owner is the text of the number, and the last member of a key counts. -/
namespace Herald

open Herald.Text

structure Store where
  hooks : KeyMap Int (List Hook) := {}

namespace Store

def get (s : Store) (owner : Int) : List Hook := s.hooks.get owner []

def set (s : Store) (owner : Int) (hooks : List Hook) : Store := ⟨s.hooks.set owner hooks⟩

def add (s : Store) (owner : Int) (hook : Hook) : Store := s.set owner (s.get owner ++ [hook])

theorem get_set_self (s : Store) (owner : Int) (hooks : List Hook) :
    (s.set owner hooks).get owner = hooks := by
  simp [get, set]

theorem get_set_other (s : Store) {owner other : Int} (ne : other ≠ owner) (hooks : List Hook) :
    (s.set owner hooks).get other = s.get other := by
  simp [get, set, KeyMap.get_set_other _ ne]

theorem get_add_self (s : Store) (owner : Int) (hook : Hook) :
    (s.add owner hook).get owner = s.get owner ++ [hook] := by
  simp [add, get_set_self]

/-- The members of a file: hooks by the text of their owner. -/
def parseFile (content : List Char) : Except Json.Fault (List (String × List Hook)) :=
  Json.whole (Json.members (Json.list Hook.reader)) content

/-- The hooks of the last member under the key of an owner. -/
def ofOwner (members : List (String × List Hook)) (owner : Int) : List Hook :=
  let key := String.ofList (intDigits owner)
  ((members.reverse.find? fun m => m.1 == key).map Prod.snd).getD []

inductive FileFault
  | unreadable (path : String) (fault : SourceFault)
  | malformed (path : String) (fault : SourceFault)

def FileFault.context : FileFault → String
  | .unreadable path _ => s!"failed to read {path}"
  | .malformed path _ => s!"failed to parse {path}"

def FileFault.reason : FileFault → SourceFault
  | .unreadable _ fault => fault
  | .malformed _ fault => fault

def FileFault.message (f : FileFault) : String := s!"{f.context}: {f.reason.message}"

def fileHooks (path : String) (source : Source) (owner : Int) : Except FileFault (List Hook) :=
  match source.read parseFile with
  | .ok members => .ok (ofOwner members owner)
  | .error (.json fault content) => .error (.malformed path (.json fault content))
  | .error fault => .error (.unreadable path fault)

end Store

end Herald
