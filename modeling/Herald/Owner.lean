import Herald.Failure

/-! Owner references: the word users, a slash and a number of 32 bits with a sign. -/
namespace Herald.Owner

open Herald.Text

def root : List Char := "users".toList

def parseText (name : List Char) : Except OwnerFault Int :=
  match splitAt '/' name with
  | [first, id] =>
    if first = root then
      match signed? 32 id with
      | some owner => .ok owner
      | none => .error (.badId (String.ofList id))
    else .error (.badName (String.ofList name))
  | _ => .error (.badName (String.ofList name))

def parse (name : String) : Except OwnerFault Int := parseText name.toList

def text (owner : Int) : List Char := root ++ '/' :: intDigits owner

end Herald.Owner
