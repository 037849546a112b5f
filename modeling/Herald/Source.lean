import Herald.Json.Fault

/-! Files as the program sees them: absent, without a text, or with one. -/
namespace Herald

open Herald.Text

/-- What a file holds: nothing because it is missing or no text, or its characters. -/
inductive Source
  | missing
  | notText
  | text (content : List Char)

inductive SourceFault
  | missing
  | notText
  | json (fault : Json.Fault) (content : List Char)

def SourceFault.message : SourceFault → String
  | .missing => "No such file or directory (os error 2)"
  | .notText => "stream did not contain valid UTF-8"
  | .json fault content => fault.message content

def Source.ofBytes : Option (List UInt8) → Source
  | none => .missing
  | some bytes =>
    match Utf8.decode? bytes with
    | some content => .text content
    | none => .notText

def Source.read {α : Type} (source : Source) (parse : List Char → Except Json.Fault α) :
    Except SourceFault α :=
  match source with
  | .missing => .error .missing
  | .notText => .error .notText
  | .text content => (parse content).mapError fun fault => .json fault content

end Herald
