import Herald.Proofs.Json.Accepted
import Herald.Proofs.Json.Unambiguous
import Herald.Proofs.Json.Written

/-! Written objects in the grammar. A written text is a string of this text, and an object that is written member by
member is the object of these members. As no text is read in two ways, it is nothing else. -/
namespace Herald.Json

open Herald.Text

def textMember (m : String × List Char) : List Char := writeString m.1 ++ ':' :: writeText m.2

def textTrees (members : List (String × List Char)) : List (Option (List Char) × Tree) :=
  members.map fun m => (some m.1.toList, .string (some m.2))

theorem skipSpace_writeText (s rest : List Char) : skipSpace (writeText s ++ rest) = writeText s ++ rest :=
  skipSpace_of_head (by decide)

theorem reads_writeText (s rest : List Char) : Reads (.value (.string (some s))) (writeText s ++ rest) rest :=
  reads_string_iff.2 ⟨_, by simp [writeText], string_writeText s rest⟩

theorem keyAt_writeString (name : String) (rest : List Char) :
    KeyAt (writeString name ++ ':' :: rest) (some name.toList) rest := by
  have colon : Json.colon (':' :: rest) = .ok rest := colon_eq_ok_iff.2 (skipSpace_of_head (by decide))
  refine keyAt_some_iff.2 ⟨_, _, ?_, string_writeText name.toList (':' :: rest), colon⟩
  rw [writeString, skipSpace_writeText]
  simp [writeText]

theorem reads_textMember {m : String × List Char} {members : List (String × List Char)} {rest r : List Char}
    (others : MembersAt false (textTrees members) rest r) :
    Reads (.members (textTrees (m :: members))) (textMember m ++ rest) r := by
  refine reads_members_iff.2 ⟨_, _, _, writeText m.2 ++ rest, _, rfl, ?_, ?_, others⟩
  · rw [textMember, List.append_assoc]
    exact keyAt_writeString m.1 _
  · rw [skipSpace_writeText]
    exact reads_writeText m.2 rest

theorem membersAt_later (members : List (String × List Char)) (rest : List Char) :
    MembersAt false (textTrees members) (later (members.map textMember) ++ '\x7d' :: rest) rest := by
  induction members with
  | nil => exact .inl ⟨rfl, skipSpace_brace rest⟩
  | cons m members ih =>
    have split : later ((m :: members).map textMember) ++ '\x7d' :: rest =
        ',' :: (textMember m ++ (later (members.map textMember) ++ '\x7d' :: rest)) := by
      simp [later]
    rw [split]
    exact .inr ⟨_, skipSpace_of_head (by decide), reads_textMember ih⟩

theorem membersAt_commas (members : List (String × List Char)) (rest : List Char) :
    MembersAt true (textTrees members) (commas (members.map textMember) ++ '\x7d' :: rest) rest := by
  cases members with
  | nil => exact .inl ⟨rfl, skipSpace_brace rest⟩
  | cons m members =>
    rw [List.map_cons, commas_cons, List.append_assoc]
    exact .inr ⟨_, rfl, reads_textMember (membersAt_later members rest)⟩

theorem isText_writeObject_iff (members : List (String × List Char)) (t : Tree) :
    IsText t (writeObject (members.map fun m => (m.1, writeText m.2))) ↔ t = .object (textTrees members) := by
  have written : writeObject (members.map fun m => (m.1, writeText m.2)) =
      '\x7b' :: (commas (members.map textMember) ++ ['\x7d']) := by
    simp only [writeObject, List.map_map, List.cons_append]
    rfl
  have reads : IsText (.object (textTrees members)) (writeObject (members.map fun m => (m.1, writeText m.2))) := by
    rw [written]
    exact ⟨[], reads_object_iff.2 ⟨_, skipSpace_of_head (by decide), membersAt_commas members []⟩, rfl⟩
  exact ⟨fun other => other.unique reads, fun same => same ▸ reads⟩

end Herald.Json
