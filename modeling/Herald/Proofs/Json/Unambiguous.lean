import Herald.Proofs.Json.Passing

/-! No text is read in two ways: the tree of a text is its own. -/
namespace Herald.Json

open Herald.Text

variable {s r r' : List Char}

theorem Quoted.unique {pieces other : List Piece} (one : Quoted s pieces r) (two : Quoted s other r') :
    pieces = other ∧ r = r' := by
  induction one generalizing other with
  | close =>
    cases two with
    | close => exact ⟨rfl, rfl⟩
    | plain quote => exact absurd rfl quote
  | plain quote backslash _ _ ih =>
    cases two with
    | close => exact absurd rfl quote
    | plain _ _ _ two =>
      obtain ⟨rfl, rfl⟩ := ih two
      exact ⟨rfl, rfl⟩
    | letter => exact absurd rfl backslash
    | unit => exact absurd rfl backslash
  | letter known _ ih =>
    cases two with
    | plain _ backslash => exact absurd rfl backslash
    | letter same two =>
      obtain ⟨rfl, rfl⟩ := ih two
      cases known.symm.trans same
      exact ⟨rfl, rfl⟩
    | unit => cases known
  | unit value _ ih =>
    cases two with
    | plain _ backslash => exact absurd rfl backslash
    | letter known => cases known
    | unit same two =>
      obtain ⟨rfl, rfl⟩ := ih two
      cases value.symm.trans same
      exact ⟨rfl, rfl⟩

theorem Numeral.unique (one : Numeral s r) (two : Numeral s r') : r = r' := by
  have unsigned {s : List Char} (one : Unsigned s r) (two : Unsigned s r') : r = r' :=
    Except.ok.inj ((skipNumber_eq_ok_iff.2 one).symm.trans (skipNumber_eq_ok_iff.2 two))
  cases one with
  | positive first =>
    cases two with
    | positive second => exact unsigned first second
    | negative => cases digit_of_unsigned first
  | negative first => exact unsigned first (numeral_negative_iff.1 two)

theorem KeyAt.unique {key other : Option (List Char)} (one : KeyAt s key r) (two : KeyAt s other r') :
    key = other ∧ r = r' := by
  obtain ⟨inside, behind, pieces, opens, quoted, colon, rfl⟩ := one
  obtain ⟨inside', behind', pieces', opens', quoted', colon', rfl⟩ := two
  cases opens.symm.trans opens'
  obtain ⟨rfl, rfl⟩ := quoted.unique quoted'
  cases colon.symm.trans colon'
  exact ⟨rfl, rfl⟩

theorem not_items_of_closing (bracket : Char) (closes : skipSpace s = closing bracket :: r) : ¬ Items bracket s r' := by
  intro items
  obtain ⟨u, item, -⟩ := items_iff.1 items
  obtain ⟨c, t, starts, other⟩ := item.starts
  cases closes.symm.trans starts
  exact other rfl

inductive Part.Alike : Part → Part → Prop
  | value (t t' : Tree) : Alike (.value t) (.value t')
  | elements (ts ts' : List Tree) : Alike (.elements ts) (.elements ts')
  | members (ms ms' : List (Option (List Char) × Tree)) : Alike (.members ms) (.members ms')

/-- A text is read in one way only. -/
theorem Reads.unique {part other : Part} (one : Reads part s r) (two : Reads other s r') (alike : part.Alike other) :
    part = other ∧ r = r' := by
  induction one generalizing other r' with
  | @null r =>
    cases alike
    generalize written : "null".toList ++ r = u at two
    cases two with
    | null => cases written; exact ⟨rfl, rfl⟩
    | number numeral => exact absurd numeral (not_numeral (by decide) (by decide) written)
    | _ => cases written
  | @isFalse r =>
    cases alike
    generalize written : "false".toList ++ r = u at two
    cases two with
    | isFalse => cases written; exact ⟨rfl, rfl⟩
    | number numeral => exact absurd numeral (not_numeral (by decide) (by decide) written)
    | _ => cases written
  | @isTrue r =>
    cases alike
    generalize written : "true".toList ++ r = u at two
    cases two with
    | isTrue => cases written; exact ⟨rfl, rfl⟩
    | number numeral => exact absurd numeral (not_numeral (by decide) (by decide) written)
    | _ => cases written
  | @number w r numeral =>
    cases alike
    generalize written : w ++ r = u at two
    cases two with
    | @number w' _ second =>
      rw [written] at numeral
      obtain rfl := numeral.unique second
      rw [List.append_cancel_right written]
      exact ⟨rfl, rfl⟩
    | _ => exact absurd numeral (not_numeral (by decide) (by decide) written.symm)
  | @string s r pieces quoted =>
    cases alike
    generalize written : '\x22' :: s = u at two
    cases two with
    | string other =>
      cases written
      obtain ⟨rfl, rfl⟩ := quoted.unique other
      exact ⟨rfl, rfl⟩
    | number numeral => exact absurd numeral (not_numeral (by decide) (by decide) written)
    | _ => cases written
  | @emptyList s r closes =>
    cases alike
    generalize written : '[' :: s = u at two
    cases two with
    | emptyList again =>
      cases written
      cases closes.symm.trans again
      exact ⟨rfl, rfl⟩
    | list items =>
      cases written
      exact absurd ⟨_, items⟩ (not_items_of_closing '[' closes)
    | number numeral => exact absurd numeral (not_numeral (by decide) (by decide) written)
    | _ => cases written
  | @list ts s r items ih =>
    cases alike
    generalize written : '[' :: s = u at two
    cases two with
    | emptyList closes =>
      cases written
      exact absurd ⟨_, items⟩ (not_items_of_closing '[' closes)
    | list others =>
      cases written
      obtain ⟨same, rfl⟩ := ih others (.elements _ _)
      cases same
      exact ⟨rfl, rfl⟩
    | number numeral => exact absurd numeral (not_numeral (by decide) (by decide) written)
    | _ => cases written
  | @emptyObject s r closes =>
    cases alike
    generalize written : '\x7b' :: s = u at two
    cases two with
    | emptyObject again =>
      cases written
      cases closes.symm.trans again
      exact ⟨rfl, rfl⟩
    | object items =>
      cases written
      exact absurd ⟨_, items⟩ (not_items_of_closing '\x7b' closes)
    | number numeral => exact absurd numeral (not_numeral (by decide) (by decide) written)
    | _ => cases written
  | @object ms s r items ih =>
    cases alike
    generalize written : '\x7b' :: s = u at two
    cases two with
    | emptyObject closes =>
      cases written
      exact absurd ⟨_, items⟩ (not_items_of_closing '\x7b' closes)
    | object others =>
      cases written
      obtain ⟨same, rfl⟩ := ih others (.members _ _)
      cases same
      exact ⟨rfl, rfl⟩
    | number numeral => exact absurd numeral (not_numeral (by decide) (by decide) written)
    | _ => cases written
  | lastElement _ closes ih =>
    cases alike
    cases two with
    | lastElement first again =>
      obtain ⟨same, rfl⟩ := ih first (.value _ _)
      cases same
      cases closes.symm.trans again
      exact ⟨rfl, rfl⟩
    | element first comma =>
      obtain ⟨-, rfl⟩ := ih first (.value _ _)
      cases closes.symm.trans comma
  | element _ comma _ ih onward =>
    cases alike
    cases two with
    | lastElement first closes =>
      obtain ⟨-, rfl⟩ := ih first (.value _ _)
      cases closes.symm.trans comma
    | element first again others =>
      obtain ⟨same, rfl⟩ := ih first (.value _ _)
      cases same
      cases comma.symm.trans again
      obtain ⟨same, rfl⟩ := onward others (.elements _ _)
      cases same
      exact ⟨rfl, rfl⟩
  | lastMember key _ closes ih =>
    cases alike
    cases two with
    | lastMember known first again =>
      obtain ⟨rfl, rfl⟩ := key.unique known
      obtain ⟨same, rfl⟩ := ih first (.value _ _)
      cases same
      cases closes.symm.trans again
      exact ⟨rfl, rfl⟩
    | member known first comma =>
      obtain ⟨rfl, rfl⟩ := key.unique known
      obtain ⟨-, rfl⟩ := ih first (.value _ _)
      cases closes.symm.trans comma
  | member key _ comma _ ih onward =>
    cases alike
    cases two with
    | lastMember known first closes =>
      obtain ⟨rfl, rfl⟩ := key.unique known
      obtain ⟨-, rfl⟩ := ih first (.value _ _)
      cases closes.symm.trans comma
    | member known first again others =>
      obtain ⟨rfl, rfl⟩ := key.unique known
      obtain ⟨same, rfl⟩ := ih first (.value _ _)
      cases same
      cases comma.symm.trans again
      obtain ⟨same, rfl⟩ := onward others (.members _ _)
      cases same
      exact ⟨rfl, rfl⟩

theorem IsText.unique {t t' : Tree} (one : IsText t s) (two : IsText t' s) : t = t' := by
  obtain ⟨_, one, -⟩ := one
  obtain ⟨_, two, -⟩ := two
  obtain ⟨same, -⟩ := one.unique two (.value _ _)
  cases same
  rfl

end Herald.Json
