import Herald.Json.Record

/-! What is known of the values that a reader gives, from what is known of its parts. A record is read by
putting one field after the other into a draft, so it has every property that each field keeps. -/
namespace Herald.Json

def Gives {α : Type} (P : α → Prop) (reader : Reader α) : Prop :=
  ∀ ⦃s v r⦄, reader s = .ok (v, r) → P v

variable {α β δ : Type} {P : α → Prop} {reader : Reader α}

theorem bind_eq_ok_iff {ε : Type} {x : Except ε α} {f : α → Except ε β} {b : β} :
    (x >>= f) = .ok b ↔ ∃ a, x = .ok a ∧ f a = .ok b := by
  cases x <;> simp [bind, Except.bind]

theorem map_eq_ok_iff {ε : Type} {x : Except ε α} {f : α → β} {b : β} :
    x.map f = .ok b ↔ ∃ a, x = .ok a ∧ f a = b := by
  cases x <;> simp [Except.map]

theorem gives_map {Q : β → Prop} {f : α → β} (gives : Gives P reader) (moved : ∀ v, P v → Q (f v)) :
    Gives Q (Reader.map reader f) := by
  intro s v r made
  obtain ⟨found, read, same⟩ := map_eq_ok_iff.1 made
  cases same
  exact moved _ (gives read)

theorem gives_textWith {expected : String} {accept : List Char → Except Mismatch α}
    (accepts : ∀ {s v}, accept s = .ok v → P v) : Gives P (textWith expected accept) := by
  intro s v r made
  unfold textWith at made
  split at made
  · cases made
  · obtain ⟨⟨text, rest⟩, -, made⟩ := bind_eq_ok_iff.1 made
    simp only at made
    split at made
    · next accepted =>
      obtain ⟨rfl, -⟩ := Prod.mk.inj (Except.ok.inj made)
      exact accepts accepted
    · cases made
  · cases made

theorem gives_optional (gives : Gives P reader) :
    Gives (fun value => ∀ v, value = some v → P v) (optional reader) := by
  intro s value r made v is
  unfold optional at made
  split at made
  · obtain ⟨_, -, same⟩ := map_eq_ok_iff.1 made
    cases same
    cases is
  · obtain ⟨found, read, same⟩ := map_eq_ok_iff.1 made
    cases same
    cases is
    exact gives read

theorem gives_numberWith {expected : String} {accept : Number → Except Mismatch α}
    (accepts : ∀ {n v}, accept n = .ok v → P v) : Gives P (numberWith expected accept) := by
  intro s v r made
  simp only [numberWith] at made
  -- in all other cases there is no value
  repeat' split at made
  all_goals cases made
  all_goals exact accepts ‹accept _ = .ok v›

theorem gives_natural (bound : Nat) (expected : String) :
    Gives (· < bound) (natural bound expected) := by
  refine gives_numberWith fun {n v} accepted => ?_
  cases n with
  | natural value =>
    simp only at accepted
    split at accepted
    · next small => exact Except.ok.inj accepted ▸ small
    · cases accepted
  | _ => cases accepted

theorem exists_of_closed {close : List Char → Option Fault × List Char}
    {read : Except Fault (α × List Char)} {v : α} {r : List Char}
    (made : closed close read = .ok (v, r)) : ∃ rest, read = .ok (v, rest) := by
  cases read with
  | error fault => cases made
  | ok found =>
    simp only [closed] at made
    split at made
    · exact ⟨found.2, by rw [← (Prod.mk.inj (Except.ok.inj made)).1]⟩
    · cases made

theorem gives_elementsWith (gives : Gives P reader) (fuel : Nat) (isFirst : Bool) :
    Gives (fun values => ∀ v ∈ values, P v) (elementsWith reader fuel isFirst) := by
  intro s values r made
  induction fuel generalizing isFirst s values r with
  | zero =>
    obtain ⟨rfl, -⟩ := Prod.mk.inj (Except.ok.inj made)
    simp
  | succ fuel ih =>
    obtain ⟨⟨more, next⟩, -, made⟩ := bind_eq_ok_iff.1 made
    cases more with
    | false =>
      obtain ⟨rfl, -⟩ := Prod.mk.inj (Except.ok.inj made)
      simp
    | true =>
      obtain ⟨⟨first, rest⟩, read, made⟩ := bind_eq_ok_iff.1 made
      obtain ⟨⟨others, last⟩, readOthers, made⟩ := bind_eq_ok_iff.1 made
      obtain ⟨rfl, -⟩ := Prod.mk.inj (Except.ok.inj made)
      intro v mem
      rcases List.mem_cons.1 mem with rfl | mem
      · exact gives read
      · exact ih _ readOthers v mem

theorem gives_list (gives : Gives P reader) : Gives (fun values => ∀ v ∈ values, P v) (list reader) := by
  intro s values r made
  unfold list at made
  split at made
  · cases made
  · obtain ⟨rest, read⟩ := exists_of_closed made
    exact gives_elementsWith gives _ _ read
  · cases made

def Field.Keeps (I : δ → Prop) (f : Field δ) : Prop := Gives (fun put => ∀ d, I d → I (put d)) f.read

theorem Field.keeps_of {I : δ → Prop} {name : String} {required : Bool} {get : δ → Option α}
    {put : α → δ → δ} (gives : Gives P reader) (keeps : ∀ v d, P v → I d → I (put v d)) :
    (Field.of name required reader get put).Keeps I :=
  gives_map gives fun v known d holds => keeps v d known holds

variable {I : δ → Prop} {fields : List (Field δ)}

theorem gives_fieldsWith (keep : ∀ f ∈ fields, f.Keeps I) (fuel : Nat) (isFirst : Bool) {d : δ}
    (holds : I d) : Gives I (fieldsWith fields fuel isFirst d) := by
  intro s v r made
  induction fuel generalizing isFirst d s with
  | zero => exact (Prod.mk.inj (Except.ok.inj made)).1 ▸ holds
  | succ fuel ih =>
    obtain ⟨⟨key, next⟩, -, made⟩ := bind_eq_ok_iff.1 made
    cases key with
    | none => exact (Prod.mk.inj (Except.ok.inj made)).1 ▸ holds
    | some key =>
      simp only at made
      split at made
      · obtain ⟨_, -, made⟩ := bind_eq_ok_iff.1 made
        obtain ⟨_, -, made⟩ := bind_eq_ok_iff.1 made
        exact ih _ holds made
      · next f found =>
        split at made
        · cases made
        · obtain ⟨_, -, made⟩ := bind_eq_ok_iff.1 made
          obtain ⟨⟨put, rest⟩, read, made⟩ := bind_eq_ok_iff.1 made
          exact ih _ (keep f (List.mem_of_find?_eq_some found) read d holds) made

theorem gives_positionsWith {expected : String} (keep : ∀ f ∈ fields, f.Keeps I) (i : Nat) {d : δ}
    (holds : I d) : Gives I (positionsWith expected fields i d) := by
  intro s v r made
  induction fields generalizing i d s with
  | nil => exact (Prod.mk.inj (Except.ok.inj made)).1 ▸ holds
  | cons f fields ih =>
    have others : ∀ f ∈ fields, f.Keeps I := fun f mem => keep f (List.mem_cons_of_mem _ mem)
    obtain ⟨⟨more, next⟩, -, made⟩ := bind_eq_ok_iff.1 made
    cases more with
    | true =>
      obtain ⟨⟨put, rest⟩, read, made⟩ := bind_eq_ok_iff.1 made
      exact ih others _ (keep f List.mem_cons_self read d holds) made
    | false =>
      simp only [Bool.false_eq_true, if_false] at made
      split at made
      · cases made
      · exact ih others _ holds made

theorem gives_record {shape : Shape δ} (blank : I shape.blank) (keep : ∀ f ∈ shape.fields, f.Keeps I) :
    Gives I (record shape) := by
  intro s v r made
  unfold record at made
  split at made
  · cases made
  · obtain ⟨rest, read⟩ := exists_of_closed made
    exact gives_positionsWith keep 0 blank read
  · obtain ⟨rest, read⟩ := exists_of_closed made
    obtain ⟨⟨d, last⟩, read, made⟩ := bind_eq_ok_iff.1 read
    have holds := gives_fieldsWith keep _ _ blank read
    simp only at made
    split at made
    · cases made
    · exact (Prod.mk.inj (Except.ok.inj made)).1 ▸ holds
  · cases made

theorem of_whole (gives : Gives P reader) {s : List Char} {v : α} (made : whole reader s = .ok v) :
    P v := by
  obtain ⟨⟨value, rest⟩, read, made⟩ := bind_eq_ok_iff.1 made
  simp only at made
  split at made
  · exact Except.ok.inj made ▸ gives read
  · cases made

end Herald.Json
