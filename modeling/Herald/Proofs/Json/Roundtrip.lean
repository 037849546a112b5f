import Herald.Channel.Payload
import Herald.Config
import Herald.Hook
import Herald.Proofs.Calendar.Timestamp
import Herald.Proofs.Config.Words
import Herald.Proofs.Json.Written
import Herald.Proofs.Owner.Reference

/-! Records are read back from the text that is written for them. Each member of an object fills one field
of a draft, so an object is read if its members fill the draft one after the other; and a text that was read
at all is a record that is written and read again unchanged. -/
namespace Herald

namespace Json

open Herald.Text

variable {α β δ : Type} {fields : List (Field δ)}

def memberText (m : String × List Char) : List Char := writeString m.1 ++ ':' :: m.2

inductive Fills (fields : List (Field δ)) : δ → List (String × List Char) → δ → Prop
  | none {d : δ} : Fills fields d [] d
  | some {d e : δ} {f : Field δ} {name : String} {written : List Char} {put : δ → δ}
      {members : List (String × List Char)} :
    (fields.find? fun f => f.name == name) = some f → f.isSet d = false → Writes f.read written put →
      Fills fields (put d) members e → Fills fields d ((name, written) :: members) e

theorem writes_map {reader : Reader α} {written : List Char} {v : α} (writes : Writes reader written v)
    (f : α → β) : Writes (Reader.map reader f) written (f v) :=
  ⟨writes.starts, fun rest follows => by simp [Reader.map, writes.reads rest follows, Except.map]⟩

theorem Field.writes_of {name : String} {required : Bool} {reader : Reader α} {get : δ → Option α}
    {put : α → δ → δ} {written : List Char} {v : α} (writes : Writes reader written v) :
    Writes (Field.of name required reader get put).read written (put v) :=
  ⟨writes.starts, fun rest follows => by simp [Field.of, writes.reads rest follows, Except.map]⟩

theorem nextKey_memberText (m : String × List Char) (rest : List Char) :
    nextKey true (memberText m ++ rest) = .ok (some m.1.toList, ':' :: (m.2 ++ rest)) ∧
      nextKey false (',' :: (memberText m ++ rest)) = .ok (some m.1.toList, ':' :: (m.2 ++ rest)) := by
  have quote : isSpace '\x22' = false := by decide
  have comma : isSpace ',' = false := by decide
  simp [nextKey, memberText, writeString, writeText, skipSpace_of_head quote, skipSpace_of_head comma,
    string_writeText, Except.map]

theorem fieldsWith_cons {d : δ} {f : Field δ} {name : String} {written : List Char} {put : δ → δ}
    (found : (fields.find? fun f => f.name == name) = some f) (unset : f.isSet d = false)
    (writes : Writes f.read written put) {rest : List Char} (follows : Follows rest) (fuel : Nat) :
    fieldsWith fields (fuel + 1) true d (memberText (name, written) ++ rest) =
        fieldsWith fields fuel false (put d) rest ∧
      fieldsWith fields (fuel + 1) false d (',' :: (memberText (name, written) ++ rest)) =
        fieldsWith fields fuel false (put d) rest := by
  have colon : isSpace ':' = false := by decide
  have key := nextKey_memberText (name, written) rest
  constructor
  · rw [fieldsWith, key.1]
    simp [bind, Except.bind, found, unset, Json.colon, skipSpace_of_head colon, writes.reads rest follows]
  · rw [fieldsWith, key.2]
    simp [bind, Except.bind, found, unset, Json.colon, skipSpace_of_head colon, writes.reads rest follows]

variable {d e : δ} {members : List (String × List Char)}

theorem fieldsWith_later (fills : Fills fields d members e) {fuel : Nat} (enough : members.length < fuel)
    (rest : List Char) :
    fieldsWith fields fuel false d (later (members.map memberText) ++ '\x7d' :: rest) =
      .ok (e, '\x7d' :: rest) := by
  induction fills generalizing fuel with
  | none =>
    obtain ⟨fuel, rfl⟩ := Nat.exists_eq_add_one.2 enough
    rfl
  | @some _ _ _ name written _ members found unset writes _ ih =>
    obtain ⟨fuel, rfl⟩ := Nat.exists_eq_add_one.2 (Nat.zero_lt_of_lt enough)
    have split : later (((name, written) :: members).map memberText) ++ '\x7d' :: rest =
        ',' :: (memberText (name, written) ++ (later (members.map memberText) ++ '\x7d' :: rest)) := by
      simp [later]
    rw [split, (fieldsWith_cons found unset writes (follows_later _ (by simp) rest) fuel).2]
    exact ih (Nat.lt_of_succ_lt_succ enough)

theorem fieldsWith_commas (fills : Fills fields d members e) {fuel : Nat} (enough : members.length < fuel)
    (rest : List Char) :
    fieldsWith fields fuel true d (commas (members.map memberText) ++ '\x7d' :: rest) =
      .ok (e, '\x7d' :: rest) := by
  obtain ⟨fuel, rfl⟩ := Nat.exists_eq_add_one.2 (Nat.zero_lt_of_lt enough)
  cases fills with
  | none => rfl
  | some found unset writes others =>
    rw [List.map_cons, commas_cons, List.append_assoc,
      (fieldsWith_cons found unset writes (follows_later _ (by simp) rest) fuel).1]
    exact fieldsWith_later others (Nat.lt_of_succ_lt_succ enough) rest

theorem writes_record {shape : Shape δ} (fills : Fills shape.fields shape.blank members d)
    (complete : missing? shape.fields d = none) :
    Writes (record shape) (writeObject members) d where
  starts := ⟨'\x7b', _, rfl, by decide, by decide, by decide⟩
  reads rest _ := by
    have brace : isSpace '\x7b' = false := by decide
    have close : isSpace '\x7d' = false := by decide
    have count : members.length ≤ (commas (members.map memberText)).length := by
      refine Nat.le_trans (by simp) (length_le_commas fun part mem => ?_)
      obtain ⟨m, -, rfl⟩ := List.mem_map.1 mem
      simp [memberText]
    have read : fieldsWith shape.fields ((commas (members.map memberText) ++ '\x7d' :: rest).length + 1)
        true shape.blank (commas (members.map memberText) ++ '\x7d' :: rest) = .ok (d, '\x7d' :: rest) :=
      fieldsWith_commas fills (by simp only [List.length_append]; omega) rest
    have text : writeObject members ++ rest =
        '\x7b' :: (commas (members.map memberText) ++ '\x7d' :: rest) := by
      simp only [writeObject, List.cons_append, List.append_assoc]
      rfl
    simp only [record, text, skipSpace_of_head brace, read, complete, bind, Except.bind, pure, Except.pure,
      closed, closeObject, skipSpace_of_head close]

section

variable {reader : Reader α} {write : α → List Char} {entries : List (String × α)}

theorem membersWith_memberText {name : String} {written rest r : List Char} {v : α} {fuel : Nat}
    (writes : Writes reader written v) (follows : Follows rest)
    (others : membersWith reader fuel false rest = .ok (entries, r)) :
    membersWith reader (fuel + 1) true (memberText (name, written) ++ rest) = .ok ((name, v) :: entries, r) ∧
      membersWith reader (fuel + 1) false (',' :: (memberText (name, written) ++ rest)) =
        .ok ((name, v) :: entries, r) := by
  have colon : isSpace ':' = false := by decide
  have key := nextKey_memberText (name, written) rest
  constructor
  · rw [membersWith, key.1]
    simp [bind, Except.bind, Json.colon, skipSpace_of_head colon, writes.reads rest follows, others, pure, Except.pure]
  · rw [membersWith, key.2]
    simp [bind, Except.bind, Json.colon, skipSpace_of_head colon, writes.reads rest follows, others, pure, Except.pure]

theorem membersWith_later (writes : ∀ e ∈ entries, Writes reader (write e.2) e.2) {fuel : Nat}
    (enough : entries.length < fuel) (rest : List Char) :
    membersWith reader fuel false (later (entries.map fun e => memberText (e.1, write e.2)) ++ '\x7d' :: rest) =
      .ok (entries, '\x7d' :: rest) := by
  induction entries generalizing fuel with
  | nil =>
    obtain ⟨fuel, rfl⟩ := Nat.exists_eq_add_one.2 enough
    rfl
  | cons e entries ih =>
    obtain ⟨fuel, rfl⟩ := Nat.exists_eq_add_one.2 (Nat.zero_lt_of_lt enough)
    have others := ih (fun e mem => writes e (List.mem_cons_of_mem _ mem)) (Nat.lt_of_succ_lt_succ enough)
    have split : later ((e :: entries).map fun e => memberText (e.1, write e.2)) ++ '\x7d' :: rest =
        ',' :: (memberText (e.1, write e.2) ++
          (later (entries.map fun e => memberText (e.1, write e.2)) ++ '\x7d' :: rest)) := by
      simp [later]
    rw [split]
    exact (membersWith_memberText (writes e List.mem_cons_self) (follows_later _ (by simp) rest) others).2

theorem membersWith_commas (writes : ∀ e ∈ entries, Writes reader (write e.2) e.2) {fuel : Nat}
    (enough : entries.length < fuel) (rest : List Char) :
    membersWith reader fuel true (commas (entries.map fun e => memberText (e.1, write e.2)) ++ '\x7d' :: rest) =
      .ok (entries, '\x7d' :: rest) := by
  obtain ⟨fuel, rfl⟩ := Nat.exists_eq_add_one.2 (Nat.zero_lt_of_lt enough)
  cases entries with
  | nil => rfl
  | cons e entries =>
    have others := membersWith_later (fun e mem => writes e (List.mem_cons_of_mem _ mem))
      (Nat.lt_of_succ_lt_succ enough) rest
    rw [List.map_cons, commas_cons, List.append_assoc]
    exact (membersWith_memberText (writes e List.mem_cons_self) (follows_later _ (by simp) rest) others).1

theorem writes_members (writes : ∀ e ∈ entries, Writes reader (write e.2) e.2) :
    Writes (Json.members reader) (writeObject (entries.map fun e => (e.1, write e.2))) entries where
  starts := ⟨'\x7b', _, rfl, by decide, by decide, by decide⟩
  reads rest _ := by
    have brace : isSpace '\x7b' = false := by decide
    have close : isSpace '\x7d' = false := by decide
    have parts : (entries.map fun e => (e.1, write e.2)).map memberText =
        entries.map fun e => memberText (e.1, write e.2) := List.map_map
    have count : entries.length ≤ (commas (entries.map fun e => memberText (e.1, write e.2))).length := by
      refine Nat.le_trans (by simp) (length_le_commas fun part mem => ?_)
      obtain ⟨e, -, rfl⟩ := List.mem_map.1 mem
      simp [memberText]
    have enough : entries.length <
        (commas (entries.map fun e => memberText (e.1, write e.2)) ++ '\x7d' :: rest).length + 1 := by
      simp only [List.length_append]
      omega
    have read := membersWith_commas writes enough rest
    have text : writeObject (entries.map fun e => (e.1, write e.2)) ++ rest =
        '\x7b' :: (commas (entries.map fun e => memberText (e.1, write e.2)) ++ '\x7d' :: rest) := by
      simp only [writeObject, List.cons_append, List.append_assoc, ← parts]
      rfl
    simp only [Json.members, text, skipSpace_of_head brace, read, closed, closeObject, skipSpace_of_head close]

end

theorem whole_of_writes {reader : Reader α} {written : List Char} {v : α}
    (writes : Writes reader written v) : whole reader written = .ok v := by
  have read := writes.reads [] follows_nil
  rw [List.append_nil] at read
  simp [whole, read, bind, Except.bind, skipSpace, pure, Except.pure]

/-- The values with a property are read back from their text, and every value that was read from any text is
read back from its own. -/
structure Roundtrips (reader : Reader α) (json : α → List Char) (P : α → Prop) : Prop where
  back : ∀ v, P v → whole reader (json v) = .ok v
  again : ∀ s v, whole reader s = .ok v → whole reader (json v) = .ok v

theorem roundtrips {reader : Reader α} {json : α → List Char} {P : α → Prop}
    (writes : ∀ v, P v → Writes reader (json v) v) (gives : Gives P reader) :
    Roundtrips reader json P where
  back v holds := whole_of_writes (writes v holds)
  again _ v read := whole_of_writes (writes v (of_whole gives read))

end Json

namespace Hook

open Json

theorem writes_json (h : Hook) : Writes reader h.json h := by
  have object : Writes (record shape) h.json ⟨some h.id, some h.title, some h.url⟩ := by
    refine writes_record ?_ rfl
    refine .some rfl rfl (Field.writes_of (writes_text h.id)) ?_
    refine .some rfl rfl (Field.writes_of (writes_text h.title)) ?_
    exact .some rfl rfl (Field.writes_of (writes_text h.url)) .none
  exact writes_map object Draft.hook

end Hook

namespace Config

open Json

theorem writes_json {c : Config} (inWords : c.InWords) : Writes reader c.json c := by
  have long {n : Nat} (fits : n < 0x10000000000000000) : Writes long (writeNat n) n :=
    writes_natural _ (by decide) fits
  have size {n : Nat} (fits : n < 0x10000000000000000) : Writes size (writeNat n) n :=
    writes_natural _ (by decide) fits
  have short {n : Nat} (fits : n < 0x100000000) : Writes short (writeNat n) n :=
    writes_natural _ (by decide) fits
  have object : Writes (record shape) c.json ⟨some c.httpTimeoutSecs, some c.fetchTimeoutMs,
      some c.deadlineSecs, some c.slotsPerHost, some c.failureThreshold, some c.cooldownSecs,
      some c.backoffMs, some c.forceGet⟩ := by
    refine writes_record ?_ rfl
    refine .some rfl rfl (Field.writes_of (long inWords.httpTimeoutSecs)) ?_
    refine .some rfl rfl (Field.writes_of (long inWords.fetchTimeoutMs)) ?_
    refine .some rfl rfl (Field.writes_of (long inWords.deadlineSecs)) ?_
    refine .some rfl rfl (Field.writes_of (size inWords.slotsPerHost)) ?_
    refine .some rfl rfl (Field.writes_of (short inWords.failureThreshold)) ?_
    refine .some rfl rfl (Field.writes_of (long inWords.cooldownSecs)) ?_
    refine .some rfl rfl (Field.writes_of (writes_list fun _ mem => long (inWords.backoffMs _ mem))) ?_
    exact .some rfl rfl (Field.writes_of (writes_boolean c.forceGet)) .none
  exact writes_map object Draft.config

theorem gives_reader : Gives InWords reader :=
  gives_map (gives_record inWords_default keeps_of_mem_fields) fun _ => id

end Config

namespace Activity

open Json

theorem parse_name_parse (name : String) : parse (parse name).name = parse name := by
  cases made : parse name with
  | other kept =>
    have same : kept = name := by
      simp only [parse] at made
      repeat' split at made
      all_goals cases made
      rfl
    exact same ▸ made
  | _ => decide +kernel

theorem writes_json (a : Activity) : Writes reader a.json (parse a.name) :=
  writes_textWith (by rw [String.ofList_toList])

theorem gives_reader : Gives (fun a => ∃ name, a = parse name) reader :=
  gives_textWith fun {s _} accepted => ⟨String.ofList s, (Except.ok.inj accepted).symm⟩

end Activity

namespace Memo

open Json

/-- The time of a memo, if there is one, is an instant that some text names. -/
def HasNamedTime (m : Memo) : Prop :=
  ∀ t, m.displayTime = some t → ∃ s, Calendar.Timestamp.parse? s = some t

theorem writes_timeReader {t : Calendar.Timestamp} (valid : t.isValid = true) :
    Writes timeReader (writeText t.text) t :=
  writes_textWith (by rw [Calendar.Timestamp.parse?_text valid])

theorem writes_json {m : Memo} (named : m.HasNamedTime) : Writes reader m.json m := by
  obtain ⟨name, creator, content, snippet, time⟩ := m
  have texts {e : Draft} {rest : List (String × List Char)}
      (others : Fills shape.fields ⟨some name, some creator, some content, some snippet, none⟩ rest e) :
      Fills shape.fields shape.blank ([("name", writeString name), ("creator", writeString creator),
        ("content", writeString content), ("snippet", writeString snippet)] ++ rest) e := by
    refine .some rfl rfl (Field.writes_of (writes_text name)) ?_
    refine .some rfl rfl (Field.writes_of (writes_text creator)) ?_
    refine .some rfl rfl (Field.writes_of (writes_text content)) ?_
    exact .some rfl rfl (Field.writes_of (writes_text snippet)) others
  cases time with
  | none => exact writes_map (writes_record (texts .none) rfl) Draft.memo
  | some t =>
    obtain ⟨s, read⟩ := named t rfl
    have last := writes_optional (writes_timeReader (Calendar.Timestamp.isValid_of_parse? read))
    have object : Writes (record shape) (json ⟨name, creator, content, snippet, some t⟩)
        ⟨some name, some creator, some content, some snippet, some (some t)⟩ :=
      writes_record (texts (.some rfl rfl (Field.writes_of last) .none)) rfl
    exact writes_map object Draft.memo

theorem gives_timeReader : Gives (fun t => ∃ s, Calendar.Timestamp.parse? s = some t) timeReader := by
  refine gives_textWith fun {s v} accepted => ⟨s, ?_⟩
  split at accepted
  · next named => cases accepted; exact named
  · cases accepted

theorem gives_reader : Gives HasNamedTime reader := by
  have texts : Gives (fun _ => True) text := fun _ _ _ _ => trivial
  refine gives_map (P := fun d => d.memo.HasNamedTime) (gives_record ?_ fun f mem => ?_) fun _ => id
  · intro t none_
    cases none_
  · simp only [shape, List.mem_cons, List.not_mem_nil, or_false] at mem
    rcases mem with rfl | rfl | rfl | rfl | rfl
    · exact Field.keeps_of texts fun _ _ _ named => named
    · exact Field.keeps_of texts fun _ _ _ named => named
    · exact Field.keeps_of texts fun _ _ _ named => named
    · exact Field.keeps_of texts fun _ _ _ named => named
    · exact Field.keeps_of (gives_optional gives_timeReader) fun _ _ named _ => named

end Memo

namespace Payload

open Json

structure Draft where
  url : Option String := none
  activity : Option Activity := none
  creator : Option String := none
  memo : Option Memo := none

def shape : Shape Draft where
  title := "RawPayload"
  fields := [
    .of "url" true text Draft.url fun v d => { d with url := some v },
    .of "activityType" true Activity.reader Draft.activity fun v d => { d with activity := some v },
    .of "creator" true text Draft.creator fun v d => { d with creator := some v },
    .of "memo" true Memo.reader Draft.memo fun v d => { d with memo := some v }]
  blank := {}

def Draft.payload? (d : Draft) : Option Payload := do
  return ⟨← d.url, ← d.activity, ← d.creator, ← d.memo⟩

def reader : Reader (Option Payload) := Reader.map (record shape) Draft.payload?

theorem writes_json {p : Payload} (named : p.memo.HasNamedTime) :
    Writes reader p.json (some { p with activity := .parse p.activity.name }) := by
  have object : Writes (record shape) p.json
      ⟨some p.url, some (.parse p.activity.name), some p.creator, some p.memo⟩ := by
    refine writes_record ?_ rfl
    refine .some rfl rfl (Field.writes_of (writes_text p.url)) ?_
    refine .some rfl rfl (Field.writes_of p.activity.writes_json) ?_
    refine .some rfl rfl (Field.writes_of (writes_text p.creator)) ?_
    exact .some rfl rfl (Field.writes_of (Memo.writes_json named)) .none
  exact writes_map object Draft.payload?

end Payload

/-- Reading undoes writing for memos, hooks, configurations and activities; and the body of a raw request for
an event holds its memo and its activity. -/
theorem Json.roundtrips_of_records :
    Roundtrips Memo.reader Memo.json Memo.HasNamedTime ∧
      Roundtrips Hook.reader Hook.json (fun _ => True) ∧
      Roundtrips Config.reader Config.json Config.InWords ∧
      Roundtrips Activity.reader Activity.json (fun a => ∃ name, a = Activity.parse name) ∧
      ∀ (e : Event) (target : String) (p : Payload), Payload.ofEvent e target = .ok p →
        e.memo.HasNamedTime →
          ∃ body, whole Payload.reader p.json = .ok (some body) ∧ body.memo = e.memo ∧
            ((∃ name, e.activity = Activity.parse name) → body.activity = e.activity) := by
  refine ⟨roundtrips (fun _ => Memo.writes_json) Memo.gives_reader,
    roundtrips (fun h _ => h.writes_json) fun _ _ _ _ => trivial,
    roundtrips (fun _ => Config.writes_json) Config.gives_reader,
    roundtrips ?_ Activity.gives_reader, ?_⟩
  · rintro _ ⟨name, rfl⟩
    have writes := (Activity.parse name).writes_json
    rwa [Activity.parse_name_parse] at writes
  · intro e target p made named
    have memo : p.memo = e.memo ∧ p.activity = e.activity := by
      unfold Payload.ofEvent at made
      split at made <;> cases made
      exact ⟨rfl, rfl⟩
    refine ⟨_, whole_of_writes (Payload.writes_json (memo.1 ▸ named)), memo.1, ?_⟩
    rintro ⟨name, parsed⟩
    rw [memo.2, parsed, Activity.parse_name_parse]

/-- A leap second with a fraction in a year of five digits. -/
theorem Json.roundtrips_of_leap_second :
    let m : Memo :=
      { creator := "users/0"
        content := "a \x22quote\x22\n"
        displayTime := some ⟨⟨12345, 7, 1⟩, 0, 29, 60, 1000⟩ }
    whole Memo.reader m.json = .ok m ∧
      ∃ body, whole Payload.reader (Payload.json ⟨"a", .test, "users/0", m⟩) = .ok (some body) ∧
        body.memo = m ∧ body.activity = .test := by
  intro m
  have named : m.HasNamedTime := by
    intro t is
    cases is
    exact ⟨"+12345-06-30T23:59:60.000001-00:30".toList, by decide⟩
  have made : Payload.ofEvent ⟨.test, m⟩ "a" = .ok ⟨"a", .test, "users/0", m⟩ := by
    have text : String.ofList (Owner.text 0) = "users/0" := by decide
    have owner := @Owner.parse_text 0 (by decide) (by decide)
    rw [text] at owner
    simp only [Payload.ofEvent, m, owner, text]
  obtain ⟨body, read, memo, activity⟩ := Json.roundtrips_of_records.2.2.2.2 _ _ _ made named
  exact ⟨Json.roundtrips_of_records.1.back m named, body, read, memo,
    activity ⟨"memos.webhook.test", by decide +kernel⟩⟩

end Herald
