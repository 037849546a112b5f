import Herald.Channel.Bark
import Herald.Proofs.Guard
import Herald.Proofs.Text.Phrase

/-! The rules by which a locator decides its channel. An address belongs to the channel that its host names; if
the host names none, the parts of its path decide, and these are the same however many slashes stand between
them. The first part is the device key that decided and also the one that notifications are sent with. -/
namespace Herald

open Herald.Http Herald.Text

def Url.HostHas (u : Url) (phrase : List Char) : Prop :=
  ∃ host, u.hostText = some host ∧ phrase <:+: lower host

theorem Url.contains_host_iff {u : Url} {phrase : List Char} (some_ : phrase ≠ []) :
    contains phrase (lower (u.hostText.getD [])) = true ↔ u.HostHas phrase := by
  rw [contains_iff, HostHas]
  cases u.hostText with
  | none => simp [lower, some_]
  | some host => simp

namespace Locator

def parts (path : List Char) : List (List Char) := (splitAt '/' path).filter fun part => !part.isEmpty

theorem parts_append (a b : List Char) : parts (a ++ '/' :: b) = parts a ++ parts b := by
  rw [parts, splitAt_append, List.filter_append, parts, parts]

theorem parts_slashes_append {a : List Char} (all : ∀ c ∈ a, (c == '/') = true) (s : List Char) :
    parts (a ++ s) = parts s := by
  induction a with
  | nil => rfl
  | cons c a ih =>
    obtain ⟨first, later⟩ := List.forall_mem_cons.1 all
    rw [eq_of_beq first]
    exact (parts_append [] (a ++ s)).trans (ih later)

theorem parts_append_slashes {b : List Char} (all : ∀ c ∈ b, (c == '/') = true) (s : List Char) :
    parts (s ++ b) = parts s := by
  cases b with
  | nil => rw [List.append_nil]
  | cons c b =>
    obtain ⟨first, later⟩ := List.forall_mem_cons.1 all
    have none_ : parts b = [] := by
      have slashes := parts_slashes_append later []
      rwa [List.append_nil] at slashes
    rw [eq_of_beq first, parts_append, none_, List.append_nil]

theorem parts_trimSlashes (path : List Char) : parts (trimSlashes path) = parts path := by
  obtain ⟨a, b, slashesA, slashesB, whole⟩ := exists_ends (· == '/') path
  calc parts (trimSlashes path)
      = parts (a ++ (trimSlashes path ++ b)) := by
        rw [parts_slashes_append slashesA, parts_append_slashes slashesB]
    _ = parts path := congrArg parts whole.symm

theorem parts_of_root {path : List Char} (root : trimSlashes path = []) : parts path = [] := by
  rw [← parts_trimSlashes, root]
  rfl

theorem head?_parts_append {first rest : List Char} (some_ : first ≠ []) (absent : '/' ∉ first)
    (stops : Stops (· != '/') rest) : (parts (first ++ rest)).head? = some first := by
  have alone : parts first = [first] := by
    rw [parts, splitAt_of_not_mem absent]
    simpa using some_
  cases rest with
  | nil => rw [List.append_nil, alone, List.head?_cons]
  | cons c rest =>
    have slash : c = '/' := by simpa using stops_cons.1 stops
    rw [slash, parts_append, alone, List.singleton_append, List.head?_cons]

theorem head?_parts {path : List Char} (there : trimSlashes path ≠ []) :
    (parts path).head? = some ((trimSlashes path).takeWhile (· != '/')) := by
  have some_ : (trimSlashes path).takeWhile (· != '/') ≠ [] := by
    obtain ⟨c, r, text⟩ := List.exists_cons_of_ne_nil there
    have opens : Stops (· == '/') (trimSlashes path) := stops_ends (· == '/') path
    rw [text, stops_cons] at opens
    simpa [text] using opens
  have absent : '/' ∉ (trimSlashes path).takeWhile (· != '/') := by
    intro mem
    have plain := List.mem_takeWhile_imp mem
    simp at plain
  have first := head?_parts_append some_ absent (stops_dropWhile (· != '/') (trimSlashes path))
  rwa [List.takeWhile_append_dropWhile, parts_trimSlashes] at first

theorem namesPush_iff {path : List Char} : namesPush path = true ↔ "push".toList ∈ parts path := by
  have enclosed := @mem_splitAt_iff '/' (trimSlashes path) "push".toList
  rw [← parts_trimSlashes path, parts, List.mem_filter, enclosed, namesPush, contains_iff]
  simp

structure IsKey (part : List Char) : Prop where
  long : 16 ≤ part.length
  short : part.length ≤ 64
  plain : ∀ c ∈ part, c.isAlphanum = true

theorem isDeviceKey_iff {part : List Char} : isDeviceKey part = true ↔ IsKey part := by
  simp only [isDeviceKey, Bool.and_eq_true, decide_eq_true_eq, List.all_eq_true]
  exact ⟨fun ⟨⟨long, short⟩, plain⟩ => ⟨long, short, plain⟩,
    fun key => ⟨⟨key.long, key.short⟩, key.plain⟩⟩

theorem deviceKey?_eq_some_iff {path key : List Char} :
    deviceKey? path = some key ↔ (parts path).head? = some key ∧ IsKey key := by
  rw [← isDeviceKey_iff]
  by_cases root : trimSlashes path = []
  · rw [parts_of_root root, deviceKey?, root]
    simp [isDeviceKey]
  · rw [head?_parts root, Option.some.injEq, deviceKey?]
    grind

def IsUnnamed (u : Url) : Prop :=
  ¬ u.HostHas weComDomain ∧ ¬ u.HostHas barkDomain ∧ ¬ u.HostHas barkMarker

/-- The rules by which an address decides its channel. -/
inductive Decides (u : Url) : Channel → Prop
  | weCom : u.HostHas weComDomain → Decides u .weCom
  | server : ¬ u.HostHas weComDomain → u.HostHas barkDomain ∨ u.HostHas barkMarker → Decides u .bark
  | endpoint : IsUnnamed u → "push".toList ∈ parts u.path → Decides u .bark
  | key {first : List Char} : IsUnnamed u → (parts u.path).head? = some first → IsKey first →
    Decides u .bark
  | other : IsUnnamed u → "push".toList ∉ parts u.path →
    (∀ first, (parts u.path).head? = some first → ¬ IsKey first) → Decides u .raw

theorem Decides.unique {u : Url} {c d : Channel} (decides : Decides u c) (decides' : Decides u d) :
    c = d := by
  cases decides <;> cases decides' <;> simp_all [IsUnnamed]

theorem decides_channelOf (u : Url) : Decides u (channelOf u) := by
  have hasWeCom := @Url.contains_host_iff u weComDomain (by decide)
  have hasDomain := @Url.contains_host_iff u barkDomain (by decide)
  have hasMarker := @Url.contains_host_iff u barkMarker (by decide)
  simp only [channelOf]
  split
  · next weCom => exact .weCom (hasWeCom.1 weCom)
  · next noWeCom =>
    rw [hasWeCom] at noWeCom
    split
    · next server =>
      rw [Bool.or_eq_true, hasDomain, hasMarker] at server
      exact .server noWeCom server
    · next noServer =>
      rw [Bool.or_eq_true, hasDomain, hasMarker, not_or] at noServer
      have unnamed : IsUnnamed u := ⟨noWeCom, noServer⟩
      split
      · next root =>
        exact .other unnamed (by simp [parts_of_root root]) (by simp [parts_of_root root])
      · split
        · next bark =>
          rw [Bool.or_eq_true, namesPush_iff, Option.isSome_iff_exists] at bark
          obtain endpoint | ⟨first, key⟩ := bark
          · exact .endpoint unnamed endpoint
          · obtain ⟨opens, isKey⟩ := deviceKey?_eq_some_iff.1 key
            exact .key unnamed opens isKey
        · next raw =>
          rw [Bool.or_eq_true, namesPush_iff, not_or] at raw
          refine .other unnamed raw.1 fun first opens isKey => raw.2 ?_
          rw [deviceKey?_eq_some_iff.2 ⟨opens, isKey⟩, Option.isSome_some]

theorem channelOf_eq_iff {u : Url} {c : Channel} : channelOf u = c ↔ Decides u c :=
  ⟨fun same => same ▸ decides_channelOf u, (decides_channelOf u).unique⟩

theorem classify_of_plain {locator : String}
    (plain : ∀ lead ∈ [weComLead, barkLead], ¬ lead <+: trim locator.toList) :
    (∀ fault, Url.parse (trim locator.toList) = .error fault →
        classify locator = ⟨.raw, trimmed locator⟩) ∧
      ∀ u, Url.parse (trim locator.toList) = .ok u →
        classify locator = ⟨channelOf u, trimmed locator⟩ := by
  have none_ (lead : List Char) (known : lead ∈ [weComLead, barkLead]) :
      dropLead lead (trim locator.toList) = none := by
    rw [← Option.not_isSome_iff_eq_none, isSome_dropLead]
    exact plain lead known
  simp only [classify, classifyText, none_ weComLead (by simp), none_ barkLead (by simp)]
  exact ⟨fun fault failed => by simp only [failed, trimmed], fun u parsed => by simp only [parsed, trimmed]⟩

end Locator

theorem Bark.deliver_of_key {client : Client} {target : String} {event : Event} {body : String} {u : Url}
    {key : List Char} (named : Guard.target? target = .ok u) (text : event.body = .ok body)
    (found : Locator.deviceKey? u.path = some key) :
    ∃ reviewed answered, deliver client false target event = .check u reviewed ∧
      reviewed (.ok ()) = client.send (.to .post (pushUrl u) "application/json; charset=utf-8"
        (message key (trim event.activity.title.toList) (trim body.toList))) answered := by
  simp only [deliver, named]
  refine ⟨_, fun answer => if accepted answer then .done (.ok ())
    else pushPath client u (trim event.activity.title.toList) (trim body.toList), rfl, ?_⟩
  simp only [text, push, found]
  rfl

namespace Locator

/-- Apart from shorthands, what does not read as an address is raw, and the rules decide about all else. If the
first part of the path is a device key, the attempts to deliver find the same one and post it. -/
theorem rules_decide {locator : String}
    (plain : ∀ lead ∈ [weComLead, barkLead], ¬ lead <+: trim locator.toList) :
    (classify locator).target = trimmed locator ∧
      (∀ fault, Url.parse (trim locator.toList) = .error fault → (classify locator).channel = .raw) ∧
      ∀ u, Url.parse (trim locator.toList) = .ok u →
        (∀ c, (classify locator).channel = c ↔ Decides u c) ∧
        ∀ first, (parts u.path).head? = some first → IsKey first →
          deviceKey? u.path = some first ∧
          ∀ client event body, event.body = .ok body →
            ∃ reviewed answered,
              Bark.deliver client false (classify locator).target event = .check u reviewed ∧
              reviewed (.ok ()) = client.send (.to .post (Bark.pushUrl u) "application/json; charset=utf-8"
                (Bark.message first (trim event.activity.title.toList) (trim body.toList))) answered := by
  obtain ⟨unread, read⟩ := classify_of_plain plain
  have target : (classify locator).target = trimmed locator := by
    cases found : Url.parse (trim locator.toList) with
    | error fault => rw [unread fault found]
    | ok u => rw [read u found]
  refine ⟨target, fun fault failed => by rw [unread fault failed], fun u parsed => ⟨fun c => ?_, ?_⟩⟩
  · rw [read u parsed, channelOf_eq_iff]
  · intro first opens isKey
    have key : deviceKey? u.path = some first := deviceKey?_eq_some_iff.2 ⟨opens, isKey⟩
    have named : Guard.target? (classify locator).target = .ok u := by
      rw [target, Guard.target?_eq_ok_iff, trimmed, String.toList_ofList, trim_trim, parsed]
    exact ⟨key, fun client event body text => Bark.deliver_of_key named text key⟩

/-- Slashes in a row and at the end of the path do not hide its device key. -/
theorem rules_decide_of_slashes :
    (classify " https://[2001:db8::1]//a1b2c3d4e5f6g7h8// ").channel = .bark ∧
      deviceKey? "//a1b2c3d4e5f6g7h8//".toList = some "a1b2c3d4e5f6g7h8".toList := by
  let u : Url := { scheme := "https".toList, path := "//a1b2c3d4e5f6g7h8//".toList,
                   authority := some { host := some (.literal (.v6 (.ofNat 128 0x20010db8000000000000000000000001))) } }
  have parsed : Url.parse (trim " https://[2001:db8::1]//a1b2c3d4e5f6g7h8// ".toList) = .ok u := by
    decide +kernel
  have unnamed : IsUnnamed u := by
    rw [IsUnnamed, ← Url.contains_host_iff (by decide), ← Url.contains_host_iff (by decide),
      ← Url.contains_host_iff (by decide)]
    decide
  have opens : (parts u.path).head? = some "a1b2c3d4e5f6g7h8".toList := by decide
  have isKey : IsKey "a1b2c3d4e5f6g7h8".toList := isDeviceKey_iff.1 (by decide)
  obtain ⟨decided, found⟩ := (rules_decide (by decide)).2.2 u parsed
  exact ⟨(decided .bark).2 (.key unnamed opens isKey), (found _ opens isKey).1⟩

end Locator

end Herald
