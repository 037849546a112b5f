import Herald.Config
import Herald.Proofs.Json.Slots
import Herald.Proofs.Json.Values
import Herald.Proofs.Text.Signed
import Herald.Proofs.Text.Utf8

/-! The layers of the settings, field by field. A file provides all of its fields or none: it must be a record in which
every known field stands at most once and has a value of its type. Three fields have a variable, which overrides the
file where its value can be used; everything else comes from the file, or else from the defaults. -/
namespace Herald.Text

/-! ### Small and large letters -/

variable {c letter : Char} {s letters : List Char}

theorem toNat_toLower (c : Char) :
    c.toLower.toNat = if 65 ≤ c.toNat ∧ c.toNat ≤ 90 then c.toNat + 32 else c.toNat := by
  have large : (c.val ≥ 'A'.val ∧ c.val ≤ 'Z'.val) ↔ 65 ≤ c.toNat ∧ c.toNat ≤ 90 := by
    simp only [ge_iff_le, UInt32.le_iff_toNat_le]
    rfl
  have sum : (c.val + ('a'.val - 'A'.val)).toNat = (c.toNat + 32) % 4294967296 := UInt32.toNat_add _ _
  unfold Char.toLower
  simp only [large]
  split
  · next within => exact sum.trans (Nat.mod_eq_of_lt (by omega))
  · rfl

theorem toNat_toUpper (c : Char) :
    c.toUpper.toNat = if 97 ≤ c.toNat ∧ c.toNat ≤ 122 then c.toNat - 32 else c.toNat := by
  have small : ('a'.val ≤ c.val ∧ c.val ≤ 'z'.val) ↔ 97 ≤ c.toNat ∧ c.toNat ≤ 122 := by
    simp only [UInt32.le_iff_toNat_le]
    rfl
  -- The difference is negative, and its word is the complement of 32.
  have sum : (c.val + ('A'.val - 'a'.val)).toNat = (c.toNat + 4294967264) % 4294967296 := UInt32.toNat_add _ _
  unfold Char.toUpper
  simp only [small]
  split
  · next within => exact sum.trans (by omega)
  · rfl

theorem toLower_eq_iff (small : 97 ≤ letter.toNat ∧ letter.toNat ≤ 122) :
    c.toLower = letter ↔ c = letter ∨ c = letter.toUpper := by
  simp only [← Char.toNat_inj, toNat_toLower, toNat_toUpper]
  split_ifs <;> omega

theorem lower_eq_iff (small : ∀ letter ∈ letters, 97 ≤ letter.toNat ∧ letter.toNat ≤ 122) :
    lower s = letters ↔ List.Forall₂ (fun c letter => c = letter ∨ c = letter.toUpper) s letters := by
  induction letters generalizing s with
  | nil => rw [lower, List.map_eq_nil_iff, List.forall₂_nil_right_iff]
  | cons letter letters ih =>
    obtain ⟨first, rest⟩ := List.forall_mem_cons.1 small
    rw [List.forall₂_cons_right_iff, lower, List.map_eq_cons_iff]
    simp only [← ih rest, ← toLower_eq_iff first, lower]
    constructor
    · rintro ⟨c, r, rfl, head, tail⟩
      exact ⟨c, r, head, tail, rfl⟩
    · rintro ⟨c, r, head, tail, rfl⟩
      exact ⟨c, r, rfl, head, tail⟩

end Herald.Text

namespace Herald.Config

open Herald.Json Herald.Text

/-! ### Files -/

def IsSteps (t : Tree) (steps : List Nat) : Prop :=
  ∃ ts, t = .list ts ∧ List.Forall₂ (IsBelow 0x10000000000000000) ts steps

structure Told (ms : List (Option (List Char) × Tree)) (d : Draft) : Prop where
  legible : ∀ m ∈ ms, m.1 ≠ none
  httpTimeoutSecs : AtMostOnce (IsBelow 0x10000000000000000) (valuesAt "http_timeout_secs" ms) d.httpTimeoutSecs
  fetchTimeoutMs : AtMostOnce (IsBelow 0x10000000000000000) (valuesAt "fetch_timeout_ms" ms) d.fetchTimeoutMs
  deadlineSecs : AtMostOnce (IsBelow 0x10000000000000000) (valuesAt "delivery_deadline_secs" ms) d.deadlineSecs
  slotsPerHost : AtMostOnce (IsBelow 0x10000000000000000) (valuesAt "max_concurrent_per_host" ms) d.slotsPerHost
  failureThreshold : AtMostOnce (IsBelow 0x100000000) (valuesAt "circuit_failure_threshold" ms) d.failureThreshold
  cooldownSecs : AtMostOnce (IsBelow 0x10000000000000000) (valuesAt "circuit_cooldown_secs" ms) d.cooldownSecs
  backoffMs : AtMostOnce IsSteps (valuesAt "backoff_ms" ms) d.backoffMs
  forceGet : AtMostOnce (fun t b => t = .boolean b) (valuesAt "bark_force_get" ms) d.forceGet

def numberSlot (bound : Nat) (word : bound ≤ 0x10000000000000000) (expected name : String) (get : Draft → Option Nat)
    (put : Nat → Draft → Draft) : Slot Draft :=
  ⟨Nat, name, false, natural bound expected, IsBelow bound, accepts_natural word expected, get, put⟩

def longSlot : String → (Draft → Option Nat) → (Nat → Draft → Draft) → Slot Draft :=
  numberSlot 0x10000000000000000 (Nat.le_refl _) "u64"

def slots : List (Slot Draft) := [
  longSlot "http_timeout_secs" Draft.httpTimeoutSecs fun v d => { d with httpTimeoutSecs := some v },
  longSlot "fetch_timeout_ms" Draft.fetchTimeoutMs fun v d => { d with fetchTimeoutMs := some v },
  longSlot "delivery_deadline_secs" Draft.deadlineSecs fun v d => { d with deadlineSecs := some v },
  numberSlot 0x10000000000000000 (Nat.le_refl _) "usize" "max_concurrent_per_host" Draft.slotsPerHost
    fun v d => { d with slotsPerHost := some v },
  numberSlot 0x100000000 (by decide) "u32" "circuit_failure_threshold" Draft.failureThreshold
    fun v d => { d with failureThreshold := some v },
  longSlot "circuit_cooldown_secs" Draft.cooldownSecs fun v d => { d with cooldownSecs := some v },
  ⟨List Nat, "backoff_ms", false, list long, IsSteps, accepts_list (accepts_natural (Nat.le_refl _) "u64"),
    Draft.backoffMs, fun v d => { d with backoffMs := some v }⟩,
  ⟨Bool, "bark_force_get", false, boolean, fun t b => t = .boolean b, accepts_boolean,
    Draft.forceGet, fun v d => { d with forceGet := some v }⟩]

theorem spans_slots : Slot.Spans slots where
  distinct := by decide
  get_put := by
    intro slot mem v d
    simp only [slots, List.mem_cons, List.not_mem_nil, or_false] at mem
    rcases mem with rfl | rfl | rfl | rfl | rfl | rfl | rfl | rfl <;> rfl
  get_put_other := by
    intro slot mem other otherMem ne v d
    simp only [slots, List.mem_cons, List.not_mem_nil, or_false] at mem otherMem
    rcases mem with rfl | rfl | rfl | rfl | rfl | rfl | rfl | rfl <;>
      rcases otherMem with rfl | rfl | rfl | rfl | rfl | rfl | rfl | rfl <;> first | rfl | exact absurd rfl ne
  ext := by
    intro d e same
    simp only [slots, List.forall_mem_cons] at same
    obtain ⟨http, fetch, deadline, perHost, threshold, cooldown, backoff, force, -⟩ := same
    cases d
    cases e
    congr

theorem filled_iff {ms : List (Option (List Char) × Tree)} {d : Draft} : Slot.Filled slots ms d ↔ Told ms d := by
  constructor
  · rintro ⟨legible, values, -⟩
    simp only [slots, List.forall_mem_cons] at values
    obtain ⟨http, fetch, deadline, perHost, threshold, cooldown, backoff, force, -⟩ := values
    exact ⟨legible, http, fetch, deadline, perHost, threshold, cooldown, backoff, force⟩
  · rintro ⟨legible, http, fetch, deadline, perHost, threshold, cooldown, backoff, force⟩
    refine ⟨legible, ?_, ?_⟩
    · simp only [slots, List.forall_mem_cons]
      exact ⟨http, fetch, deadline, perHost, threshold, cooldown, backoff, force, nofun⟩
    · simp only [slots, List.forall_mem_cons]
      exact ⟨nofun, nofun, nofun, nofun, nofun, nofun, nofun, nofun, nofun⟩

def names : List String := ["http_timeout_secs", "fetch_timeout_ms", "delivery_deadline_secs",
  "max_concurrent_per_host", "circuit_failure_threshold", "circuit_cooldown_secs", "backoff_ms", "bark_force_get"]

theorem accepts_draft : Accepts (record shape) fun t d => ∃ ms, Spells names t ms ∧ Told ms d := by
  have blank : ∀ slot ∈ slots, slot.get shape.blank = none := by
    simp only [slots, List.forall_mem_cons, List.not_mem_nil, false_implies, implies_true, and_true]
    exact ⟨rfl, rfl, rfl, rfl, rfl, rfl, rfl, rfl⟩
  intro s d r
  rw [spans_slots.accepts_record rfl blank s d r]
  simp only [filled_iff]
  rfl

/-- A file with the text of a record that tells these settings. -/
def Provides (file : Option (List UInt8)) (d : Draft) : Prop :=
  ∃ text t ms, file = some (Utf8.encode text) ∧ IsText t text ∧ Spells names t ms ∧ Told ms d

/-- What a file contributes: what it provides, or nothing if there is no such file. -/
inductive Contributes (file : Option (List UInt8)) : Draft → Prop
  | provided {d : Draft} : Provides file d → Contributes file d
  | nothing : (∀ d, ¬ Provides file d) → Contributes file {}

variable {file : Option (List UInt8)} {d : Draft} {c : Config} {env other : Env}

theorem fromSource_eq_ok_iff : fromSource (.ofBytes file) = .ok c ↔ ∃ d, Provides file d ∧ d.config = c := by
  have accepts := accepts_map accepts_draft Draft.config
  simp only [fromSource, Source.read_eq_ok_iff, Source.ofBytes_eq_text_iff, parse, reader, whole_eq_ok_iff accepts]
  constructor
  · rintro ⟨text, is, t, value, d, ⟨ms, spells, told⟩, made⟩
    exact ⟨d, ⟨text, t, ms, is, value, spells, told⟩, made⟩
  · rintro ⟨d, ⟨text, t, ms, is, value, spells, told⟩, made⟩
    exact ⟨text, is, t, value, d, ⟨ms, spells, told⟩, made⟩

theorem Contributes.auto_eq (contributes : Contributes file d) (env : Env) :
    auto (.ofBytes file) env = d.config.withEnv env := by
  cases contributes with
  | provided provides => rw [auto, fromSource_eq_ok_iff.2 ⟨d, provides, rfl⟩]
  | nothing none_ =>
    rw [auto]
    cases read : fromSource (.ofBytes file) with
    | ok c =>
      obtain ⟨d, provides, -⟩ := fromSource_eq_ok_iff.1 read
      exact absurd provides (none_ d)
    | error fault => rfl

theorem exists_contributes (file : Option (List UInt8)) : ∃ d, Contributes file d := by
  by_cases there : ∃ d, Provides file d
  · exact there.imp fun _ => .provided
  · exact ⟨{}, .nothing (not_exists.1 there)⟩

/-! ### Variables -/

/-- A number of 64 bits between blanks: digits, and a plus sign if there is one. -/
def IsWord (value : String) (n : Nat) : Prop :=
  ∃ row, (trim value.toList = row ∨ trim value.toList = '+' :: row) ∧ IsNatural row ∧ valueOf row = n ∧
    n < 0x10000000000000000

/-- The word true between blanks, each letter small or large. -/
def IsTrue (value : String) : Prop :=
  List.Forall₂ (fun c letter => c = letter ∨ c = letter.toUpper) (trim value.toList) "true".toList

theorem wordOf_eq_some_iff {value : String} {n : Nat} : wordOf value = some n ↔ IsWord value n := by
  simp only [wordOf, unsigned?, IsWord, Option.bind_eq_some_iff, Option.ite_none_right_eq_some, Option.some.injEq]
  generalize trim value.toList = s
  constructor
  · rintro ⟨n, read, fits, rfl⟩
    obtain ⟨natural, value⟩ := natural?_eq_some_iff.1 read
    refine ⟨_, ?_, natural, value, fits⟩
    split
    · exact .inr rfl
    · exact .inl rfl
  · rintro ⟨row, rfl | rfl, natural, value, fits⟩
    · refine ⟨n, ?_, fits, rfl⟩
      split
      · exact absurd rfl natural.not_signed.2
      · exact natural?_eq_some_iff.2 ⟨natural, value⟩
    · exact ⟨n, natural?_eq_some_iff.2 ⟨natural, value⟩, fits, rfl⟩

theorem isTrue_iff {value : String} : isTrue value = true ↔ IsTrue value := by
  have letters : "true".toList = ['t', 'r', 'u', 'e'] := rfl
  have small : ∀ letter ∈ "true".toList, 97 ≤ letter.toNat ∧ letter.toNat ≤ 122 := by
    simp only [letters, List.forall_mem_cons]
    exact ⟨by decide, by decide, by decide, by decide, nofun⟩
  rw [isTrue, decide_eq_true_iff, lower_eq_iff small, IsTrue]

inductive Overrides {α : Type} (usable : String → α → Prop) (below : α) : Option String → α → Prop
  | unset : Overrides usable below none below
  | usable {value : String} {x : α} : usable value x → Overrides usable below (some value) x
  | unusable {value : String} : (∀ x, ¬ usable value x) → Overrides usable below (some value) below

/-- The settings that follow from what the file contributes and from the variables. -/
structure Layered (d : Draft) (env : Env) (c : Config) : Prop where
  httpTimeoutSecs : Overrides IsWord (d.httpTimeoutSecs.getD 10) (env "MEMO_NOTIFIER_HTTP_TIMEOUT_SECS")
    c.httpTimeoutSecs
  slotsPerHost : Overrides (fun value n => IsWord value n ∧ 0 < n) (d.slotsPerHost.getD 2)
    (env "MEMO_NOTIFIER_MAX_PER_HOST") c.slotsPerHost
  forceGet : Overrides (fun value b => b = true ↔ IsTrue value) (d.forceGet.getD false) (env "MEMOS_BARK_FORCE_GET")
    c.forceGet
  fetchTimeoutMs : c.fetchTimeoutMs = d.fetchTimeoutMs.getD 2000
  deadlineSecs : c.deadlineSecs = d.deadlineSecs.getD 30
  failureThreshold : c.failureThreshold = d.failureThreshold.getD 3
  cooldownSecs : c.cooldownSecs = d.cooldownSecs.getD 60
  backoffMs : c.backoffMs = d.backoffMs.getD [500, 1000, 2000]

section

variable {α : Type} {usable : String → α → Prop} {below : α} {read : String → Option α}

theorem overrides_bind (exact : ∀ value x, read value = some x ↔ usable value x) (variable_ : Option String) :
    Overrides usable below variable_ ((variable_.bind read).getD below) := by
  cases variable_ with
  | none => exact .unset
  | some value =>
    cases found : read value with
    | none =>
      rw [Option.bind_some, found]
      exact .unusable fun x is => by rw [(exact value x).2 is] at found; cases found
    | some x =>
      rw [Option.bind_some, found]
      exact .usable ((exact value x).1 found)

end

theorem layered_withEnv (d : Draft) (env : Env) : Layered d env (d.config.withEnv env) := by
  refine ⟨?_, ?_, ?_, rfl, rfl, rfl, rfl, rfl⟩
  · exact overrides_bind (fun _ _ => wordOf_eq_some_iff) _
  · have exact_ (value : String) (n : Nat) : (wordOf value).filter (0 < ·) = some n ↔ IsWord value n ∧ 0 < n := by
      rw [Option.filter_eq_some_iff, wordOf_eq_some_iff, decide_eq_true_iff]
    have same : ((env slotsVariable).bind wordOf).filter (0 < ·) =
        (env slotsVariable).bind fun value => (wordOf value).filter (0 < ·) := by
      cases env slotsVariable <;> rfl
    rw [Config.withEnv, same]
    exact overrides_bind exact_ _
  · have exact_ (value : String) (b : Bool) : some (isTrue value) = some b ↔ (b = true ↔ IsTrue value) := by
      rw [Option.some.injEq, ← isTrue_iff, eq_comm, Bool.eq_iff_iff]
    rw [Config.withEnv, Option.map_eq_bind]
    exact overrides_bind exact_ _

/-- Settings for two environments: a field changes only if its own variable does. -/
structure Separate (env other : Env) (c d : Config) : Prop where
  httpTimeoutSecs : other "MEMO_NOTIFIER_HTTP_TIMEOUT_SECS" = env "MEMO_NOTIFIER_HTTP_TIMEOUT_SECS" →
    d.httpTimeoutSecs = c.httpTimeoutSecs
  slotsPerHost : other "MEMO_NOTIFIER_MAX_PER_HOST" = env "MEMO_NOTIFIER_MAX_PER_HOST" →
    d.slotsPerHost = c.slotsPerHost
  forceGet : other "MEMOS_BARK_FORCE_GET" = env "MEMOS_BARK_FORCE_GET" → d.forceGet = c.forceGet
  fetchTimeoutMs : d.fetchTimeoutMs = c.fetchTimeoutMs
  deadlineSecs : d.deadlineSecs = c.deadlineSecs
  failureThreshold : d.failureThreshold = c.failureThreshold
  cooldownSecs : d.cooldownSecs = c.cooldownSecs
  backoffMs : d.backoffMs = c.backoffMs

theorem separate_withEnv (c : Config) (env other : Env) : Separate env other (c.withEnv env) (c.withEnv other) := by
  refine ⟨fun same => ?_, fun same => ?_, fun same => ?_, rfl, rfl, rfl, rfl, rfl⟩
  · simp only [Config.withEnv, timeoutVariable, same]
  · simp only [Config.withEnv, slotsVariable, same]
  · simp only [Config.withEnv, forceGetVariable, same]

theorem withEnv_withEnv (c : Config) (env : Env) : (c.withEnv env).withEnv env = c.withEnv env := by
  have again {α : Type} (x : Option α) (below : α) : x.getD (x.getD below) = x.getD below := by cases x <;> rfl
  simp only [Config.withEnv, again]

/-- The layers of the settings override each other field by field. -/
theorem layers_override (file : Option (List UInt8)) (env : Env) :
    (∃ d, Contributes file d) ∧
      (∀ d, Contributes file d → Layered d env (auto (.ofBytes file) env)) ∧
      (∀ other, Separate env other (auto (.ofBytes file) env) (auto (.ofBytes file) other)) ∧
      ∀ c : Config, (c.withEnv env).withEnv env = c.withEnv env := by
  obtain ⟨d, contributes⟩ := exists_contributes file
  refine ⟨⟨d, contributes⟩, fun d contributes => ?_, fun other => ?_, fun c => withEnv_withEnv c env⟩
  · rw [contributes.auto_eq env]
    exact layered_withEnv d env
  · rw [contributes.auto_eq env, contributes.auto_eq other]
    exact separate_withEnv _ env other

/-- A file with two fields, and a variable of each kind; a count of zero cannot be used. -/
theorem layers_override_of_partial_file :
    let text := "\x7b\x22max_concurrent_per_host\x22:5,\x22fetch_timeout_ms\x22:7\x7d".toList
    let d : Draft := { fetchTimeoutMs := some 7, slotsPerHost := some 5 }
    let env : Env := fun name =>
      if name = "MEMO_NOTIFIER_HTTP_TIMEOUT_SECS" then some " +30 "
      else if name = "MEMO_NOTIFIER_MAX_PER_HOST" then some "0"
      else if name = "MEMOS_BARK_FORCE_GET" then some "TRUE\n"
      else none
    Contributes (some (Utf8.encode text)) d ∧ Layered d env (auto (.ofBytes (some (Utf8.encode text))) env) ∧
      auto (.ofBytes (some (Utf8.encode text))) env =
        { httpTimeoutSecs := 30, fetchTimeoutMs := 7, slotsPerHost := 5, forceGet := true } := by
  intro text d env
  have read : whole (record shape) text = .ok d := by rfl
  obtain ⟨t, is, ms, spells, told⟩ := (whole_eq_ok_iff accepts_draft).1 read
  have contributes : Contributes (some (Utf8.encode text)) d := .provided ⟨text, t, ms, rfl, is, spells, told⟩
  refine ⟨contributes, (layers_override _ env).2.1 d contributes, ?_⟩
  rw [contributes.auto_eq]
  decide +kernel

end Herald.Config
