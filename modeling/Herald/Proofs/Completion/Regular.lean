import Herald.Proofs.Completion.Attention
import Herald.Proofs.Completion.Fate
import Herald.Proofs.Interleaving.Slots
import Herald.Proofs.Isolation.Hosts
import Herald.Proofs.Slots.Reached

/-! Floors on which the first turn always comes first. On these every delivery comes to an end, and the log
tells of each end once. -/
namespace Herald

def Happening.ending? : Happening → Option Ending
  | .over ending => some ending
  | _ => none

namespace Delivery

variable {d : Delivery} {rule : Breaker.Rule} {hasPools : Bool} {now : Nat} {host : HostState}
  {p : Progress}

theorem endings_of_accessed (accessed : d.Accessed rule hasPools now host p) :
    d.ending?.toList ++ p.seen.filterMap Happening.ending? = p.delivery.ending?.toList := by
  have early (before : d.stage = .arriving ∨ d.isGranted host.pool = true) : d.ending? = none := by
    rcases before with arriving | granted
    · rw [ending?, arriving]
    · rw [ending?, (isGranted_iff.1 granted).1]
  cases accessed with
  | idles => simp
  | asks arriving => rw [early (.inl arriving)]; rfl
  | barred before => rw [early before]; rfl
  | rejected enters => rw [early (enters.imp_left And.left)]; rfl
  | admitted enters => rw [early (enters.imp_left And.left)]; rfl
  | rests running => rw [ending?, running]; rfl
  | @acts _ deed _ _ recorded running =>
    have silent : (deed.seen recorded).filterMap Happening.ending? = [] := by
      rcases recorded with _ | _ | _ | _ <;> rfl
    rw [ending?, running, silent]
    rfl
  | crashes running => rw [ending?, running]; rfl
  | ends running => rw [ending?, running]; rfl

end Delivery

namespace Floor

variable {f later : Floor} {turn : Turn} {place : Nat} {d : Delivery} {guests : Nat}

def endings (f : Floor) (place : Nat) : List Ending :=
  (f.history place).filterMap fun h => h.2.ending?

theorem history_self {now : Nat} {seen : List Happening}
    (log : later.log = (seen.map (Entry.mk now place)).reverse ++ f.log) :
    later.history place = f.history place ++ seen.map (Prod.mk now) := by
  rw [history, entries_self log, List.map_append, List.map_map]
  rfl

theorem history_other {now other : Nat} {seen : List Happening} (ne : other ≠ place)
    (log : later.log = (seen.map (Entry.mk now other)).reverse ++ f.log) :
    later.history place = f.history place := by
  rw [history, entries_other ne log, history]

def Told (f : Floor) : Prop :=
  ∀ place, f.endings place = ((f.deliveries[place]?).bind Delivery.ending?).toList

theorem told_start (r : Registry) (fairness : Fairness) (now : Nat) :
    Told { registry := r, fairness := fairness, now := now } := fun _ => rfl

theorem Told.add (told : Told f) (job : Job) : Told (f.add job) := by
  intro place
  have same : (f.add job).endings place = f.endings place := rfl
  rw [same, told, getElem?_add]
  split
  · next last => rw [last, List.getElem?_eq_none (Nat.le_refl _)]; rfl
  · rfl

theorem Told.move (told : Told f) (m : Move) : Told (f.move m) := by
  cases m with
  | add job => exact told.add job
  | pass time => exact told
  | touch time place =>
    intro other
    cases there : f.deliveries[place]? with
    | none =>
      rw [Floor.move, touch_of_none there]
      exact told other
    | some d =>
      obtain ⟨p, touched⟩ := touched time there
      by_cases own : place = other
      · subst own
        have before : f.endings place = d.ending?.toList := by rw [told, there, Option.bind_some]
        rw [Floor.move, touched.here, Option.bind_some,
          ← Delivery.endings_of_accessed touched.accessed, ← before, endings, history_self touched.log,
          List.filterMap_append, List.filterMap_map]
        rfl
      · rw [Floor.move, touched.elsewhere own, endings, history_other own touched.log]
        exact told other

theorem Told.moves (told : Told f) (ms : List Move) : Told (f.moves ms) := by
  induction ms generalizing f with
  | nil => exact told
  | cons m ms ih => exact ih (told.move m)

theorem Told.take (told : Told f) (turn : Turn) (place : Nat) : Told (f.take turn place) := by
  intro other
  obtain ⟨n, matches_⟩ := matches_take f turn place
  have same := told.moves (List.replicate (n + 1) (.touch turn.due place)) other
  rwa [endings, history, ← matches_.log, ← matches_.deliveries] at same

theorem Traced.of_matches (traced : f.Traced) (matches_ : later.Matches f) : later.Traced := by
  have trace (place : Nat) : later.trace place = f.trace place := by
    rw [Floor.trace, Floor.trace, matches_.log]
  constructor
  · intro place d there
    rw [trace, matches_.registry]
    exact traced.here (matches_.deliveries ▸ there)
  · intro place absent
    rw [trace]
    exact traced.nowhere (matches_.deliveries ▸ absent)

theorem Traced.take (traced : f.Traced) (turn : Turn) (place : Nat) : (f.take turn place).Traced := by
  obtain ⟨n, matches_⟩ := matches_take f turn place
  exact (traced.moves _).of_matches matches_

/-- The floors that deliveries lead to while the first turn always comes first and nobody else asks for a
slot. Meanwhile time may pass until the next turn, and anything may be done to breakers. -/
inductive Regular : Floor → Prop
  | start {r : Registry} : (∀ key, (r.host key).pool = .ofSize r.slots) →
    ∀ (fairness : Fairness) (now : Nat), Regular { registry := r, fairness := fairness, now := now }
  | add {f : Floor} (job : Job) : Regular f → Regular (f.add job)
  | take {f : Floor} {turn : Turn} {place : Nat} : first? f.agenda = some (turn, place) →
    Regular f → Regular (f.take turn place)
  | pass {f : Floor} {time : Nat} : (∀ e ∈ f.agenda, time ≤ e.1.due) →
    Regular f → Regular { f with now := max f.now time }
  | tell {f : Floor} (key : String) (breaker : Breaker) : Regular f → Regular (f.tell key breaker)

structure Sound (f : Floor) : Prop where
  kept : Kept f.registry.slots [] f
  planned : Planned 0 f
  attended : Attended f
  told : Told f
  traced : f.Traced
  onCourse : ∀ d ∈ f.deliveries, d.OnCourse f.registry.rule f.registry.hasPools

theorem rule_take (f : Floor) (turn : Turn) (place : Nat) :
    (f.take turn place).registry.rule = f.registry.rule ∧
      (f.take turn place).registry.slots = f.registry.slots := by
  cases there : f.deliveries[place]? with
  | none => simp [take, there]
  | some d =>
    have registry : (f.take turn place).registry =
        f.registry.setHost d.job.host (f.progress turn d).host := by
      rw [take_eq_steps there, registry_wake]
      exact registry_work f turn place d
    rw [registry]
    exact ⟨rfl, rfl⟩

theorem Regular.sound (regular : Regular f) : Sound f := by
  induction regular with
  | start idle fairness now =>
    exact ⟨kept_idle idle fairness now, planned_start _ fairness now 0, attended_start _ fairness now,
      told_start _ fairness now, traced_start _ fairness now, by simp⟩
  | add job _ ih =>
    refine ⟨ih.kept.add job, ih.planned.add job, ih.attended.add job, ih.told.add job,
      ih.traced.move (.add job), fun d mem => ?_⟩
    rcases List.mem_append.1 mem with old | new
    · exact ih.onCourse d old
    · exact List.mem_singleton.1 new ▸ Delivery.onCourse_of_arriving rfl
  | take first _ ih =>
    obtain ⟨d, there, -⟩ := ih.planned.ready _ (mem_of_first? first)
    refine ⟨?_, ih.planned.take first, ih.attended.take ih.planned first, ih.told.take _ _,
      ih.traced.take _ _, fun o mem => ?_⟩
    · rw [(rule_take _ _ _).2]
      exact ih.kept.take _ _
    · obtain ⟨rule, slots⟩ := rule_take _ _ _
      rw [rule, Registry.hasPools, slots]
      rw [deliveries_take _ there] at mem
      rcases List.mem_or_eq_of_mem_set mem with old | rfl
      · exact ih.onCourse o old
      · exact (ih.onCourse d (List.mem_of_getElem? there)).turn _ _
  | @pass f time ahead _ ih =>
    exact ⟨ih.kept.congr (fun _ => rfl) rfl rfl, ih.planned.congr (fun _ => rfl) rfl rfl rfl
      (fun e mem => Nat.max_le.2 ⟨ih.planned.ahead e mem, ahead e mem⟩),
      ih.attended.congr (fun _ => rfl) rfl rfl, ih.told, ih.traced.move (.pass time), ih.onCourse⟩
  | @tell f key breaker _ ih =>
    have pools := fun other => pool_tell f key other breaker
    exact ⟨ih.kept.congr pools rfl rfl, ih.planned.congr pools rfl rfl rfl ih.planned.ahead,
      ih.attended.congr pools rfl rfl, ih.told, ⟨ih.traced.here, ih.traced.nowhere⟩, ih.onCourse⟩

theorem Regular.playFor (regular : Regular f) (goOn : Floor → Turn → Bool) (turns : Nat) :
    Regular (playFor goOn turns f) :=
  playFor_induction goOn turns .take regular

theorem stops_playFor (planned : Planned guests f) (goOn : Floor → Turn → Bool) {turns : Nat}
    (enough : f.effort ≤ turns) {next : Turn}
    (first : first? (playFor goOn turns f).agenda = some (next, place)) :
    goOn (playFor goOn turns f) next = false := by
  induction turns generalizing f with
  | zero =>
    have less := effort_take_lt planned first
    omega
  | succ turns ih =>
    unfold Floor.playFor at first ⊢
    split at first
    · next idle => rw [idle] at first; cases first
    · next turn other before =>
      split at first
      · next may =>
        have less := effort_take_lt planned before
        simp only [may, if_true]
        exact ih (planned.take before) (by omega) first
      · next may =>
        rw [before] at first
        obtain ⟨rfl, rfl⟩ := Prod.mk.inj (Option.some.inj first)
        rw [if_neg may]
        simpa using may

theorem beyond_playFor (planned : Planned guests f) (time : Nat) {turns : Nat}
    (enough : f.effort ≤ turns) :
    ∀ e ∈ (playFor (fun _ turn => turn.due ≤ time) turns f).agenda, time < e.1.due := by
  intro e mem
  cases first : first? (playFor (fun _ turn => turn.due ≤ time) turns f).agenda with
  | none => simp [first?_eq_none.1 first] at mem
  | some next =>
    have stops := stops_playFor planned _ enough first
    have least := due_le_of_first? first e mem
    have beyond : ¬ next.1.due ≤ time := by simpa using stops
    omega

theorem Regular.passUntil (regular : Regular f) (time : Nat) : Regular (f.passUntil time) :=
  (regular.playFor _ _).pass fun e mem =>
    Nat.le_of_lt (beyond_playFor regular.sound.planned time (Nat.le_refl _) e mem)

theorem jobs_playFor (f : Floor) (goOn : Floor → Turn → Bool) (turns : Nat) :
    (playFor goOn turns f).jobs = f.jobs := by
  refine playFor_induction (P := fun g => g.jobs = f.jobs) goOn turns
    (fun {g turn place} _ same => ?_) rfl
  cases there : g.deliveries[place]? with
  | none => simpa [take, there, jobs] using same
  | some d => exact (jobs_take turn there).trans same

theorem jobs_passUntil (f : Floor) (time : Nat) : (f.passUntil time).jobs = f.jobs :=
  jobs_playFor f _ _

theorem passUntil_of_idle (idle : f.agenda = []) (time : Nat) :
    f.passUntil time = { f with now := max f.now time } := by
  have stays (goOn : Floor → Turn → Bool) (turns : Nat) : Floor.playFor goOn turns f = f := by
    cases turns with
    | zero => rfl
    | succ turns => simp [Floor.playFor, idle, first?]
  rw [passUntil, playWhile, stays]

/-- In whatever order the deliveries are touched, each keeps its place; the log tells of its end when it is
over and not again, and what it did fits a single run. -/
theorem Regular.interleaved (regular : Regular f) (ms : List Move) {job : Job}
    (at_ : f.jobs[place]? = some job) :
    ∃ d, (f.moves ms).deliveries[place]? = some d ∧ d.job = job ∧
      (f.moves ms).endings place = d.ending?.toList ∧
      d.Traced (f.moves ms).registry.hasPools (((f.moves ms).trace place).map Prod.snd) := by
  rw [Floor.jobs, List.getElem?_map, Option.map_eq_some_iff] at at_
  obtain ⟨d, there, job⟩ := at_
  obtain ⟨later, still, same⟩ := exists_of_moves there ms
  have told := regular.sound.told.moves ms place
  rw [still, Option.bind_some] at told
  exact ⟨later, still, same.trans job, told, (regular.sound.traced.moves ms).here still⟩

theorem Regular.all_over (regular : Regular f) :
    ∀ d ∈ (f.playWhile fun _ _ => true).deliveries, d.isOver = true := by
  have sound : Sound (f.playWhile fun _ _ => true) := (regular.playFor _ _).sound
  exact over_of_idle sound.kept sound.attended (plays_playWhile regular.sound.planned).agenda

/-- Played to the end, each delivery is over, and the log tells of that once. -/
theorem Regular.complete (regular : Regular f) :
    let last := f.playWhile fun _ _ => true
    last.jobs = f.jobs ∧ ∀ {place job}, f.jobs[place]? = some job →
      ∃ d ending, last.deliveries[place]? = some d ∧ d.job = job ∧ d.stage = .over ending ∧
        last.endings place = [ending] ∧
        d.Traced last.registry.hasPools ((last.trace place).map Prod.snd) := by
  intro last
  have jobs : last.jobs = f.jobs := jobs_playFor f _ _
  refine ⟨jobs, fun {place job} at_ => ?_⟩
  rw [← jobs] at at_
  obtain ⟨d, there, own, told, traced⟩ := (regular.playFor _ _).interleaved [] at_
  have there : last.deliveries[place]? = some d := there
  obtain ⟨ending, stage⟩ :=
    Delivery.exists_of_isOver (regular.all_over d (List.mem_of_getElem? there))
  rw [Delivery.ending?, stage] at told
  exact ⟨d, ending, there, own, stage, told, traced⟩

end Floor

end Herald
