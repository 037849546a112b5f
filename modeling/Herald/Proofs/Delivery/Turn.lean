import Herald.Delivery.Basic

/-! What a delivery does in a turn, whatever others have made of its host: it keeps its slot until it is
over and gives it back then. It is over after one turn for each wait of its run and one more. -/
namespace Herald

theorem Breaker.late_of_hear {rule : Rule} {now : Nat} {b later : Breaker}
    {result : Except Failure Unit} (h : b.hear rule now result = (later, some .overflowed)) :
    endOfTime ≤ now + rule.cooldown := by
  have overflowed : (recordFailure rule now b).2 = .overflowed := by
    unfold hear at h
    split at h
    · simp at h
    · split at h
      · simpa using congrArg Prod.snd h
      · simp at h
  unfold recordFailure at overflowed
  split at overflowed
  · cases overflowed
  · split at overflowed
    · cases overflowed
    · omega

namespace Step

@[simp] theorem waits_nil : waits [] = 0 := rfl

@[simp] theorem waits_wait (ms : Nat) (steps : List Step) :
    waits (.wait ms :: steps) = waits steps + 1 := by
  simp [waits]

@[simp] theorem waits_act (deed : Deed) (steps : List Step) :
    waits (.act deed :: steps) = waits steps := by
  simp [waits]

variable {rule : Breaker.Rule} {now : Nat} {b : Breaker} {steps : List Step}

theorem waits_of_perform {ms : Nat} {rest : List Step}
    (h : (perform rule now b steps).waits = some (ms, rest)) : waits steps = waits rest + 1 := by
  fun_induction perform rule now b steps with
  | case1 => cases h
  | case2 =>
    cases h
    exact waits_wait _ _
  | case3 => cases h
  | case4 _ _ _ _ _ _ ih =>
    rw [waits_act]
    exact ih h
  | case5 _ _ _ _ _ _ _ _ _ ih =>
    rw [waits_act]
    exact ih h
  | case6 _ _ _ _ ih =>
    rw [waits_act]
    exact ih h

theorem late_of_perform {crash : Crash} (h : (perform rule now b steps).crash = some crash) :
    crash = .time ∧ Breaker.endOfTime ≤ now + rule.cooldown := by
  fun_induction perform rule now b steps with
  | case1 => cases h
  | case2 => cases h
  | case3 _ _ _ _ _ overflowed =>
    cases h
    exact ⟨rfl, Breaker.late_of_hear overflowed⟩
  | case4 _ _ _ _ _ _ ih => exact ih h
  | case5 _ _ _ _ _ _ _ _ _ ih => exact ih h
  | case6 _ _ _ _ ih => exact ih h

end Step

namespace Delivery

def EndsWith (d : Delivery) (rule : Breaker.Rule) (now : Nat) (ending : Ending) : Prop :=
  ending = d.job.ending ∨ (ending = .crashed .time ∧ Breaker.endOfTime ≤ now + rule.cooldown)

theorem goOn_cases (d : Delivery) (rule : Breaker.Rule) (now : Nat) (host : HostState)
    (steps : List Step) :
    (∃ ms rest, Step.waits steps = Step.waits rest + 1 ∧
      (d.goOn rule now host steps).delivery = { d with stage := .running (now + ms) rest } ∧
      (d.goOn rule now host steps).host.pool = host.pool) ∨
    ∃ ending breaker, d.EndsWith rule now ending ∧
      (d.goOn rule now host steps).delivery =
        { d with stage := .over ending, ended := now, breaker := breaker } ∧
      (d.goOn rule now host steps).host.pool = host.pool.release d.ticket := by
  simp only [goOn]
  cases stops : (Step.perform rule now host.breaker steps).waits with
  | some next =>
    obtain ⟨ms, rest⟩ := next
    exact .inl ⟨ms, rest, Step.waits_of_perform stops, rfl, rfl⟩
  | none =>
    refine .inr ⟨_, _, ?_, rfl, rfl⟩
    cases crash : (Step.perform rule now host.breaker steps).crash with
    | none => exact .inl rfl
    | some crash =>
      obtain ⟨rfl, late⟩ := Step.late_of_perform crash
      exact .inr ⟨rfl, late⟩

/-- A delivery after some turns, each at a time and with what others have made of its host by then. -/
def after (d : Delivery) (rule : Breaker.Rule) (hasPools : Bool) (turns : List (Nat × HostState)) :
    Delivery :=
  turns.foldl (fun d t => (d.turn rule hasPools t.1 t.2).delivery) d

@[simp] theorem after_cons (d : Delivery) (rule : Breaker.Rule) (hasPools : Bool)
    (t : Nat × HostState) (turns : List (Nat × HostState)) :
    d.after rule hasPools (t :: turns) =
      (d.turn rule hasPools t.1 t.2).delivery.after rule hasPools turns := rfl

theorem after_of_over {d : Delivery} {ending : Ending} (stage : d.stage = .over ending)
    (rule : Breaker.Rule) (hasPools : Bool) (turns : List (Nat × HostState)) :
    d.after rule hasPools turns = d := by
  induction turns with
  | nil => rfl
  | cons t turns ih => rw [after_cons, turn, stage, ih]

theorem over_of_running {d : Delivery} {due : Nat} {steps : List Step}
    (running : d.stage = .running due steps) (rule : Breaker.Rule) (hasPools : Bool)
    (turns : List (Nat × HostState)) (enough : Step.waits steps < turns.length) :
    ∃ ending now, (d.after rule hasPools turns).stage = .over ending ∧
      now ∈ turns.map Prod.fst ∧ d.EndsWith rule now ending := by
  induction turns generalizing d due steps with
  | nil => simp at enough
  | cons t turns ih =>
    have goes : d.turn rule hasPools t.1 t.2 = d.goOn rule t.1 t.2 steps := by
      rw [turn, running]
    rw [after_cons, goes]
    rcases d.goOn_cases rule t.1 t.2 steps with ⟨ms, rest, waits, becomes, -⟩ |
        ⟨ending, breaker, ends, becomes, -⟩
    · rw [becomes]
      have fewer : Step.waits rest < turns.length := by
        simp only [List.length_cons] at enough
        omega
      obtain ⟨ending, now, stage, mem, ends⟩ :=
        ih (d := { d with stage := .running (t.1 + ms) rest }) rfl fewer
      exact ⟨ending, now, stage, List.mem_cons_of_mem _ mem, ends⟩
    · rw [becomes, after_of_over rfl]
      exact ⟨ending, t.1, rfl, List.mem_cons_self, ends⟩

structure Proceeds (d : Delivery) (pool : SlotPool) (p : Progress) : Prop where
  ticket : p.delivery.ticket = d.ticket
  job : p.delivery.job = d.job
  outcome : ((∃ due steps, p.delivery.stage = .running due steps) ∧ p.host.pool = pool) ∨
    ((∃ ending, p.delivery.stage = .over ending) ∧ p.host.pool = pool.release d.ticket)

theorem Proceeds.congr {d other : Delivery} {pool : SlotPool} {p : Progress}
    (proceeds : other.Proceeds pool p) (ticket : other.ticket = d.ticket)
    (job : other.job = d.job) : d.Proceeds pool p := by
  obtain ⟨sameTicket, sameJob, outcome⟩ := proceeds
  rw [ticket] at sameTicket outcome
  exact ⟨sameTicket, sameJob.trans job, outcome⟩

theorem proceeds_finish (d : Delivery) (now : Nat) (host : HostState) (ending : Ending) :
    d.Proceeds host.pool (d.finish now host ending) :=
  ⟨rfl, rfl, .inr ⟨⟨ending, rfl⟩, rfl⟩⟩

theorem proceeds_goOn (d : Delivery) (rule : Breaker.Rule) (now : Nat) (host : HostState)
    (steps : List Step) : d.Proceeds host.pool (d.goOn rule now host steps) := by
  rcases d.goOn_cases rule now host steps with ⟨ms, rest, -, becomes, pool⟩ |
    ⟨ending, breaker, -, becomes, pool⟩
  · exact ⟨by rw [becomes], by rw [becomes], .inl ⟨⟨_, _, by rw [becomes]⟩, pool⟩⟩
  · exact ⟨by rw [becomes], by rw [becomes], .inr ⟨⟨_, by rw [becomes]⟩, pool⟩⟩

theorem proceeds_commence (d : Delivery) (rule : Breaker.Rule) (now : Nat) (host : HostState) :
    d.Proceeds host.pool (d.commence rule now host) := by
  have begins : Proceeds { d with begun := now } host.pool (d.commence rule now host) := by
    simp only [commence]
    split
    · exact proceeds_finish _ now host _
    · split
      · exact proceeds_finish _ now host _
      · split
        · exact proceeds_finish _ now host _
        · exact proceeds_goOn _ rule now host _
  exact begins.congr rfl rfl

def total (weight : Delivery → Nat) (l : List Delivery) : Nat :=
  l.foldr (fun d rest => weight d + rest) 0

section

variable {weight : Delivery → Nat} {l : List Delivery} {place : Nat} {d : Delivery}

@[simp] theorem total_nil : total weight [] = 0 := rfl

@[simp] theorem total_cons : total weight (d :: l) = weight d + total weight l := rfl

theorem total_append (l other : List Delivery) :
    total weight (l ++ other) = total weight l + total weight other := by
  induction l with
  | nil => simp
  | cons d l ih =>
    simp only [List.cons_append, total_cons, ih]
    omega

theorem total_set (there : l[place]? = some d) (next : Delivery) :
    total weight (l.set place next) + weight d = total weight l + weight next := by
  induction l generalizing place with
  | nil => simp at there
  | cons e l ih =>
    cases place with
    | zero =>
      obtain rfl : e = d := by simpa using there
      simp only [List.set_cons_zero, total_cons]
      omega
    | succ place =>
      have := ih (by simpa using there)
      simp only [List.set_cons_succ, total_cons]
      omega

variable {most : Nat} {counts : Delivery → Bool}

theorem total_le (le : ∀ d ∈ l, weight d ≤ if counts d then most else 0) :
    total weight l ≤ l.countP counts * most := by
  induction l with
  | nil => simp
  | cons e l ih =>
    have head := le e List.mem_cons_self
    have tail := ih fun d mem => le d (List.mem_cons_of_mem _ mem)
    rw [total_cons, List.countP_cons, Nat.add_mul]
    split at head
    · next counted => simp only [counted, if_true]; omega
    · omega

theorem total_lt (le : ∀ d ∈ l, weight d ≤ if counts d then most else 0)
    (there : l[place]? = some d) (counted : counts d = true) (less : weight d < most) :
    total weight l < l.countP counts * most := by
  induction l generalizing place with
  | nil => simp at there
  | cons e l ih =>
    have head := le e List.mem_cons_self
    have tail : ∀ d ∈ l, weight d ≤ if counts d then most else 0 :=
      fun d mem => le d (List.mem_cons_of_mem _ mem)
    rw [total_cons, List.countP_cons, Nat.add_mul]
    cases place with
    | zero =>
      obtain rfl : e = d := by simpa using there
      have rest := total_le tail
      simp only [counted, if_true]
      omega
    | succ place =>
      have rest := ih tail (by simpa using there)
      split at head
      · next also => simp only [also, if_true]; omega
      · omega

end

end Delivery

end Herald
