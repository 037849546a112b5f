import Herald.Proofs.Slots.Delivery

/-! How a delivery ends, as far as its own settings decide that: without pools or with a deadline out of
reach it crashes, whatever else is the case; then a refusal counts, and only then the breaker and the run. -/
namespace Herald.Delivery

/-- What decides the end of a delivery, in the order in which it counts. -/
inductive Fate (d : Delivery) (rule : Breaker.Rule) (hasPools : Bool) : Ending → Prop
  | noSlots : d.job.needsSlot = true → hasPools = false → Fate d rule hasPools (.crashed .slots)
  | late : (d.job.needsSlot = true → hasPools = true) →
    Breaker.endOfTime ≤ d.begun + d.job.timeout → Fate d rule hasPools (.crashed .time)
  | refused {failure : Failure} : (d.job.needsSlot = true → hasPools = true) →
    d.begun + d.job.timeout < Breaker.endOfTime → d.job.refusal = some failure →
    Fate d rule hasPools (.refused failure)
  | rejected : (d.job.needsSlot = true → hasPools = true) →
    d.begun + d.job.timeout < Breaker.endOfTime → d.job.refusal = none →
    Fate d rule hasPools (.reported (.rejected d.job.host))
  | ran : (d.job.needsSlot = true → hasPools = true) →
    d.begun + d.job.timeout < Breaker.endOfTime → d.job.refusal = none →
    Fate d rule hasPools d.job.ending
  | unrecorded : (d.job.needsSlot = true → hasPools = true) →
    d.begun + d.job.timeout < Breaker.endOfTime → d.job.refusal = none →
    Breaker.endOfTime ≤ d.ended + rule.cooldown → Fate d rule hasPools (.crashed .time)

structure OnCourse (d : Delivery) (rule : Breaker.Rule) (hasPools : Bool) : Prop where
  queued : d.stage = .queued → d.job.needsSlot = true → hasPools = true
  running : ∀ {due steps}, d.stage = .running due steps →
    (d.job.needsSlot = true → hasPools = true) ∧
      d.begun + d.job.timeout < Breaker.endOfTime ∧ d.job.refusal = none
  ended : ∀ {ending}, d.stage = .over ending → d.Fate rule hasPools ending

variable {d : Delivery} {rule : Breaker.Rule} {hasPools : Bool} {now : Nat} {host : HostState}

theorem onCourse_of_arriving (arriving : d.stage = .arriving) : d.OnCourse rule hasPools :=
  ⟨by simp [arriving], by simp [arriving], by simp [arriving]⟩

theorem onCourse_of_over {ending : Ending} (finished : d.stage = .over ending)
    (fate : d.Fate rule hasPools ending) : d.OnCourse rule hasPools := by
  refine ⟨by simp [finished], by simp [finished], fun {other} same => ?_⟩
  obtain rfl : ending = other := by simpa [finished] using same
  exact fate

theorem onCourse_goOn (pools : d.job.needsSlot = true → hasPools = true)
    (inTime : d.begun + d.job.timeout < Breaker.endOfTime) (unrefused : d.job.refusal = none)
    (steps : List Step) : (d.goOn rule now host steps).delivery.OnCourse rule hasPools := by
  rcases d.goOn_cases rule now host steps with ⟨ms, rest, -, becomes, -⟩ |
    ⟨ending, breaker, ends, becomes, -⟩
  · rw [becomes]
    exact ⟨by simp, fun _ => ⟨pools, inTime, unrefused⟩, by simp⟩
  · rw [becomes]
    refine onCourse_of_over rfl ?_
    rcases ends with rfl | ⟨rfl, late⟩
    · exact .ran pools inTime unrefused
    · exact .unrecorded pools inTime unrefused late

theorem onCourse_commence (pools : d.job.needsSlot = true → hasPools = true) :
    (d.commence rule now host).delivery.OnCourse rule hasPools := by
  simp only [commence]
  split
  · next late => exact onCourse_of_over rfl (.late pools late)
  · next early =>
    have inTime : now + d.job.timeout < Breaker.endOfTime := Nat.lt_of_not_le early
    split
    · next failure refused => exact onCourse_of_over rfl (.refused pools inTime refused)
    · next unrefused =>
      split
      · exact onCourse_of_over rfl (.rejected pools inTime unrefused)
      · exact onCourse_goOn (d := { d with begun := now }) pools inTime unrefused _

theorem Fate.of_reported {ending : Ending} {report : DeliveryReport}
    (fate : d.Fate rule hasPools ending) (reported : ending = .reported report) :
    (d.job.needsSlot = true → hasPools = true) ∧
      d.begun + d.job.timeout < Breaker.endOfTime ∧ d.job.refusal = none := by
  cases fate with
  | noSlots => cases reported
  | late => cases reported
  | refused => cases reported
  | rejected pools inTime unrefused => exact ⟨pools, inTime, unrefused⟩
  | ran pools inTime unrefused => exact ⟨pools, inTime, unrefused⟩
  | unrecorded => cases reported

/-- Every turn keeps a delivery on its course. -/
theorem OnCourse.turn (onCourse : d.OnCourse rule hasPools) (now : Nat) (host : HostState) :
    (d.turn rule hasPools now host).delivery.OnCourse rule hasPools := by
  cases stage : d.stage with
  | arriving =>
    simp only [Delivery.turn, stage, arrive]
    split
    · next free =>
      refine onCourse_commence fun needs => ?_
      have needs : d.job.needsSlot = true := needs
      simp [needs] at free
    · next needs =>
      split
      · next none_ =>
        have needs : d.job.needsSlot = true := by simpa using needs
        exact onCourse_of_over rfl (.noSlots needs (by simpa using none_))
      · next pools =>
        have pools : hasPools = true := by simpa using pools
        split
        · exact onCourse_commence fun _ => pools
        · exact ⟨fun _ _ => pools, by simp, by simp⟩
  | queued =>
    simp only [Delivery.turn, stage]
    split
    · exact onCourse_commence (onCourse.queued stage)
    · exact onCourse
  | running due steps =>
    obtain ⟨pools, inTime, unrefused⟩ := onCourse.running stage
    simp only [Delivery.turn, stage]
    exact onCourse_goOn pools inTime unrefused steps
  | _ =>
    simp only [Delivery.turn, stage]
    exact onCourse

end Herald.Delivery
