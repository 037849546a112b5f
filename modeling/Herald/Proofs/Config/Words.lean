import Herald.Config
import Herald.Proofs.Json.Gives

/-! Every accepted configuration is made of machine words, whichever file and variables it comes from. -/
namespace Herald.Config

open Herald.Json Herald.Text

/-- The fields of a configuration fit into words of 64 bits, and the threshold into one of 32. -/
structure InWords (c : Config) : Prop where
  httpTimeoutSecs : c.httpTimeoutSecs < 0x10000000000000000
  fetchTimeoutMs : c.fetchTimeoutMs < 0x10000000000000000
  deadlineSecs : c.deadlineSecs < 0x10000000000000000
  slotsPerHost : c.slotsPerHost < 0x10000000000000000
  failureThreshold : c.failureThreshold < 0x100000000
  cooldownSecs : c.cooldownSecs < 0x10000000000000000
  backoffMs : ∀ ms ∈ c.backoffMs, ms < 0x10000000000000000

theorem inWords_default : InWords {} := by
  refine ⟨by decide, by decide, by decide, by decide, by decide, by decide, by decide⟩

theorem keeps_of_mem_fields : ∀ f ∈ shape.fields, f.Keeps fun d => d.config.InWords := by
  have long : Gives (· < 0x10000000000000000) long := gives_natural _ _
  have size : Gives (· < 0x10000000000000000) size := gives_natural _ _
  have short : Gives (· < 0x100000000) short := gives_natural _ _
  have flag : Gives (fun _ => True) boolean := fun _ _ _ _ => trivial
  intro f mem
  simp only [shape, List.mem_cons, List.not_mem_nil, or_false] at mem
  rcases mem with rfl | rfl | rfl | rfl | rfl | rfl | rfl | rfl
  · exact Field.keeps_of long fun v d word fits => { fits with httpTimeoutSecs := word }
  · exact Field.keeps_of long fun v d word fits => { fits with fetchTimeoutMs := word }
  · exact Field.keeps_of long fun v d word fits => { fits with deadlineSecs := word }
  · exact Field.keeps_of size fun v d word fits => { fits with slotsPerHost := word }
  · exact Field.keeps_of short fun v d word fits => { fits with failureThreshold := word }
  · exact Field.keeps_of long fun v d word fits => { fits with cooldownSecs := word }
  · exact Field.keeps_of (gives_list long) fun v d words fits => { fits with backoffMs := words }
  · exact Field.keeps_of flag fun v d _ fits => { fits with }

theorem inWords_of_fromSource {source : Source} {c : Config} (accepted : fromSource source = .ok c) :
    c.InWords := by
  have gives : Gives InWords reader :=
    gives_map (gives_record inWords_default keeps_of_mem_fields) fun _ => id
  cases source with
  | text content =>
    cases parsed : parse content with
    | error fault =>
      rw [fromSource, Source.read, parsed] at accepted
      cases accepted
    | ok value =>
      rw [fromSource, Source.read, parsed] at accepted
      exact Except.ok.inj accepted ▸ of_whole gives parsed
  | _ => cases accepted

theorem lt_of_wordOf {value : String} {n : Nat} (read : wordOf value = some n) :
    n < 0x10000000000000000 := by
  unfold wordOf unsigned? at read
  obtain ⟨m, -, checked⟩ := Option.bind_eq_some_iff.1 read
  split at checked
  · next small => exact Option.some.inj checked ▸ small
  · cases checked

theorem InWords.withEnv {c : Config} (inWords : c.InWords) (env : Env) : (c.withEnv env).InWords := by
  refine { inWords with httpTimeoutSecs := ?_, slotsPerHost := ?_ }
  · cases read : (env timeoutVariable).bind wordOf with
    | none => simpa [Config.withEnv, read] using inWords.httpTimeoutSecs
    | some n =>
      obtain ⟨value, -, word⟩ := Option.bind_eq_some_iff.1 read
      simpa [Config.withEnv, read] using lt_of_wordOf word
  · cases read : ((env slotsVariable).bind wordOf).filter (0 < ·) with
    | none => simpa [Config.withEnv, read] using inWords.slotsPerHost
    | some n =>
      obtain ⟨value, -, word⟩ := Option.bind_eq_some_iff.1 (Option.filter_eq_some_iff.1 read).1
      simpa [Config.withEnv, read] using lt_of_wordOf word

end Herald.Config
