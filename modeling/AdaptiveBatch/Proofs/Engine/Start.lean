import AdaptiveBatch.Proofs.Config.Check
import AdaptiveBatch.Proofs.Engine.Race

/-!
# Where an engine starts

An engine starts from settings that pass the check, knows nothing before its seed
probe, and takes in the answer of that probe as it takes in any other.
-/

namespace AdaptiveBatch

/-! ## Replies to a probe -/

namespace ProbeReply

variable {ν : Type} [Number ν]

/-- The answer, if it came in time and is finite and not negative. -/
def cost? : ProbeReply ν → Option ν
  | .answer v =>
    if Number.isFinite v = true ∧ Number.less v (Number.ofCount 0) = false then some v else none
  | .fault _ | .late => none

/-- What is wrong with the reply of this sink under this limit, if anything is. -/
def error? (sink : String) (limit : Option UInt64) : ProbeReply ν → Option (EngineError ν)
  | .answer v =>
    if Number.isFinite v = true ∧ Number.less v (Number.ofCount 0) = false then none
    else some (.invalidProbe sink v)
  | .fault f => some (.sink f)
  | .late => some (.probeTimeout sink (limit.getD 0))

theorem cost?_of_error? {reply : ProbeReply ν} {sink : String} {limit : Option UInt64}
    {error : EngineError ν} (h : reply.error? sink limit = some error) : reply.cost? = none := by
  cases reply with
  | answer v =>
    rw [error?] at h
    rw [cost?]
    split at h
    · cases h
    · rename_i bad
      exact if_neg bad
  | fault | late => rfl

theorem error?_of_cost? {reply : ProbeReply ν} {sink : String} {limit : Option UInt64} {v : ν}
    (h : reply.cost? = some v) : reply.error? sink limit = none := by
  cases herror : reply.error? sink limit with
  | none => rfl
  | some error =>
    rw [cost?_of_error? herror] at h
    cases h

end ProbeReply

namespace Engine

variable {α ν : Type} [Number ν]

theorem isCost_iff {v : ν} :
    Number.isCost v = true ↔
      Number.isFinite v = true ∧ Number.less v (Number.ofCount 0) = false := by
  simp [Number.isCost]

theorem judgeProbe_ok {sink : String} {limit : Option UInt64} {reply : ProbeReply ν} {v : ν} :
    judgeProbe sink limit reply = .ok v ↔ reply.cost? = some v := by
  cases reply with
  | answer w =>
    simp only [judgeProbe, ProbeReply.cost?, ← isCost_iff]
    split <;> simp
  | fault | late => simp [judgeProbe, ProbeReply.cost?]

theorem judgeProbe_error {sink : String} {limit : Option UInt64} {reply : ProbeReply ν}
    {error : EngineError ν} :
    judgeProbe sink limit reply = .error error ↔ reply.error? sink limit = some error := by
  cases reply with
  | answer w =>
    simp only [judgeProbe, ProbeReply.error?, ← isCost_iff]
    split <;> simp
  | fault | late => simp [judgeProbe, ProbeReply.error?]

/-! ## Before the seed probe -/

/-- An engine that has only called for its seed probe. -/
structure Blank (settings : Settings ν) (s : State α ν) : Prop where
  checked : settings.check = .ok ()
  same : s.settings = settings
  model : s.model = .initial settings.packingThreshold
  counters : s.counters = {}
  recorder : s.recorder = {}
  log : ∃ now, s.log = [(now, .called .starter .probe)]

theorem blank_of_build {settings : Settings ν} {sink : String} {now : Nat} {s : State α ν}
    (h : State.build settings sink now = .ok s) : Blank settings s := by
  rw [State.build] at h
  split at h
  · cases h
  · rename_i checked
    split at h
    · cases h
    · obtain rfl := Except.ok.inj h
      exact ⟨checked, rfl, rfl, rfl, rfl, ⟨now, rfl⟩⟩

/-- Settings that pass the check keep an engine from being built by their capacity only. -/
theorem build_crashed_iff {settings : Settings ν} {sink : String} {now : Nat} :
    (State.build settings sink now : Except (SpawnFailure ν) (State α ν)) = .error .crashed ↔
      settings.check = .ok () ∧ greatestCapacity < settings.failureCapacity.toNat := by
  rw [State.build]
  split
  · rename_i fault hcheck
    simp [hcheck]
  · rename_i hcheck
    split
    · rename_i large
      simp [hcheck, large]
    · rename_i small
      simp [hcheck, small]

/-- An engine that has started has taken in the answer of its seed probe. -/
theorem blank_of_spawn {settings : Settings ν} {sink : String} {now delay : Nat}
    {reply : ProbeReply ν} {s : State α ν}
    (h : State.spawn settings sink now delay reply = .ok s) :
    ∃ b millis, Blank settings b ∧ reply.cost? = some millis ∧
      s = { b.learn millis with prober := .sleeping } := by
  rw [State.spawn] at h
  cases hbuild : (State.build settings sink now : Except (SpawnFailure ν) (State α ν)) with
  | error failure =>
    rw [hbuild] at h
    cases h
  | ok b =>
    rw [hbuild] at h
    have blank := blank_of_build hbuild
    have hseed : State.seed { b with now := b.now + delay } reply = .ok s := h
    rw [State.seed] at hseed
    split at hseed
    · rename_i millis counts
      have hs := Except.ok.inj hseed
      refine ⟨{ b with now := b.now + delay }, millis, ?_, judgeProbe_ok.mp counts, hs.symm⟩
      exact ⟨blank.checked, blank.same, blank.model, blank.counters, blank.recorder,
        blank.log⟩
    · cases hseed

/-! ## Settings of a running engine -/

theorem settings_move {s t : State α ν} {e : Event α ν} (h : Move s e t) :
    t.settings = s.settings := by
  cases h <;> rfl

theorem settings_race {s t : State α ν} {as : List (Act α ν)} (h : s.race? as = some t) :
    t.settings = s.settings :=
  race_keeps (P := fun u => u.settings = s.settings)
    (fun hmove hu => (settings_move hmove).trans hu) (fun _ hu => hu) h rfl

theorem check_of_raced {s : State α ν} (hs : Raced s) : s.settings.check = .ok () := by
  refine raced_induction (P := fun s => s.settings.check = .ok ()) ?_ ?_ (fun _ hs => hs) hs
  · intro settings sink now delay reply s h
    obtain ⟨b, millis, blank, _, hseeded⟩ := blank_of_spawn h
    rw [hseeded]
    exact blank.same.symm ▸ blank.checked
  · intro s t e _ hmove hs
    rw [settings_move hmove]
    exact hs

end Engine
end AdaptiveBatch
