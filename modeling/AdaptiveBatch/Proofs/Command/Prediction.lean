import AdaptiveBatch.Command.Simulate
import AdaptiveBatch.Command.Validate
import AdaptiveBatch.Proofs.Simulation.Turn

/-!
# What a verdict predicts

A configuration is judged in four places: when its file is validated, when that file is
loaded for a simulation, after the command line has had its say, and when the engine starts.
The first two agree on every file.  The third can only refuse what the command line brought
in, and the fourth refuses nothing that the third has let through.
-/

namespace AdaptiveBatch

/-! ## Loading -/

namespace Config

theorem check_of_loadText {f : Format} {text : String} {c : Configuration Float}
    (h : loadText f text = .ok c) : c.check = .ok () := by
  rw [loadText] at h
  split at h
  · cases h
  · split at h
    · cases h
    · rename_i d hd
      cases hcheck : d.check with
      | error fault =>
        rw [hcheck] at h
        cases h
      | ok u =>
        rw [hcheck] at h
        rw [← Except.ok.inj h]
        exact hcheck

/-- What is loaded from a file has been checked. -/
theorem check_of_loadFile {files : Files.View} {path : String} {c : Configuration Float}
    (h : loadFile files path = .ok c) : c.check = .ok () := by
  rw [loadFile] at h
  cases hformat : formatOf path with
  | error fault =>
    rw [hformat] at h
    cases h
  | ok f =>
    rw [hformat] at h
    dsimp only [bind, Except.bind] at h
    split at h
    · cases h
    · exact check_of_loadText h

end Config

/-! ## Starting -/

namespace Simulation

variable {ν : Type} [Number ν] {settings : Settings ν} {workload : Workload ν}

/-- An engine with too many events to keep is not built. -/
theorem start_crashed (checked : settings.check = .ok ())
    (capacity : greatestCapacity < settings.failureCapacity.toNat) :
    World.start settings workload = .error .crashed := by
  have hbuild : (Engine.State.build settings ((Sink.Simulated.behaviour Payload ν).name
      (Sink.Simulated.ofWorkload (sinkName settings.name) workload)) 0 :
        Except (Engine.SpawnFailure ν) (Engine.State Payload ν)) = .error .crashed :=
    Engine.build_crashed_iff.mpr ⟨checked, capacity⟩
  simp only [World.start, Engine.Clock.start, hbuild]

theorem start_of_check {c : Configuration ν} (checked : c.check = .ok ())
    (capacity : c.batcher.failureCapacity.toNat ≤ greatestCapacity) :
    ∃ w, World.start c.batcher c.simulation = .ok w := by
  obtain ⟨hsettings, hworkload⟩ := (Configuration.check_ok c).mp checked
  obtain ⟨s, delay, -, hstart⟩ := start_ok hsettings (isCost_of_check hworkload) capacity
  exact ⟨_, hstart⟩

/-- No error keeps a simulation from starting if its configuration passes the check. -/
theorem start_unrefused {c : Configuration ν} (checked : c.check = .ok ()) (e : EngineError ν) :
    World.start c.batcher c.simulation ≠ .error (.start e) := by
  rcases Nat.lt_or_ge greatestCapacity c.batcher.failureCapacity.toNat with large | small
  · rw [start_crashed ((Configuration.check_ok c).mp checked).1 large]
    exact nofun
  · obtain ⟨w, hstart⟩ := start_of_check checked small
    rw [hstart]
    exact nofun

variable [SquareRoot ν]

/-- A simulation that has started does not fail to start later. -/
theorem start_of_run {shutdown : Option Nat} {e : EngineError ν}
    (h : run settings workload shutdown = .error (.start e)) :
    World.start settings workload = .error (.start e) := by
  cases hstart : World.start settings workload with
  | error failure =>
    simp only [run, hstart, bind, Except.bind] at h
    rw [Except.error.inj h]
  | ok w =>
    simp only [run, hstart, bind, Except.bind] at h
    split at h
    · cases h
    · rename_i u hu
      cases hjoin : u.run.joinError? with
      | some error =>
        simp only [World.conclude, hjoin] at h
        cases h
      | none =>
        simp only [World.conclude, hjoin] at h
        cases h

end Simulation

/-! ## The four judgements -/

namespace Command

open Simulation (World)

variable {files : Files.View} {path : String} {c c' : Configuration Float} {o : SimulateOptions}

/-- What may be found at a path, and what the two commands make of it. -/
inductive Judged (files : Files.View) (path : String) : Prop where
  | missing (absent : files.contains path = false) (judged : verdict files path = .missing)
      (loaded : loadConfiguration files (some path) = .error (.missing path))
  | invalid (f : Fault) (present : files.contains path = true)
      (judged : verdict files path = .invalid f)
      (loaded : loadConfiguration files (some path) = .error (.refused path f))
  | valid (c : Configuration Float) (present : files.contains path = true)
      (judged : verdict files path = .valid c)
      (loaded : loadConfiguration files (some path) = .ok c) (checked : c.check = .ok ())

theorem judged (files : Files.View) (path : String) : Judged files path := by
  by_cases present : files.contains path = true
  · cases hload : Config.loadFile files path with
    | error f =>
      refine .invalid f present ?_ ?_
      · rw [verdict, if_pos present, hload]
      · rw [loadConfiguration, if_pos present, hload]
    | ok c =>
      refine .valid c present ?_ ?_ (Config.check_of_loadFile hload)
      · rw [verdict, if_pos present, hload]
      · rw [loadConfiguration, if_pos present, hload]
  · refine .missing (Bool.eq_false_iff.mpr present) ?_ ?_
    · rw [verdict, if_neg present]
    · rw [loadConfiguration, if_neg present]

/-- Whether what the command line brings in keeps the rules about it. -/
def KeepsRules (o : SimulateOptions) : Prop :=
  o.producers ≠ some 0 ∧ ∀ x, o.probe = some x → Number.isCost x = true

theorem isCost_eq_false_iff {x : Float} :
    Number.isCost x = false ↔ x.isFinite = false ∨ x < 0 := by
  show (x.isFinite && !decide (x < 0)) = false ↔ _
  rw [Bool.and_eq_false_iff, Bool.not_eq_false', decide_eq_true_eq]

theorem not_keepsRules_iff :
    ¬ KeepsRules o ↔
      o.producers = some 0 ∨ ∃ x, o.probe = some x ∧ (x.isFinite = false ∨ x < 0) := by
  simp only [KeepsRules, ← isCost_eq_false_iff, not_and_or, not_not, not_forall, exists_prop,
    Bool.not_eq_true]

/-- The command line can break no other rules. -/
theorem check_override (checked : c.check = .ok ()) :
    (o.override c).check = .ok () ↔ KeepsRules o := by
  obtain ⟨hsettings, hworkload⟩ := (Configuration.check_ok c).mp checked
  obtain ⟨hprobe, hoverhead, hcost, hproducers⟩ := (Workload.check_ok _).mp hworkload
  have hkept : (o.override c).batcher.check = .ok () := (check_ok _).mpr ((check_ok _).mp hsettings)
  rw [Configuration.check_ok, Workload.check_ok]
  constructor
  · rintro ⟨-, probe, -, -, producers⟩
    refine ⟨fun h => producers ?_, fun x hx => ?_⟩
    · show o.producers.getD _ = 0
      rw [h]
      rfl
    · have hgiven : (o.override c).simulation.probe = x := by
        show o.probe.getD _ = x
        rw [hx]
        rfl
      exact hgiven ▸ probe
  · rintro ⟨producers, probe⟩
    refine ⟨hkept, ?_, hoverhead, hcost, ?_⟩
    · show Number.isCost (o.probe.getD _) = true
      cases hx : o.probe with
      | none => exact hprobe
      | some x => exact probe x hx
    · show o.producers.getD _ ≠ 0
      cases hn : o.producers with
      | none => exact hproducers
      | some n => exact fun h => producers (hn.trans (congrArg some h))

theorem simulate_of_load {failure : LoadFailure}
    (h : loadConfiguration files o.config = .error failure) :
    simulate files o = .error (.load failure) := by
  simp only [simulate, effective, h]

theorem check_of_effective (h : effective files o = .ok c) : c.check = .ok () := by
  rw [effective] at h
  split at h
  · cases h
  · dsimp only at h
    split at h
    · cases h
    · rename_i hcheck
      rw [← Except.ok.inj h]
      exact hcheck

/-- After a file that is valid, only what the command line brings in can break a rule. -/
theorem effective_of_valid (loaded : loadConfiguration files o.config = .ok c)
    (checked : c.check = .ok ()) :
    (effective files o = .ok (o.override c) ∧ KeepsRules o) ∨
      ((∃ f, effective files o = .error (.settings f)) ∧ ¬ KeepsRules o) := by
  cases hcheck : (o.override c).check with
  | ok u =>
    refine .inl ⟨?_, (check_override checked).mp hcheck⟩
    simp only [effective, loaded, hcheck]
  | error f =>
    refine .inr ⟨⟨f, ?_⟩, fun h => ?_⟩
    · simp only [effective, loaded, hcheck]
    · rw [(check_override checked).mpr h] at hcheck
      cases hcheck

/-- What the verdict on a file says about every simulation of it. -/
structure Predicts (files : Files.View) (path : String) : Prop where
  loads : (verdict files path).isValid = true ↔
    ∃ c, loadConfiguration files (some path) = .ok c
  /-- What is wrong with a file that is there is what its loading fails with, and no
  simulation of it gets as far as an engine. -/
  refused : files.contains path = true → (verdict files path).isValid = false →
    ∃ f, (verdict files path).error? path = some f.message ∧
      loadConfiguration files (some path) = .error (.refused path f) ∧
      ∀ o, o.config = some path → simulate files o = .error (.load (.refused path f))
  overridden : ∀ o, (verdict files path).isValid = true → o.config = some path →
    ((∃ f, effective files o = .error (.settings f)) ↔
      o.producers = some 0 ∨ ∃ x, o.probe = some x ∧ (x.isFinite = false ∨ x < 0))
  /-- What the second check lets through starts, unless there is no room for its events. -/
  starts : ∀ o, (verdict files path).isValid = true → o.config = some path →
    (∃ f, effective files o = .error (.settings f)) ∨
    ∃ c, effective files o = .ok c ∧
      (∀ e, World.start c.batcher c.simulation ≠ .error (.start e)) ∧
      (∀ shutdown e, Simulation.run c.batcher c.simulation shutdown ≠ .error (.start e)) ∧
      (c.batcher.failureCapacity.toNat ≤ greatestCapacity →
        ∃ w, World.start c.batcher c.simulation = .ok w)

theorem predicts (files : Files.View) (path : String) : Predicts files path := by
  cases judged files path with
  | missing absent hverdict loaded =>
    constructor
    · rw [hverdict, loaded]
      exact ⟨nofun, nofun⟩
    · intro present
      rw [absent] at present
      cases present
    · rw [hverdict]
      exact nofun
    · rw [hverdict]
      exact nofun
  | invalid f present hverdict loaded =>
    constructor
    · rw [hverdict, loaded]
      exact ⟨nofun, nofun⟩
    · intro _ _
      rw [hverdict]
      exact ⟨f, rfl, loaded, fun o ho => simulate_of_load (ho ▸ loaded)⟩
    · rw [hverdict]
      exact nofun
    · rw [hverdict]
      exact nofun
  | valid c present hverdict loaded checked =>
    constructor
    · rw [hverdict, loaded]
      exact ⟨fun _ => ⟨c, rfl⟩, fun _ => rfl⟩
    · rw [hverdict]
      exact nofun
    · intro o _ ho
      rw [← not_keepsRules_iff]
      rcases effective_of_valid (ho ▸ loaded) checked with ⟨heffective, keeps⟩ | ⟨hrefused, breaks⟩
      · rw [heffective]
        exact ⟨nofun, fun h => absurd keeps h⟩
      · exact ⟨fun _ => breaks, fun _ => hrefused⟩
    · intro o _ ho
      rcases effective_of_valid (ho ▸ loaded) checked with ⟨heffective, -⟩ | ⟨hrefused, -⟩
      · have hchecked := check_of_effective heffective
        exact .inr ⟨o.override c, heffective, Simulation.start_unrefused hchecked,
          fun shutdown e h => Simulation.start_unrefused hchecked e (Simulation.start_of_run h),
          Simulation.start_of_check hchecked⟩
      · exact .inl hrefused

end Command
end AdaptiveBatch
