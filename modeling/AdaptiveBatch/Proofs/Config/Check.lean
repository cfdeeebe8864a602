import AdaptiveBatch.Config.Settings

/-!
# What passes the check

The check of a configuration is a sequence of rules, and passing it means that all of
them hold.
-/

namespace AdaptiveBatch

theorem require_ok {rule : Bool} {field message : String} :
    require rule field message = .ok () ↔ rule = true := by
  cases rule <;> simp [require]

theorem require_bind_ok {rule : Bool} {field message : String} {next : Except Fault Unit} :
    (require rule field message >>= fun _ => next) = .ok () ↔ rule = true ∧ next = .ok () := by
  cases rule <;> simp [require, bind, Except.bind]

variable {ν : Type} [Number ν]

theorem check_ok (s : Settings ν) :
    s.check = .ok () ↔
      Text.allBlank s.name = false ∧ s.probeInterval ≠ 0 ∧
        Number.isCost s.packingThreshold = true ∧
        (Number.isFinite s.itemCeiling = true ∧
          Number.less (Number.ofCount 0) s.itemCeiling = true) ∧
        s.probeTimeout ≠ some 0 ∧ s.failureCapacity ≠ 0 := by
  rw [Settings.check]
  simp only [require_bind_ok, require_ok]
  simp

theorem Workload.check_ok (w : Workload ν) :
    w.check = .ok () ↔
      Number.isCost w.probe = true ∧ Number.isCost w.callOverhead = true ∧
        Number.isCost w.perItemCost = true ∧ w.producers ≠ 0 := by
  rw [Workload.check]
  simp only [Workload.checkCost, require_bind_ok, require_ok]
  simp

theorem Configuration.check_ok (c : Configuration ν) :
    c.check = .ok () ↔ c.batcher.check = .ok () ∧ c.simulation.check = .ok () := by
  rw [Configuration.check]
  cases c.batcher.check with
  | error fault => simp [bind, Except.bind]
  | ok u => simp [bind, Except.bind]

end AdaptiveBatch
