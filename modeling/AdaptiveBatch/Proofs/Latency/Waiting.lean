import Mathlib.Data.List.Nodup
import AdaptiveBatch.Decimal.Instance
import AdaptiveBatch.Latency.Waiting

/-!
# Who hears of the switch

The switch sends one notification, so of the tasks that are in line when it is turned on
the first goes on.  Whoever looks at the switch later goes on too, in line or not before.
The rest of the line has had its look and gets no notification, unless a task gives up
that had one: as a rule they wait for ever.
-/

namespace AdaptiveBatch
namespace Latency

variable {ν : Type}

/-- What happens to a model and to those who wait for its switch. -/
inductive Act (ν : Type) where
  | publish (probe : ν)
  | poll (task : Nat)
  | abandon (task : Nat)

def Act.published? : Act ν → Option ν
  | .publish probe => some probe
  | _ => none

/-- Whether the act is that of a task that gives up. -/
def Act.abandons : Act ν → Bool
  | .abandon _ => true
  | _ => false

variable [Number ν]

namespace Watched

/-- A model at its start, which nobody waits for. -/
def start (threshold : ν) : Watched ν := { model := .initial threshold }

def act (w : Watched ν) : Act ν → Watched ν
  | .publish probe => (w.publish probe).2
  | .poll t => (w.poll t).2
  | .abandon t => w.abandon t

def run (w : Watched ν) (acts : List (Act ν)) : Watched ν := acts.foldl act w

end Watched

/-! ## The switch -/

theorem model_act (w : Watched ν) (a : Act ν) :
    (w.act a).model = (a.published?.map w.model.publish).getD w.model := by
  cases a <;> rfl

/-- The switch is on once some answer has called for it. -/
theorem packing_run (w : Watched ν) (acts : List (Act ν)) :
    (w.run acts).model.threshold = w.model.threshold ∧
      (w.run acts).model.packing =
        (w.model.packing || (acts.filterMap Act.published?).any w.model.exceeds) := by
  induction acts generalizing w with
  | nil => exact ⟨rfl, (Bool.or_false _).symm⟩
  | cons a acts ih =>
    obtain ⟨hthreshold, hpacking⟩ := ih (w.act a)
    rw [model_act] at hthreshold hpacking
    cases a with
    | publish probe =>
      refine ⟨hthreshold, hpacking.trans ?_⟩
      exact Bool.or_assoc _ _ _
    | poll t | abandon t => exact ⟨hthreshold, hpacking⟩

/-! ## The line -/

omit [Number ν] in
theorem line_notify (w : Waiting) : w.notify.line = w.line.tail := by
  unfold Waiting.notify
  cases w.line <;> rfl

theorem line_poll (w : Waiting) (t : Nat) : (w.poll true t).2.line = w.line := by
  rw [Waiting.poll]
  split <;> rfl

theorem resolves_iff (w : Waiting) (t : Nat) : (w.poll true t).1 = true ↔ t ∉ w.line := by
  rw [Waiting.poll]
  split <;> rename_i h <;> simp [h]

theorem waits_of_direct (w : Waiting) (t : Nat) : (w.poll false t).1 = false := by
  rw [Waiting.poll]
  split <;> rfl

theorem line_abandon (w : Waiting) (t : Nat) : (w.abandon t).line.Sublist w.line := by
  rw [Waiting.abandon]
  split
  · rw [line_notify]
    exact (List.tail_sublist _).trans List.filter_sublist
  · exact List.filter_sublist

/-- With the switch on nobody lines up any more, and only who gives up makes the line
shorter. -/
theorem line_act {w : Watched ν} (packing : w.model.packing = true) (a : Act ν) :
    (w.act a).waiting.line.Sublist w.waiting.line ∧
      (a.abandons = false → (w.act a).waiting.line = w.waiting.line) := by
  cases a with
  | publish probe =>
    -- the switch is turned on once, and the notification with it is sent once
    have hquiet : w.model.enables probe = false := by rw [Latency.Model.enables, packing]; rfl
    have hline : (w.act (.publish probe)).waiting = w.waiting := by
      simp [Watched.act, Watched.publish, hquiet]
    rw [hline]
    exact ⟨.refl _, fun _ => rfl⟩
  | poll t =>
    have hline : (w.act (.poll t)).waiting.line = w.waiting.line := by
      show (w.waiting.poll w.model.packing t).2.line = _
      rw [packing, line_poll]
    rw [hline]
    exact ⟨.refl _, fun _ => rfl⟩
  | abandon t => exact ⟨line_abandon w.waiting t, fun h => by cases h⟩

theorem packing_act {w : Watched ν} (packing : w.model.packing = true) (a : Act ν) :
    (w.act a).model.packing = true := by
  rw [model_act]
  cases a with
  | publish probe =>
    show (w.model.packing || w.model.exceeds probe) = true
    rw [packing, Bool.true_or]
  | poll t | abandon t => exact packing

theorem line_run {w : Watched ν} (packing : w.model.packing = true) (acts : List (Act ν)) :
    (w.run acts).waiting.line.Sublist w.waiting.line ∧
      ((∀ a ∈ acts, a.abandons = false) → (w.run acts).waiting.line = w.waiting.line) := by
  induction acts generalizing w with
  | nil => exact ⟨.refl _, fun _ => rfl⟩
  | cons a acts ih =>
    obtain ⟨hfewer, hsame⟩ := line_act packing a
    obtain ⟨hrest, hstay⟩ := ih (packing_act packing a)
    refine ⟨hrest.trans hfewer, fun patient => ?_⟩
    exact (hstay fun b hb => patient b (List.mem_cons_of_mem _ hb)).trans
      (hsame (patient a List.mem_cons_self))

/-! ## Who goes on -/

/-- What has become of a model of this threshold, and of those who wait for it. -/
structure Wakes (threshold : ν) (acts : List (Act ν)) : Prop where
  /-- A publish call answers that it turned the switch on just if its answer is the first
  above the threshold. -/
  first : ∀ probe, (((Watched.start threshold).run acts).publish probe).1 = true ↔
    Number.less threshold (Estimate.ofProbe probe).latency = true ∧
      ∀ earlier ∈ acts.filterMap Act.published?,
        Number.less threshold (Estimate.ofProbe earlier).latency = false
  /-- Until there is one nobody goes on. -/
  waits : (∀ earlier ∈ acts.filterMap Act.published?,
      Number.less threshold (Estimate.ofProbe earlier).latency = false) →
    ∀ t, (((Watched.start threshold).run acts).poll t).1 = false
  /-- From then on all go on but those who were in line behind the first. -/
  resolves : ∀ {before probe after}, acts = before ++ .publish probe :: after →
    (((Watched.start threshold).run before).publish probe).1 = true →
    ∀ t, t ∉ ((Watched.start threshold).run before).waiting.line.tail →
      (((Watched.start threshold).run acts).poll t).1 = true
  /-- If at most one was in line, all go on. -/
  alone : ∀ {before probe after}, acts = before ++ .publish probe :: after →
    (((Watched.start threshold).run before).publish probe).1 = true →
    ((Watched.start threshold).run before).waiting.line.length ≤ 1 →
    ∀ t, (((Watched.start threshold).run acts).poll t).1 = true
  /-- If there were more, the others go on waiting as long as nobody gives up. -/
  left : ∀ {before probe after}, acts = before ++ .publish probe :: after →
    (((Watched.start threshold).run before).publish probe).1 = true →
    (∀ a ∈ after, a.abandons = false) →
    ∀ t ∈ ((Watched.start threshold).run before).waiting.line.tail,
      (((Watched.start threshold).run acts).poll t).1 = false

/-- The line after the switch is what was behind its first. -/
theorem line_of_switch {w : Watched ν} {probe : ν} (switches : (w.publish probe).1 = true)
    (after : List (Act ν)) :
    (w.run (.publish probe :: after)).model.packing = true ∧
      (w.run (.publish probe :: after)).waiting.line.Sublist w.waiting.line.tail ∧
      ((∀ a ∈ after, a.abandons = false) →
        (w.run (.publish probe :: after)).waiting.line = w.waiting.line.tail) := by
  have henables : w.model.enables probe = true := switches
  have packing : (w.act (.publish probe)).model.packing = true := by
    rw [Latency.Model.enables, Bool.and_eq_true] at henables
    show (w.model.packing || w.model.exceeds probe) = true
    rw [henables.2, Bool.or_true]
  have hline : (w.act (.publish probe)).waiting.line = w.waiting.line.tail := by
    rw [← line_notify]
    simp [Watched.act, Watched.publish, henables]
  obtain ⟨hfewer, hstay⟩ := line_run packing after
  rw [hline] at hfewer hstay
  refine ⟨?_, hfewer, hstay⟩
  rw [Watched.run, List.foldl_cons]
  exact (packing_run _ after).2.trans (by rw [packing, Bool.true_or])

theorem run_append (w : Watched ν) (before after : List (Act ν)) :
    w.run (before ++ after) = (w.run before).run after :=
  List.foldl_append

omit [Number ν] in
theorem poll_of_packing {w : Watched ν} (packing : w.model.packing = true) (t : Nat) :
    (w.poll t).1 = true ↔ t ∉ w.waiting.line := by
  show (w.waiting.poll w.model.packing t).1 = true ↔ _
  rw [packing, resolves_iff]

theorem wakes_of_run (threshold : ν) (acts : List (Act ν)) : Wakes threshold acts := by
  obtain ⟨hthreshold, hpacking⟩ := packing_run (Watched.start threshold) acts
  have hexceeds : ∀ probe, ((Watched.start threshold).run acts).model.exceeds probe =
      Number.less threshold (Estimate.ofProbe probe).latency := by
    intro probe
    rw [Model.exceeds, hthreshold]
    rfl
  have hoff : ((Watched.start threshold).run acts).model.packing = false ↔
      ∀ earlier ∈ acts.filterMap Act.published?,
        Number.less threshold (Estimate.ofProbe earlier).latency = false := by
    rw [hpacking, show (Watched.start threshold).model.packing = false from rfl, Bool.false_or,
      List.any_eq_false]
    simp only [Bool.not_eq_true]
    rfl
  have hresolves : ∀ {before probe after}, acts = before ++ .publish probe :: after →
      (((Watched.start threshold).run before).publish probe).1 = true →
      ∀ t, t ∉ ((Watched.start threshold).run before).waiting.line.tail →
        (((Watched.start threshold).run acts).poll t).1 = true := by
    rintro before probe after rfl switches t out
    obtain ⟨packing, hfewer, -⟩ := line_of_switch switches after
    rw [run_append, poll_of_packing packing]
    exact fun hmem => out (hfewer.subset hmem)
  refine ⟨?_, ?_, hresolves, ?_, ?_⟩
  · intro probe
    show (!_ && _) = true ↔ _
    rw [Bool.and_eq_true, Bool.not_eq_true', hexceeds, hoff, and_comm]
  · intro quiet t
    show (Waiting.poll _ _ t).1 = false
    rw [hoff.mpr quiet, waits_of_direct]
  · intro before probe after hacts switches single t
    refine hresolves hacts switches t ?_
    have hnone : ((Watched.start threshold).run before).waiting.line.tail = [] := by
      rw [← List.length_eq_zero_iff, List.length_tail]
      omega
    rw [hnone]
    exact List.not_mem_nil
  · rintro before probe after rfl switches patient t mem
    obtain ⟨packing, -, hstay⟩ := line_of_switch switches after
    rw [run_append, ← Bool.not_eq_true, poll_of_packing packing, hstay patient]
    exact not_not_intro mem

/-- Two tasks look at the switch before it is turned on. -/
def twoWaiters : Watched Rat := (Watched.start (1 / 10)).run [.poll 0, .poll 1]

/-- The first of them goes on, and the second does not, then or later. -/
theorem second_waits :
    (twoWaiters.publish 1).1 = true ∧ (twoWaiters.publish 1).2.model.packing = true ∧
      ((twoWaiters.publish 1).2.poll 0).1 = true ∧
      ((twoWaiters.publish 1).2.poll 1).1 = false ∧
      (((twoWaiters.publish 1).2.run [.poll 0, .poll 1, .publish 2]).poll 1).1 = false := by
  decide +kernel

end Latency
end AdaptiveBatch
