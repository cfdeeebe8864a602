import AdaptiveBatch.Decimal.Instance
import AdaptiveBatch.Proofs.Engine.Move

/-!
# Runs of an engine

A run is a list of acts, each possible where it comes.  Most acts are events.  The others
have to do with the line for the buffer lock: one step takes an offer past the gate and
into line, but tasks that run side by side may ask for the lock before the offer does, and
then the offer is served after them.  Whoever asks late has been overtaken in line, so
runs on which the line may change its order at any time stand for every timing of the
tasks that race for the lock.

The sink may bring down the task that calls it.  A state is steady if no call has done so
on the way to it, and a run is calm if none does on it.
-/

namespace AdaptiveBatch
namespace Engine

variable {α ν : Type}

/-- An event, or a new order of those in line. -/
inductive Act (α ν : Type) where
  | event (event : Event α ν)
  | reorder (line : List Waiter)

/-- Whether a sink call brings its task down. -/
def Act.crashes : Act α ν → Bool
  | .event e => e.crashes
  | .reorder _ => false

/-- A run on which no sink call brings its task down. -/
def Calm (as : List (Act α ν)) : Prop := ∀ a ∈ as, a.crashes = false

instance (as : List (Act α ν)) : Decidable (Calm as) :=
  inferInstanceAs (Decidable (∀ a ∈ as, a.crashes = false))

variable [Number ν]

def State.act? (s : State α ν) : Act α ν → Option (State α ν)
  | .event e => s.step? e
  | .reorder line => if s.line.Perm line then some { s with line } else none

/-- The state that a list of acts leads to, if each of them is possible where it comes. -/
def State.race? (s : State α ν) : List (Act α ν) → Option (State α ν)
  | [] => some s
  | a :: as => (s.act? a).bind (race? · as)

/-- The state that a run leads to from a new engine, whose seed probe answers at once. -/
def State.play? (settings : Settings ν) (sink : String) (probe : ν) (as : List (Act α ν)) :
    Option (State α ν) :=
  (State.spawn settings sink 0 0 (.answer probe)).toOption.bind (·.race? as)

/-- A state that a running engine may be in, whatever the timing of its tasks. -/
inductive Raced : State α ν → Prop where
  | spawn {settings : Settings ν} {sink : String} {now delay : Nat} {reply : ProbeReply ν}
      {s : State α ν} (h : State.spawn settings sink now delay reply = .ok s) : Raced s
  | act {s t : State α ν} {a : Act α ν} (hs : Raced s) (h : s.act? a = some t) : Raced t

/-- A state that it may be in if no sink call has brought its task down. -/
inductive Steady : State α ν → Prop where
  | spawn {settings : Settings ν} {sink : String} {now delay : Nat} {reply : ProbeReply ν}
      {s : State α ν} (h : State.spawn settings sink now delay reply = .ok s) : Steady s
  | act {s t : State α ν} {a : Act α ν} (hs : Steady s) (calm : a.crashes = false)
      (h : s.act? a = some t) : Steady t

theorem Steady.raced {s : State α ν} (hs : Steady s) : Raced s := by
  induction hs with
  | spawn h => exact .spawn h
  | act _ _ h ih => exact .act ih h

theorem race_cons {s t : State α ν} {a : Act α ν} {as : List (Act α ν)} :
    s.race? (a :: as) = some t ↔ ∃ u, s.act? a = some u ∧ u.race? as = some t :=
  Option.bind_eq_some_iff

theorem reorder_of_act {s t : State α ν} {line : List Waiter}
    (h : s.act? (.reorder line) = some t) : s.line.Perm line ∧ t = { s with line } := by
  rw [State.act?] at h
  split at h
  · rename_i order
    exact ⟨order, (Option.some.inj h).symm⟩
  · cases h

/-! ## What a run keeps -/

/-- A run is nothing, or an act and a run. -/
theorem race_induction {motive : State α ν → List (Act α ν) → State α ν → Prop}
    (nil : ∀ s, motive s [] s)
    (cons : ∀ {s u t : State α ν} {a : Act α ν} {as : List (Act α ν)},
      s.act? a = some u → u.race? as = some t → motive u as t → motive s (a :: as) t)
    {as : List (Act α ν)} : ∀ {s t : State α ν}, s.race? as = some t → motive s as t := by
  induction as with
  | nil =>
    intro s t h
    exact Option.some.inj h ▸ nil s
  | cons a as ih =>
    intro s t h
    obtain ⟨u, hact, hrest⟩ := race_cons.mp h
    exact cons hact hrest (ih hrest)

/-- A calm run from a steady state passes through steady states. -/
theorem calm_race_induction {motive : State α ν → List (Act α ν) → State α ν → Prop}
    (nil : ∀ s, motive s [] s)
    (event : ∀ {s u t : State α ν} {e : Event α ν} {as : List (Act α ν)},
      Steady s → e.crashes = false → s.step? e = some u → motive u as t →
      motive s (.event e :: as) t)
    (reorder : ∀ {s t : State α ν} {line : List Waiter} {as : List (Act α ν)},
      s.line.Perm line → motive { s with line } as t → motive s (.reorder line :: as) t)
    {s t : State α ν} {as : List (Act α ν)} (hs : Steady s) (hcalm : Calm as)
    (h : s.race? as = some t) : motive s as t := by
  refine race_induction (motive := fun s as t => Steady s → Calm as → motive s as t) ?_ ?_ h hs
    hcalm
  · exact fun s _ _ => nil s
  · intro s u t a as hact _ ih hs hcalm
    obtain ⟨ha, has⟩ := List.forall_mem_cons.mp hcalm
    have hrest := ih (.act hs ha hact) has
    cases a with
    | event e => exact event hs ha hact hrest
    | reorder line =>
      obtain ⟨order, rfl⟩ := reorder_of_act hact
      exact reorder order hrest

/-- What the move keeps, if the act is one, and any order of the line keeps, an act keeps. -/
theorem act_keeps {P : State α ν → Prop} {s t : State α ν} {a : Act α ν}
    (move : ∀ {e : Event α ν}, Move s e t → P s → P t)
    (reorder : ∀ {line : List Waiter}, s.line.Perm line → P s → P { s with line })
    (h : s.act? a = some t) (hs : P s) : P t := by
  cases a with
  | event e => exact move (move_of_step h) hs
  | reorder line =>
    obtain ⟨order, rfl⟩ := reorder_of_act h
    exact reorder order hs

/-- What every move and any order of the line keep, a run keeps. -/
theorem race_keeps {P : State α ν → Prop}
    (move : ∀ {s t : State α ν} {e : Event α ν}, Move s e t → P s → P t)
    (reorder : ∀ {s : State α ν} {line : List Waiter}, s.line.Perm line → P s →
      P { s with line })
    {as : List (Act α ν)} {s t : State α ν} (h : s.race? as = some t) (hs : P s) : P t := by
  refine race_induction (motive := fun s _ t => P s → P t) (fun _ => id) ?_ h hs
  intro s u t a as hact _ ih hs
  exact ih (act_keeps move reorder hact hs)

/-- What every move from a steady state keeps, unless it is a crash, and any order of the
line keeps, a calm run keeps. -/
theorem calm_race_keeps {P : State α ν → Prop}
    (move : ∀ {s t : State α ν} {e : Event α ν},
      Steady s → e.crashes = false → Move s e t → P s → P t)
    (reorder : ∀ {s : State α ν} {line : List Waiter}, s.line.Perm line → P s →
      P { s with line })
    {as : List (Act α ν)} {s t : State α ν} (hs : Steady s) (hcalm : Calm as)
    (h : s.race? as = some t) (hp : P s) : P t := by
  refine calm_race_induction (motive := fun s _ t => P s → P t) (fun _ => id) ?_ ?_ hs hcalm h hp
  · intro s u t e as hs he hstep ih hp
    exact ih (move hs he (move_of_step hstep) hp)
  · intro s t line as order ih hp
    exact ih (reorder order hp)

theorem closing_act {s t : State α ν} {a : Act α ν} (closing : s.closing = true)
    (h : s.act? a = some t) : t.closing = true :=
  act_keeps (P := fun u => u.closing = true) closing_move (fun _ hu => hu) h closing

theorem closing_race {s t : State α ν} {as : List (Act α ν)} (closing : s.closing = true)
    (h : s.race? as = some t) : t.closing = true :=
  race_keeps (P := fun u => u.closing = true) closing_move (fun _ hu => hu) h closing

theorem raced_of_race {s t : State α ν} {as : List (Act α ν)} (hs : Raced s)
    (h : s.race? as = some t) : Raced t := by
  refine race_induction (motive := fun s _ t => Raced s → Raced t) (fun _ => id) ?_ h hs
  intro s u t a as hact _ ih hs
  exact ih (.act hs hact)

theorem steady_of_race {s t : State α ν} {as : List (Act α ν)} (hs : Steady s)
    (hcalm : Calm as) (h : s.race? as = some t) : Steady t := by
  refine race_induction (motive := fun s as t => Steady s → Calm as → Steady t) ?_ ?_ h hs hcalm
  · exact fun s hs _ => hs
  · intro s u t a as hact _ ih hs hcalm
    obtain ⟨ha, has⟩ := List.forall_mem_cons.mp hcalm
    exact ih (.act hs ha hact) has

theorem race_split {before after : List (Act α ν)} {s t : State α ν}
    (h : s.race? (before ++ after) = some t) :
    ∃ u, s.race? before = some u ∧ u.race? after = some t := by
  induction before generalizing s with
  | nil => exact ⟨s, rfl, h⟩
  | cons a before ih =>
    obtain ⟨u, hact, hrest⟩ := race_cons.mp h
    obtain ⟨v, hbefore, hafter⟩ := ih hrest
    exact ⟨v, race_cons.mpr ⟨u, hact, hbefore⟩, hafter⟩

/-! ## Where runs begin -/

theorem spawn_of_play {settings : Settings ν} {sink : String} {probe : ν}
    {as : List (Act α ν)} {t : State α ν} (h : State.play? settings sink probe as = some t) :
    ∃ s, State.spawn settings sink 0 0 (.answer probe) = .ok s ∧ s.race? as = some t := by
  obtain ⟨s, hspawn, hrun⟩ := Option.bind_eq_some_iff.mp h
  cases hresult : (State.spawn settings sink 0 0 (.answer probe) :
      Except (SpawnFailure ν) (State α ν)) with
  | error failure => simp [hresult, Except.toOption] at hspawn
  | ok s' =>
    obtain rfl : s' = s := by simpa [hresult, Except.toOption] using hspawn
    exact ⟨s', rfl, hrun⟩

theorem raced_of_play {settings : Settings ν} {sink : String} {probe : ν}
    {as : List (Act α ν)} {t : State α ν} (h : State.play? settings sink probe as = some t) :
    Raced t := by
  obtain ⟨s, hspawn, hrun⟩ := spawn_of_play h
  exact raced_of_race (.spawn hspawn) hrun

theorem steady_of_play {settings : Settings ν} {sink : String} {probe : ν}
    {as : List (Act α ν)} {t : State α ν} (h : State.play? settings sink probe as = some t)
    (hcalm : Calm as) : Steady t := by
  obtain ⟨s, hspawn, hrun⟩ := spawn_of_play h
  exact steady_of_race (.spawn hspawn) hcalm hrun

/-- An engine of which nobody has asked anything yet: its seed probe has counted,
and both of its tasks are at their first wait. -/
structure Fresh (s : State α ν) : Prop where
  offers : s.offers = []
  line : s.line = []
  scheduler : s.scheduler = .parked
  prober : s.prober = .sleeping
  closing : s.closing = false
  buffer : ∃ start, s.buffer = .empty start
  counters : s.counters = Metrics.Counters.probed {}
  log : ∃ before after millis,
    s.log = [(after, .learned millis), (before, .called .starter .probe)]

theorem fresh_of_spawn {settings : Settings ν} {sink : String} {now delay : Nat}
    {reply : ProbeReply ν} {s : State α ν}
    (h : State.spawn settings sink now delay reply = .ok s) : Fresh s := by
  simp only [State.spawn, State.build] at h
  split at h
  · cases h
  · split at h
    · cases h
    · simp only [bind, Except.bind, State.seed] at h
      split at h
      · rename_i millis _
        have hs := Except.ok.inj h
        subst hs
        exact ⟨rfl, rfl, rfl, rfl, rfl, ⟨_, rfl⟩, rfl, ⟨_, _, millis, rfl⟩⟩
      · cases h

/-! ## What holds in every state -/

/-- What holds where an engine starts and every move keeps and any order of the line keeps
holds whatever the timing of the tasks. -/
theorem raced_induction {P : State α ν → Prop}
    (spawn : ∀ {settings : Settings ν} {sink : String} {now delay : Nat}
      {reply : ProbeReply ν} {s : State α ν},
      State.spawn settings sink now delay reply = .ok s → P s)
    (move : ∀ {s t : State α ν} {e : Event α ν}, Raced s → Move s e t → P s → P t)
    (reorder : ∀ {s : State α ν} {line : List Waiter}, s.line.Perm line → P s →
      P { s with line })
    {s : State α ν} (hs : Raced s) : P s := by
  induction hs with
  | spawn h => exact spawn h
  | act hs h ih => exact act_keeps (move hs) reorder h ih

/-- An engine that has started is fresh, and for most invariants that is enough. -/
theorem of_raced {P : State α ν → Prop} (fresh : ∀ {s : State α ν}, Fresh s → P s)
    (move : ∀ {s t : State α ν} {e : Event α ν}, Raced s → Move s e t → P s → P t)
    (reorder : ∀ {s : State α ν} {line : List Waiter}, s.line.Perm line → P s →
      P { s with line })
    {s : State α ν} (hs : Raced s) : P s :=
  raced_induction (fun h => fresh (fresh_of_spawn h)) move reorder hs

/-- What a fresh engine has and every move but a crash keeps and any order of the line keeps
holds in every steady state. -/
theorem of_steady {P : State α ν → Prop} (fresh : ∀ {s : State α ν}, Fresh s → P s)
    (move : ∀ {s t : State α ν} {e : Event α ν},
      Steady s → e.crashes = false → Move s e t → P s → P t)
    (reorder : ∀ {s : State α ν} {line : List Waiter}, s.line.Perm line → P s →
      P { s with line })
    {s : State α ν} (hs : Steady s) : P s := by
  induction hs with
  | spawn h => exact fresh (fresh_of_spawn h)
  | @act s t a hs calm h ih =>
    cases a with
    | event e => exact move hs calm (move_of_step h) ih
    | reorder line =>
      obtain ⟨order, rfl⟩ := reorder_of_act h
      exact reorder order ih

end Engine
end AdaptiveBatch
