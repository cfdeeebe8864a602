import AdaptiveBatch.Proofs.Decimal.Count
import AdaptiveBatch.Proofs.Engine.Deferral
import AdaptiveBatch.Proofs.Engine.Failure
import AdaptiveBatch.Proofs.Engine.Race
import AdaptiveBatch.Proofs.Metrics.Recorder

/-!
# The gauge of buffered items

A tick that finds something in the buffer ends in one of two ways.  It waits on, and then
it sets the gauge to what it leaves; or it hands everything over and lets go of an empty
buffer once the flush has returned, and then it leaves the gauge alone.  So the gauge shows
what the last tick that waited has found, and from the next flush on it is wrong until
another tick waits.
-/

namespace AdaptiveBatch
namespace Engine

open Metrics

variable {α ν : Type}

/-! ## Ticks that find something -/

/-- How a tick that has found something lets go of the buffer lock. -/
inductive Release where
  /-- It waits on. -/
  | deferred
  /-- Its flush has returned. -/
  | flushed
  deriving DecidableEq, Repr

/-- The end of a tick that an entry tells of. -/
def Entry.release? : Entry α ν → Option Release
  | .deferred .. => some .deferred
  | .returned _ r _ => r.flush?.map fun _ => .flushed
  | _ => none

namespace State

/-- How much each tick that found something has found. -/
def ticks (s : State α ν) : List Nat :=
  s.seen fun
    | .deferred size _ _ _ | .flushing size _ _ _ _ => some size
    | _ => none

/-- The ticks that have found something and let go of the buffer lock, in their order. -/
def releases (s : State α ν) : List Release := s.seen Entry.release?

/-- What the gauge of buffered items shows, if it was ever set. -/
def shownSize? (s : State α ν) : Option ν := s.recorder.gauge? (.bufferedItems s.settings.name)

/-- The gauge, if it was ever set, shows how much is buffered. -/
def UpToDate [Number ν] (s : State α ν) : Prop :=
  ∀ shown, s.shownSize? = some shown → shown = Number.ofCount s.buffer.size

end State

theorem releases_returned (s : State α ν) (c : Caller) (r : Request α) (fault : Option Fault) :
    (s.note (.returned c r fault)).releases =
      s.releases ++ (r.flush?.map fun _ => Release.flushed).toList :=
  seen_of_log (f := Entry.release?) (e := .returned c r fault) rfl

theorem releases_of_direct (s : State α ν) (c : Caller) (o : Offer α) (fault : Option Fault) :
    (s.note (.returned c o.request fault)).releases = s.releases := by
  rw [releases_returned, flush?_request]
  exact List.append_nil _

theorem releases_of_flush (s : State α ν) (items : List α) (fault : Option Fault) :
    (s.note (.returned .scheduler (State.flushRequest items) fault)).releases =
      s.releases ++ [.flushed] := by
  rw [releases_returned, flush?_flushRequest]
  rfl

/-- The scheduler is at work or has come to its end, and no call has brought it down. -/
def State.Live (s : State α ν) : Prop := s.scheduler ≠ .ended true

/-- A scheduler that goes on to a phase in which it does not hold the lock either. -/
theorem lock_of_turn {s t : State α ν} {p : SchedulerPhase α ν} (turn : s.scheduler = p)
    (live : p ≠ .ended true) (free : s.lockHeld = false) (free' : t.lockHeld = false) :
    t.Live → s.Live ∧ t.lockHeld = s.lockHeld :=
  fun _ => ⟨by rw [State.Live, turn]; exact live, free'.trans free.symm⟩

/-! ## What a step has to do with the gauge -/

variable [Number ν]

/-- The part that a step from `s` to `t` has in a tick that finds something. -/
inductive Marks (s t : State α ν) : Prop
  | aside (ticks : t.ticks = s.ticks) (releases : t.releases = s.releases)
      (skips : t.skips = s.skips) (shown : t.shownSize? = s.shownSize?)
      (lock : t.Live → s.Live ∧ t.lockHeld = s.lockHeld)
  /-- A tick waits on. -/
  | defers (live : s.Live) (free : s.lockHeld = false ∧ t.lockHeld = false)
      (found : 0 < t.buffer.size) (ticks : t.ticks = s.ticks ++ [t.buffer.size])
      (releases : t.releases = s.releases ++ [.deferred])
      (skips : t.skips = s.skips ++ [t.buffer.size])
      (shown : t.shownSize? = some (Number.ofCount t.buffer.size))
  /-- A flush begins, and keeps the lock. -/
  | flushes (live : s.Live) (lock : s.lockHeld = false ∧ t.lockHeld = true)
      (found : 0 < s.buffer.size) (ticks : t.ticks = s.ticks ++ [s.buffer.size])
      (releases : t.releases = s.releases) (skips : t.skips = s.skips)
      (shown : t.shownSize? = s.shownSize?)
  /-- A flush returns, and lets go of the lock. -/
  | returns (live : s.Live) (lock : s.lockHeld = true ∧ t.lockHeld = false)
      (empty : t.buffer.size = 0) (ticks : t.ticks = s.ticks)
      (releases : t.releases = s.releases ++ [.flushed]) (skips : t.skips = s.skips)
      (shown : t.shownSize? = s.shownSize?)

theorem shownSize?_learn (s : State α ν) (millis : ν) :
    (s.learn millis).shownSize? = s.shownSize? := by
  have hset := fun r : Recorder ν => r.gauge?_set (k := .bufferedItems s.settings.name)
  show Recorder.gauge? (if s.model.enables millis then _ else _) _ = _
  split
  · exact (hset _ _ _).trans ((hset _ _ _).trans (hset _ _ _))
  · exact (hset _ _ _).trans (hset _ _ _)

theorem size_of_delivering {s : State α ν} (takenOut : TakenOut s) {items : List α}
    {reason : Flush.Reason} (delivering : s.scheduler = .delivering items reason) :
    s.buffer.size = 0 := by
  rw [← length_items, (takenOut delivering).1]
  rfl

theorem marks_move {s t : State α ν} {e : Event α ν} (h : Move s e t) (takenOut : TakenOut s) :
    Marks s t := by
  cases h with
  -- a direct send returns as a flush does, but no tick ends with it
  | @directReturns n k fault =>
    exact .aside rfl (releases_of_direct s (.offer n) k.offer fault) rfl rfl fun live => ⟨live, rfl⟩
  | shut free head turn =>
    exact .aside rfl rfl rfl rfl (lock_of_turn turn (by simp) free rfl)
  | idle free head turn =>
    exact .aside rfl rfl rfl rfl (lock_of_turn turn (by simp) free (lockHeld_proceed _))
  | unpark turn =>
    have free : s.lockHeld = false := by rw [State.lockHeld, turn]
    exact .aside rfl rfl rfl rfl (lock_of_turn turn (by simp) free (lockHeld_proceed _))
  | wake turn | takeGate turn | closeReturns turn | closeFails fault turn =>
    have free : s.lockHeld = false := by rw [State.lockHeld, turn]
    exact .aside rfl rfl rfl rfl (lock_of_turn turn (by simp) free rfl)
  | flushCrashes | closeCrashes =>
    exact .aside rfl rfl rfl rfl fun live => absurd rfl live
  | defer free head turn filled =>
    have hshown := s.recorder.gauge?_set (.bufferedItems s.settings.name)
    exact .defers (by rw [State.Live, turn]; simp) ⟨free, lockHeld_proceed _⟩ (size_pos filled)
      List.reverse_cons List.reverse_cons List.reverse_cons ((hshown _ _).trans (if_pos rfl))
  | flush free head turn filled =>
    have hticks := congrArg (s.ticks ++ [·]) (length_items s.buffer)
    exact .flushes (by rw [State.Live, turn]; simp) ⟨free, rfl⟩ (size_pos filled)
      (List.reverse_cons.trans hticks) rfl rfl rfl
  | learn =>
    exact .aside rfl rfl rfl (shownSize?_learn _ _) fun live => ⟨live, rfl⟩
  -- nothing can have joined what the flush emptied, since it has held the lock ever since
  | @flushReturns items reason delivering =>
    have hempty := size_of_delivering (s := s) takenOut delivering
    exact .returns (by rw [State.Live, delivering]; simp)
      ⟨lockHeld_of_delivering delivering, lockHeld_proceed _⟩ hempty rfl
      (releases_of_flush s items none) rfl rfl
  | @flushFails items reason fault delivering =>
    have hempty := size_of_delivering (s := s) takenOut delivering
    exact .returns (by rw [State.Live, delivering]; simp)
      ⟨lockHeld_of_delivering delivering, lockHeld_proceed _⟩ hempty rfl
      (releases_of_flush s items (some fault)) rfl rfl
  | _ => exact .aside rfl rfl rfl rfl fun live => ⟨live, rfl⟩

/-! ## What the gauge shows -/

theorem marks_act {s t : State α ν} {a : Act α ν} (hs : Raced s) (h : s.act? a = some t) :
    Marks s t := by
  cases a with
  | event e => exact marks_move (move_of_step h) (takenOut_of_raced hs)
  | reorder line =>
    obtain ⟨-, rfl⟩ := reorder_of_act h
    exact .aside rfl rfl rfl rfl fun live => ⟨live, rfl⟩

/-- The gauge and the lock tell of the ticks that have found something. -/
structure Gauged (s : State α ν) : Prop where
  /-- The gauge shows what the last tick that waited has found. -/
  shown : s.shownSize? = s.skips.getLast?.map Number.ofCount
  found : ∀ n ∈ s.skips, 0 < n
  /-- A tick that has found something has let go of the lock, or its flush still holds it. -/
  accounted : s.Live → s.ticks.length = s.releases.length + if s.lockHeld then 1 else 0

/-- Where no tick waits, only the lock is to be accounted for. -/
theorem Gauged.keep {s t : State α ν} (hs : Gauged s) (skips : t.skips = s.skips)
    (shown : t.shownSize? = s.shownSize?)
    (accounted : t.Live → t.ticks.length = t.releases.length + if t.lockHeld then 1 else 0) :
    Gauged t := by
  refine ⟨?_, ?_, accounted⟩
  · rw [shown, skips]
    exact hs.shown
  · rw [skips]
    exact hs.found

theorem gauged_of_marks {s t : State α ν} (h : Marks s t) (hs : Gauged s) : Gauged t := by
  cases h with
  | aside ticks releases skips shown lock =>
    refine hs.keep skips shown fun live => ?_
    obtain ⟨live, same⟩ := lock live
    rw [ticks, releases, same]
    exact hs.accounted live
  | flushes live lock found ticks releases skips shown =>
    refine hs.keep skips shown fun _ => ?_
    have haccounted := hs.accounted live
    rw [lock.1] at haccounted
    rw [ticks, releases, lock.2, List.length_append, haccounted]
    rfl
  | returns live lock empty ticks releases skips shown =>
    refine hs.keep skips shown fun _ => ?_
    have haccounted := hs.accounted live
    rw [lock.1] at haccounted
    rw [ticks, releases, lock.2, List.length_append, haccounted]
    rfl
  | defers live free found ticks releases skips shown =>
    refine ⟨?_, ?_, fun _ => ?_⟩
    · rw [shown, skips, List.getLast?_concat]
      rfl
    · intro n hn
      rw [skips, List.mem_append, List.mem_singleton] at hn
      rcases hn with hn | rfl
      · exact hs.found n hn
      · exact found
    · have haccounted := hs.accounted live
      rw [free.1] at haccounted
      rw [ticks, releases, free.2, List.length_append, List.length_append, haccounted]
      rfl

theorem shownSize?_of_spawn {settings : Settings ν} {sink : String} {now delay : Nat}
    {reply : ProbeReply ν} {s : State α ν}
    (h : State.spawn settings sink now delay reply = .ok s) : s.shownSize? = none := by
  obtain ⟨b, seed, blank, _, rfl⟩ := blank_of_spawn h
  have hblank : b.shownSize? = none := by
    rw [State.shownSize?, blank.recorder]
    rfl
  exact (shownSize?_learn b seed).trans hblank

theorem gauged_of_raced {s : State α ν} (hs : Raced s) : Gauged s := by
  induction hs with
  | @spawn settings sink now delay reply s h =>
    have fresh := fresh_of_spawn h
    have hskips : s.skips = [] := seen_fresh fresh rfl fun _ => rfl
    have hticks : s.ticks = [] := seen_fresh fresh rfl fun _ => rfl
    have hreleases : s.releases = [] := seen_fresh fresh rfl fun _ => rfl
    refine ⟨?_, ?_, fun _ => ?_⟩
    · rw [shownSize?_of_spawn h, hskips]
      rfl
    · rw [hskips]
      exact fun n hn => nomatch hn
    · have free : s.lockHeld = false := by rw [State.lockHeld, fresh.scheduler]
      rw [hticks, hreleases, free]
      rfl
  | act hs h ih => exact gauged_of_marks (marks_act hs h) ih

/-! ## When the gauge is right -/

theorem upToDate_of_shown {s : State α ν}
    (shown : s.shownSize? = some (Number.ofCount s.buffer.size)) : s.UpToDate :=
  fun _ h => (Option.some.inj (shown.symm.trans h)).symm

/-- Once a tick has waited, the gauge is wrong whenever the buffer is empty. -/
theorem upToDate_iff_of_empty {s : State α Float} (hs : Gauged s) (empty : s.buffer.size = 0) :
    s.UpToDate ↔ s.skips = [] := by
  constructor
  · intro upToDate
    by_contra waited
    obtain ⟨n, hlast⟩ : ∃ n, s.skips.getLast? = some n :=
      Option.ne_none_iff_exists'.mp (mt List.getLast?_eq_none_iff.mp waited)
    have hn : 0 < n := hs.found n (List.mem_of_getLast? hlast)
    have hshown : s.shownSize? = some (Number.ofCount n) := by
      rw [hs.shown, hlast]
      rfl
    have hzero := upToDate _ hshown
    rw [empty] at hzero
    exact Decimal.ofCount_ne_zero hn hzero
  · intro never shown hshown
    rw [hs.shown, never] at hshown
    cases hshown

/-- How the gauge of buffered items follows an engine. -/
structure Trails (s : State α Float) : Prop extends Gauged s where
  /-- Ticks wait, or they begin a flush and the flush returns; what else happens leaves the
  gauge alone. -/
  marks : ∀ {a t}, s.act? a = some t → Marks s t
  /-- Until a tick waits again, the gauge stands. -/
  stands : ∀ {as t}, s.race? as = some t → t.skips = s.skips → t.shownSize? = s.shownSize?
  /-- The gauge is right after a tick that waits, and after a flush only if none ever has. -/
  upToDate_iff : ∀ {a t r}, s.act? a = some t → t.releases = s.releases ++ [r] →
    (t.UpToDate ↔ r = .deferred ∨ t.skips = [])

/-- Whatever the sink does and whatever the timing of the tasks, the gauge is kept up to date
by ticks that wait, and by no flush. -/
theorem trails_of_raced {s : State α Float} (hs : Raced s) : Trails s := by
  have gauged := gauged_of_raced hs
  refine ⟨gauged, fun h => marks_act hs h, ?_, ?_⟩
  · intro as t h same
    rw [(gauged_of_raced (raced_of_race hs h)).shown, same, gauged.shown]
  · intro a t r h hreleases
    have hnone : t.releases ≠ s.releases := by
      rw [hreleases]
      simp
    cases marks_act hs h with
    | aside _ releases => exact absurd releases hnone
    | flushes _ _ _ _ releases => exact absurd releases hnone
    | defers _ _ _ _ releases _ shown =>
      obtain rfl : r = .deferred := by simpa using hreleases.symm.trans releases
      exact iff_of_true (upToDate_of_shown shown) (.inl rfl)
    | returns _ _ empty _ releases =>
      obtain rfl : r = .flushed := by simpa using hreleases.symm.trans releases
      simpa using upToDate_iff_of_empty (gauged_of_raced (.act hs h)) empty

/-- Settings with time for one item to be waited on for a while. -/
def tolerant : Settings Float := { (.standard : Settings Float) with itemCeiling := 100.0 }

/-- One item is waited on in the first tick, and is being flushed in the second. -/
def waitThenFlush : List (Act Nat Float) :=
  List.map .event [.offer (.one 7), .enter 0, .acquire, .schedulerWakes, .elapse 9,
    .schedulerWakes, .acquire, .elapse 9, .schedulerWakes, .acquire]

theorem trails_of_waitThenFlush :
    ∃ s t, State.play? tolerant "sink" 10.0 waitThenFlush = some s ∧ Raced s ∧
      s.step? (.flushReturns none) = some t ∧ s.skips = [1] ∧
      t.releases = s.releases ++ [.flushed] ∧ Trails s := by
  have hplay : (State.play? tolerant "sink" 10.0 waitThenFlush).bind (fun s =>
      (s.step? (.flushReturns none)).map fun t => (s.skips, s.releases, t.releases)) =
      some ([1], [.deferred], [.deferred, .flushed]) := by decide +kernel
  obtain ⟨s, hs, hnext⟩ := Option.bind_eq_some_iff.mp hplay
  obtain ⟨t, ht, hfacts⟩ := Option.map_eq_some_iff.mp hnext
  simp only [Prod.mk.injEq] at hfacts
  obtain ⟨hskips, hbefore, hafter⟩ := hfacts
  have raced : Raced s := raced_of_play hs
  refine ⟨s, t, hs, raced, ht, hskips, ?_, trails_of_raced raced⟩
  rw [hbefore, hafter]
  rfl

/-- The flush lets go of an empty buffer, and the gauge still shows the item that the tick
before it had waited on. -/
theorem stale_after_flush :
    ∃ s t, State.play? tolerant "sink" 10.0 waitThenFlush = some s ∧
      Calm (waitThenFlush ++ [.event (.flushReturns none)]) ∧ s.step? (.flushReturns none) = some t ∧
      s.releases = [.deferred] ∧ t.releases = [.deferred, .flushed] ∧
      t.buffer.size = 0 ∧ t.shownSize? = some (Number.ofCount 1) ∧ ¬t.UpToDate := by
  have hplay : (State.play? tolerant "sink" 10.0 waitThenFlush).bind (fun s =>
      (s.step? (.flushReturns none)).map fun t =>
        (s.releases, t.releases, t.buffer.size, t.shownSize?)) =
      some ([.deferred], [.deferred, .flushed], 0, some (Number.ofCount 1)) := by decide +kernel
  obtain ⟨s, hs, hnext⟩ := Option.bind_eq_some_iff.mp hplay
  obtain ⟨t, ht, hfacts⟩ := Option.map_eq_some_iff.mp hnext
  simp only [Prod.mk.injEq] at hfacts
  obtain ⟨hbefore, hafter, hempty, hshown⟩ := hfacts
  refine ⟨s, t, hs, by decide, ht, hbefore, hafter, hempty, hshown, fun upToDate => ?_⟩
  have hzero := upToDate _ hshown
  rw [hempty] at hzero
  exact Decimal.ofCount_ne_zero Nat.one_pos hzero

end Engine
end AdaptiveBatch
