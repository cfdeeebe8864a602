import AdaptiveBatch.Proofs.Engine.Race

/-!
# What the log tells

The log is all that can be observed of an engine, and what is claimed of runs is
claimed of it.  Each view below picks some entries out of the log and lists what
they say, the earliest first.  A view is computed from the latest entry on, so an
entry that it does not pick leaves it as it is by definition.
-/

namespace AdaptiveBatch

namespace Request

variable {α : Type}

/-- The items of a call that a flush makes. -/
def flush? : Request α → Option (List α)
  | .sendBatch xs => some xs
  | .sendSingle x => some [x]
  | .probe | .close | .sendDirect _ | .sendDirectAll _ => none

/-- The items of a call that an offer makes. -/
def direct? : Request α → Option (List α)
  | .sendDirect x => some [x]
  | .sendDirectAll xs => some xs
  | .probe | .close | .sendBatch _ | .sendSingle _ => none

/-- Whether a call hands anything to the sink. -/
def isSend : Request α → Bool
  | .sendDirect _ | .sendDirectAll _ | .sendBatch _ | .sendSingle _ => true
  | .probe | .close => false

end Request

namespace Engine

variable {α ν : Type}

/-- The offer that an entry is about. -/
def Entry.number? : Entry α ν → Option Nat
  | .offered n _ | .called (.offer n) _ | .returned (.offer n) _ _ | .appended n _
  | .answered n _ => some n
  | _ => none

/-- What an entry says of the call that somebody has in progress. -/
def Entry.progress? (c : Caller) : Entry α ν → Option (Option (Request α))
  | .called d r => if d = c then some (some r) else none
  | .returned d _ _ => if d = c then some none else none
  | _ => none

namespace State

/-- What the entries of the log that `f` picks say, the earliest first. -/
def seen {β : Type} (s : State α ν) (f : Entry α ν → Option β) : List β :=
  (s.log.filterMap fun (_, e) => f e).reverse

/-- All entries of the log. -/
def history (s : State α ν) : List (Entry α ν) := s.seen some

/-- All that happened to an offer: its arrival, its calls, its joining the buffer and
its end. -/
def story (s : State α ν) (n : Nat) : List (Entry α ν) :=
  s.seen fun e => if e.number? = some n then some e else none

/-- The lists that flushes have handed to the sink, those under way included. -/
def flushed (s : State α ν) : List (List α) :=
  s.seen fun
    | .called _ r => r.flush?
    | _ => none

/-- The lists that have joined the buffer. -/
def appended (s : State α ν) : List (List α) :=
  s.seen fun
    | .appended _ xs => some xs
    | _ => none

/-- The calls of the sink, each with its caller. -/
def begun (s : State α ν) : List (Caller × Request α) :=
  s.seen fun
    | .called c r => some (c, r)
    | _ => none

/-- The calls that handed anything to the sink. -/
def sends (s : State α ν) : List (Caller × Request α) :=
  s.seen fun
    | .called c r => if r.isSend then some (c, r) else none
    | _ => none

/-- Those who have called the sink to close it. -/
def closers (s : State α ν) : List Caller :=
  s.seen fun
    | .called c .close => some c
    | _ => none

/-- The call that somebody has begun last, unless it has returned. -/
def openCall? (s : State α ν) (c : Caller) : Option (Request α) :=
  (s.seen (Entry.progress? c)).getLast?.join

end State

theorem seen_of_log {β : Type} {s t : State α ν} {f : Entry α ν → Option β} {now : Nat}
    {e : Entry α ν} (h : t.log = (now, e) :: s.log) : t.seen f = s.seen f ++ (f e).toList := by
  simp only [State.seen, h, List.filterMap_cons]
  cases f e with
  | none => simp
  | some b => simp

/-- An entry that a view does not pick leaves it as it is, even where that takes a look at
the entry. -/
theorem seen_of_skipped {β : Type} {t : State α ν} {f : Entry α ν → Option β} {now : Nat}
    {e : Entry α ν} {earlier : List (Nat × Entry α ν)} (h : t.log = (now, e) :: earlier)
    (skipped : f e = none) : t.seen f = State.seen { t with log := earlier } f := by
  rw [seen_of_log (s := { t with log := earlier }) h, skipped]
  exact List.append_nil _

/-- A view of what another view shows is a view. -/
theorem seen_filterMap {β γ : Type} (s : State α ν) (f : Entry α ν → Option β)
    (g : β → Option γ) : (s.seen f).filterMap g = s.seen fun e => (f e).bind g := by
  rw [State.seen, State.seen, List.filterMap_reverse, List.filterMap_filterMap]

theorem flushed_of_called {s t : State α ν} {now : Nat} {c : Caller} {r : Request α}
    (h : t.log = (now, .called c r) :: s.log) : t.flushed = s.flushed ++ r.flush?.toList :=
  seen_of_log h

theorem mem_seen {β : Type} {s : State α ν} {f : Entry α ν → Option β} {b : β} :
    b ∈ s.seen f ↔ ∃ e ∈ s.history, f e = some b := by
  simp only [State.history, State.seen, List.mem_reverse, List.mem_filterMap]
  constructor
  · rintro ⟨p, hp, hb⟩
    exact ⟨p.2, ⟨p, hp, rfl⟩, hb⟩
  · rintro ⟨e, ⟨p, hp, he⟩, hb⟩
    obtain rfl := Option.some.inj he
    exact ⟨p, hp, hb⟩

theorem mem_story {s : State α ν} {n : Nat} {e : Entry α ν} :
    e ∈ s.story n ↔ e ∈ s.history ∧ e.number? = some n := by
  rw [State.story, mem_seen]
  constructor
  · rintro ⟨e', he', h⟩
    split at h
    · rename_i hn
      obtain rfl := Option.some.inj h
      exact ⟨he', hn⟩
    · cases h
  · rintro ⟨he, hn⟩
    exact ⟨e, he, by simp [hn]⟩

/-- A view shows nothing of a fresh engine if it picks neither the seed probe nor its
answer. -/
theorem seen_fresh [Number ν] {β : Type} {s : State α ν} (h : Fresh s)
    {f : Entry α ν → Option β} (seed : f (.called .starter .probe) = none)
    (answer : ∀ millis, f (.learned millis) = none) : s.seen f = [] := by
  obtain ⟨before, after, millis, hlog⟩ := h.log
  simp [State.seen, hlog, answer, seed]

/-- What a view has shown it goes on showing. -/
theorem seen_of_suffix {β : Type} {s t : State α ν} (h : s.log <:+ t.log)
    (f : Entry α ν → Option β) : s.seen f <+: t.seen f := by
  rw [State.seen, State.seen, List.reverse_prefix]
  exact h.filterMap _

theorem seen_race [Number ν] {β : Type} {s t : State α ν} {as : List (Act α ν)}
    (h : s.race? as = some t) (f : Entry α ν → Option β) : s.seen f <+: t.seen f := by
  have hlog : s.log <:+ t.log :=
    race_keeps (P := fun u => s.log <:+ u.log) (fun hmove hu => hu.trans (log_move hmove))
      (fun _ hu => hu) h List.suffix_rfl
  exact seen_of_suffix hlog f

/-- A view that picks what is said about one offer is a view of its story. -/
theorem seen_eq_story {β : Type} (s : State α ν) {f : Entry α ν → Option β} {n : Nat}
    (only : ∀ {e b}, f e = some b → e.number? = some n) :
    s.seen f = (s.story n).filterMap f := by
  simp only [State.story, State.seen]
  rw [List.filterMap_reverse, List.filterMap_filterMap]
  congr 2
  funext ⟨_, e⟩
  cases hf : f e with
  | none => split <;> simp [hf]
  | some b => simp [only hf, hf]

end Engine
end AdaptiveBatch
