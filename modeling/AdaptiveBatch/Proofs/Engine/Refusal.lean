import AdaptiveBatch.Proofs.Engine.Absence
import AdaptiveBatch.Proofs.Engine.Shutdown
import AdaptiveBatch.Proofs.Engine.Start

/-!
# Refused offers

Once shutdown has been requested an offer is refused, and it is refused for that only
then.  Wherever an offer finds out, at the shutdown check, behind a scheduler that has
taken the gate, or at the sealed buffer, it leaves the engine as if it had not come.  An
offer whose sink call fails leaves the record of that call and no more.
-/

namespace AdaptiveBatch
namespace Engine

variable {α ν : Type}

/-- All that is told of an offer that found the engine closed. -/
def State.refusal (s : State α ν) (n : Nat) (o : Offer α) : List (Entry α ν) :=
  [.offered n o, .answered n (.refused (.closed s.settings.name))]

/-- The offers that found the engine closed. -/
def State.turnedAway (s : State α ν) : List Nat :=
  s.seen fun
    | .answered n (.refused (.closed _)) => some n
    | _ => none

variable [Number ν]

/-! ## What the others leave alone -/

theorem ticket?_other {s t : State α ν} {e : Event α ν} {n : Nat} (h : Move s e t)
    (ho : Orderly s) (known : n < s.nextNumber) (other : s.mover? (.event e) ≠ some n) :
    t.ticket? n = s.ticket? n := by
  cases h with
  | offer filled =>
    exact (ticket?_append s _ n ho.unknown).trans (if_neg (Nat.ne_of_lt known))
  | @refuse m | @directReturns m | @directCrashes m =>
    have hm : n ≠ m := fun e => other (e ▸ rfl)
    exact (ticket?_answer s m n .accepted).trans (if_neg hm)
  | @lineUp m | @send m =>
    have hm : n ≠ m := fun e => other (e ▸ rfl)
    refine (ticket?_setPhase s m n _).trans ?_
    simp [hm]
  | @bounce m k rest free head | @append m k rest free head =>
    have hm : n ≠ m := fun e => head_ne_of_mover head other (e ▸ rfl)
    exact (ticket?_answer s m n .accepted).trans (if_neg hm)
  | _ => rfl

theorem story_unmoved {s t : State α ν} {e : Event α ν} {n : Nat} (h : Move s e t)
    (known : n < s.nextNumber) (other : s.mover? (.event e) ≠ some n) :
    t.story n = s.story n := by
  cases h with
  | @offerNothing o =>
    exact story_other [.offered s.nextNumber o, .answered s.nextNumber .accepted] rfl
      (by simp [Entry.number?]) (Nat.ne_of_lt known)
  | @offer o =>
    exact story_other [.offered s.nextNumber o] rfl (by simp [Entry.number?])
      (Nat.ne_of_lt known)
  | @refuse m =>
    exact story_other [.answered m _] rfl (by simp [Entry.number?]) fun e => other (e ▸ rfl)
  | @directCrashes m =>
    exact story_other [.answered m .crashed] rfl (by simp [Entry.number?])
      fun e => other (e ▸ rfl)
  | @send m k =>
    exact story_other [.called (.offer m) k.offer.request] rfl (by simp [Entry.number?])
      fun e => other (e ▸ rfl)
  | @directReturns m k fault =>
    exact story_other
      [.returned (.offer m) k.offer.request fault, .answered m (.ofSend fault)] rfl
      (by simp [Entry.number?]) fun e => other (e ▸ rfl)
  | @bounce m k rest free head =>
    exact story_other [.answered m _] rfl (by simp [Entry.number?])
      fun e => head_ne_of_mover head other (e ▸ rfl)
  | @append m k rest free head =>
    exact story_other [.appended m k.offer.items, .answered m .accepted] rfl
      (by simp [Entry.number?]) fun e => head_ne_of_mover head other (e ▸ rfl)
  | _ => rfl

/-! ## Late offers -/

/-- The offer has come to an engine that is closing, and waits at the gate or is refused. -/
structure Late (s : State α ν) (n : Nat) : Prop where
  closing : s.closing = true
  silent : s.Silent n
  waits : ∀ {k}, s.ticket? n = some k → k.phase = .atGate

theorem late_move {s t : State α ν} {e : Event α ν} {n : Nat} (h : Move s e t)
    (ho : Orderly s) (known : n < s.nextNumber) (hs : Late s n) : Late t n := by
  by_cases own : s.mover? (.event e) = some n
  · cases ownMove_of_mover h own with
    | refuse =>
      refine ⟨hs.closing, ?_, ?_⟩
      · rw [State.Silent, story_own [.answered n _] rfl (by simp [Entry.number?])]
        intro entry hmem
        rcases List.mem_append.mp hmem with hmem | hmem
        · exact hs.silent entry hmem
        · exact .inr ⟨_, List.mem_singleton.mp hmem⟩
      · intro k hk
        rw [ticket?_answer, if_pos rfl] at hk
        cases hk
    | lineUp found phase opened running | send found phase opened running =>
      rw [hs.closing] at running
      cases running
    | bounce free head found | append free head found =>
      have waits := hs.waits found
      rw [ho.atLock_of_head head found] at waits
      cases waits
    | nobody => exact ⟨hs.closing, hs.silent, hs.waits⟩
    | directReturns _ found phase | directCrashes found phase =>
      have waits := hs.waits found
      rw [phase] at waits
      cases waits
  · refine ⟨closing_move h hs.closing, ?_, ?_⟩
    · rw [State.Silent, story_unmoved h known own]
      exact hs.silent
    · rw [ticket?_other h ho known own]
      exact hs.waits

theorem late_race {s t : State α ν} {as : List (Act α ν)} {n : Nat} (ho : Orderly s)
    (known : n < s.nextNumber) (hs : Late s n) (h : s.race? as = some t) : Late t n := by
  have hkept : Orderly t ∧ n < t.nextNumber ∧ Late t n := by
    refine race_keeps (P := fun u => Orderly u ∧ n < u.nextNumber ∧ Late u n) ?_ ?_ h
      ⟨ho, known, hs⟩
    · rintro s t e hmove ⟨ho, known, hs⟩
      exact ⟨orderly_move hmove ho, Nat.lt_of_lt_of_le known (nextNumber_move hmove),
        late_move hmove ho known hs⟩
    · rintro s line order ⟨ho, known, hs⟩
      exact ⟨orderly_reorder order ho, known, hs.closing, hs.silent, hs.waits⟩
  exact hkept.2.2

/-! ## How an offer arrives -/

theorem known_of_arrival {s u : State α ν} {o : Offer α} (h : s.step? (.offer o) = some u) :
    s.nextNumber < u.nextNumber := by
  cases move_of_step h <;> exact Nat.lt_succ_self _

theorem story_of_arrival {s u : State α ν} {o : Offer α} (told : Told s)
    (h : s.step? (.offer o) = some u) :
    [.offered s.nextNumber o] <+: u.story s.nextNumber := by
  have hnone := told.future (Nat.le_refl s.nextNumber)
  cases move_of_step h with
  | offerNothing =>
    rw [story_own (s := s) [.offered s.nextNumber o, .answered s.nextNumber .accepted] rfl
      (by simp [Entry.number?]), hnone]
    exact ⟨_, rfl⟩
  | offer =>
    rw [story_own (s := s) [.offered s.nextNumber o] rfl (by simp [Entry.number?]), hnone]
    exact List.prefix_refl _

theorem late_of_arrival {s u : State α ν} {o : Offer α} (told : Told s) (ho : Orderly s)
    (closing : s.closing = true) (filled : o.items ≠ []) (h : s.step? (.offer o) = some u) :
    Late u s.nextNumber := by
  cases move_of_step h with
  | offerNothing empty => exact absurd empty filled
  | offer =>
    refine ⟨closing, ?_, ?_⟩
    · rw [State.Silent, story_own (s := s) [.offered s.nextNumber o] rfl
        (by simp [Entry.number?]), told.future (Nat.le_refl _)]
      intro e he
      exact .inl ⟨o, List.mem_singleton.mp he⟩
    · intro k hk
      have hticket := ticket?_append s
        { number := s.nextNumber, offer := o, phase := .atGate } s.nextNumber ho.unknown
      rw [if_pos rfl] at hticket
      rw [← Option.some.inj (hticket.symm.trans hk)]

theorem lacking_of_arrival {s u : State α ν} {o : Offer α} (ho : Orderly s) (told : Told s)
    (h : s.step? (.offer o) = some u) :
    u.lacking s.nextNumber = { s with nextNumber := s.nextNumber + 1 } := by
  have hunknown : s.lacking s.nextNumber = s := by
    rw [lacking_of_gone ho ho.unknown, untold_of_story (told.future (Nat.le_refl _))]
  have hskipped : State.lacking { s with nextNumber := s.nextNumber + 1 } s.nextNumber =
      { s with nextNumber := s.nextNumber + 1 } :=
    congrArg (fun v : State α ν => { v with nextNumber := s.nextNumber + 1 }) hunknown
  cases move_of_step h with
  | offerNothing =>
    rw [lacking_note_own _ rfl, lacking_note_own _ rfl]
    exact hskipped
  | offer =>
    rw [lacking_note_own _ rfl]
    refine Eq.trans ?_ hskipped
    simp [State.lacking]

/-! ## What is told of an offer that has been refused -/

theorem turnedAway_move {s t : State α ν} {e : Event α ν} (h : Move s e t) (hs : Seals s)
    (turned : s.turnedAway ≠ [] → s.closing = true) : t.turnedAway ≠ [] → t.closing = true := by
  cases h with
  | close => exact fun _ => rfl
  | refuse found phase opened closing => exact fun _ => closing
  | bounce free head found sealed => exact fun _ => hs.sealed sealed
  | directReturns fault => cases fault <;> exact turned
  | _ => exact turned

/-- An offer finds the engine closed only once shutdown has been requested. -/
theorem closing_of_turnedAway {s : State α ν} (hs : Raced s) (turned : s.turnedAway ≠ []) :
    s.closing = true := by
  refine of_raced (P := fun s => s.turnedAway ≠ [] → s.closing = true) ?_ ?_ (fun _ hs => hs) hs
    turned
  · exact fun h turned => absurd (seen_fresh h rfl fun _ => rfl) turned
  · exact fun hs h => turnedAway_move h (seals_of_raced hs)

omit [Number ν] in
theorem offer_of_ended {name : String} {n : Nat} {o o' : Offer α} {es : List (Entry α ν)}
    (ended : Ended name n o' es) (arrived : [.offered n o] <+: es) : o' = o := by
  cases ended <;> simpa [eq_comm] using arrived

omit [Number ν] in
/-- What has been answered has ended, and its story is that of its end. -/
theorem ended_of_answered {s : State α ν} (told : Told s) {n : Nat} {o : Offer α}
    (arrived : [.offered n o] <+: s.story n) {outcome : Outcome ν}
    (h : .answered n outcome ∈ s.history) :
    s.ticket? n = none ∧ .answered n outcome ∈ s.story n ∧
      Ended s.settings.name n o (s.story n) := by
  have hmem : .answered n outcome ∈ s.story n := mem_story.mpr ⟨h, rfl⟩
  cases found : s.ticket? n with
  | some k =>
    rw [told.present found] at hmem
    cases phase : k.phase <;> simp [Ticket.tale, phase] at hmem
  | none =>
    rcases told.past found with hnone | ⟨o', ended⟩
    · rw [hnone] at hmem
      cases hmem
    · exact ⟨rfl, hmem, offer_of_ended ended arrived ▸ ended⟩

omit [Number ν] in
theorem story_of_refused {s : State α ν} (told : Told s) {n : Nat} {o : Offer α}
    {name : String} (arrived : [.offered n o] <+: s.story n)
    (h : .answered n (.refused (.closed name)) ∈ s.history) : s.story n = s.refusal n o := by
  obtain ⟨-, hmem, ended⟩ := ended_of_answered told arrived h
  generalize s.story n = story at hmem ended
  cases ended with
  | refused => rfl
  | sent filled fault => cases fault <;> simp [Outcome.ofSend] at hmem
  | nothing | crashed | joined => simp at hmem

omit [Number ν] in
theorem story_of_sink {s : State α ν} (told : Told s) {n : Nat} {o : Offer α} {fault : Fault}
    (arrived : [.offered n o] <+: s.story n)
    (h : .answered n (.refused (.sink fault)) ∈ s.history) :
    s.story n =
      [.offered n o, .called (.offer n) o.request, .returned (.offer n) o.request (some fault),
        .answered n (.refused (.sink fault))] := by
  obtain ⟨-, hmem, ended⟩ := ended_of_answered told arrived h
  generalize s.story n = story at hmem ended
  cases ended with
  | sent filled fault' =>
    cases fault' with
    | none => simp [Outcome.ofSend] at hmem
    | some f =>
      obtain rfl : fault = f := by simpa [Outcome.ofSend] using hmem
      rfl
  | nothing | refused | crashed | joined => simp at hmem

omit [Number ν] in
theorem story_of_late {s : State α ν} (told : Told s) {n : Nat} {o : Offer α}
    (arrived : [.offered n o] <+: s.story n) (late : Late s n) :
    (s.story n = [.offered n o] ∧ ∃ k, s.ticket? n = some k) ∨
      (s.story n = s.refusal n o ∧ s.ticket? n = none) := by
  have silent := late.silent
  rw [State.Silent] at silent
  cases found : s.ticket? n with
  | some k =>
    have htale := told.present found
    rw [tale_waiting (ticket?_number found) (by simp [late.waits found])] at htale
    rw [htale] at arrived ⊢
    exact .inl ⟨(arrived.eq_of_length rfl).symm, k, rfl⟩
  | none =>
    rcases told.past found with hnone | ⟨o', ended⟩
    · rw [hnone] at arrived
      exact absurd (List.prefix_nil.mp arrived) (by simp)
    · obtain rfl := offer_of_ended ended arrived
      refine .inr ⟨?_, rfl⟩
      generalize s.story n = story at ended silent
      cases ended with
      | refused => rfl
      | sent filled fault => cases fault <;> simp [Outcome.ofSend] at silent
      | nothing | crashed | joined => simp at silent

/-! ## Refusals leave no trace -/

/-- What is left of an offer `o` that comes to `s`, making it `u`, if it is refused before
the engine is `t`. -/
structure RefusesCleanly (s : State α ν) (o : Offer α) (u : State α ν) (as : List (Act α ν))
    (t : State α ν) : Prop where
  /-- An offer that comes after shutdown has been requested waits, or is refused for it. -/
  late : s.closing = true → o.items ≠ [] →
    t.story s.nextNumber = [.offered s.nextNumber o] ∨
      t.story s.nextNumber = s.refusal s.nextNumber o
  /-- It waits for the gate and nothing else, -/
  gate : s.closing = true → o.items ≠ [] → t.story s.nextNumber = [.offered s.nextNumber o] →
    t.gateOpen = true →
    ∃ v, t.step? (.enter s.nextNumber) = some v ∧
      v.story s.nextNumber = s.refusal s.nextNumber o
  /-- the tasks that could keep the gate from it have only so many steps left, -/
  bounded : s.closing = true → as.countP (·.isTask) ≤ u.work + as.countP (·.arrives)
  /-- and when no task can go on it has been refused. -/
  ends : s.closing = true → o.items ≠ [] → ¬ t.CanStep →
    t.story s.nextNumber = s.refusal s.nextNumber o
  /-- Whoever is told that the engine is closed is told so once shutdown has been requested.
  Nothing else has come of the offer, and if it had not come, the same acts of the others
  would have led to the same state. -/
  closed : ∀ {name}, .answered s.nextNumber (.refused (.closed name)) ∈ t.history →
    t.closing = true ∧ t.story s.nextNumber = s.refusal s.nextNumber o ∧
      State.race? { s with nextNumber := s.nextNumber + 1 } (u.others s.nextNumber as) =
        some (t.untold s.nextNumber)
  /-- Whoever is told of a fault of the sink has made the one call that had it, -/
  sink : ∀ {fault}, .answered s.nextNumber (.refused (.sink fault)) ∈ t.history →
    t.story s.nextNumber =
      [.offered s.nextNumber o, .called (.offer s.nextNumber) o.request,
        .returned (.offer s.nextNumber) o.request (some fault),
        .answered s.nextNumber (.refused (.sink fault))]
  /-- and on none of its steps has it touched the buffer. -/
  aloof : ∀ {fault}, .answered s.nextNumber (.refused (.sink fault)) ∈ t.history →
    u.buffer = s.buffer ∧ u.counters = s.counters ∧
      ∀ {before a after v w}, as = before ++ a :: after → u.race? before = some v →
        v.act? a = some w → v.mover? a = some s.nextNumber →
        w.buffer = v.buffer ∧ w.counters.bufferedItems = v.counters.bufferedItems

theorem aloof_of_sink {u t : State α ν} {as : List (Act α ν)} {n : Nat}
    (out : ∀ xs, .appended n xs ∉ t.story n) (h : u.race? as = some t)
    {before after : List (Act α ν)} {a : Act α ν} {v w : State α ν}
    (split : as = before ++ a :: after) (hbefore : u.race? before = some v)
    (hact : v.act? a = some w) (own : v.mover? a = some n) :
    w.buffer = v.buffer ∧ w.counters.bufferedItems = v.counters.bufferedItems := by
  obtain ⟨v', hv, hrest⟩ := race_split (split ▸ h)
  obtain rfl : v = v' := Option.some.inj (hbefore.symm.trans hv)
  obtain ⟨w', hw, hafter⟩ := race_cons.mp hrest
  obtain rfl : w = w' := Option.some.inj (hact.symm.trans hw)
  cases a with
  | event e =>
    refine buffer_own (ownMove_of_mover (move_of_step hact) own) fun xs hmem => out xs ?_
    exact (seen_race hafter _).subset hmem
  | reorder line => cases own

/-- Without an offer that is told that the engine is closed the others come to the same. -/
theorem untold_of_refused {s u t : State α ν} {o : Offer α} {as : List (Act α ν)}
    (hs : Raced s) (arrives : s.step? (.offer o) = some u) (h : u.race? as = some t)
    (arrived : [.offered s.nextNumber o] <+: t.story s.nextNumber) {name : String}
    (answered : .answered s.nextNumber (.refused (.closed name)) ∈ t.history) :
    State.race? { s with nextNumber := s.nextNumber + 1 } (u.others s.nextNumber as) =
      some (t.untold s.nextNumber) := by
  have ht : Raced t := raced_of_race (.act (a := .event (.offer o)) hs arrives) h
  have gone := (ended_of_answered (told_of_raced ht) arrived answered).1
  have silent : t.Silent s.nextNumber := by
    rw [State.Silent, story_of_refused (told_of_raced ht) arrived answered]
    simp [State.refusal]
  have hrest := lacking_race (known_of_arrival arrives) h silent
  rwa [lacking_of_arrival (orderly_of_raced hs) (told_of_raced hs) arrives,
    lacking_of_gone (orderly_of_raced ht) gone] at hrest

theorem refusesCleanly_of_offer {s u t : State α ν} {o : Offer α} {as : List (Act α ν)}
    (hs : Raced s) (arrives : s.step? (.offer o) = some u) (h : u.race? as = some t) :
    RefusesCleanly s o u as t := by
  have hu : Raced u := .act (a := .event (.offer o)) hs arrives
  have ht : Raced t := raced_of_race hu h
  have told := told_of_raced ht
  have known := known_of_arrival arrives
  have hsettings : t.settings = s.settings :=
    (settings_race h).trans (settings_move (move_of_step arrives))
  have hrefusal : t.refusal s.nextNumber o = s.refusal s.nextNumber o := by
    rw [State.refusal, hsettings, State.refusal]
  have arrived : [.offered s.nextNumber o] <+: t.story s.nextNumber :=
    (story_of_arrival (told_of_raced hs) arrives).trans (seen_race h _)
  have hlate : s.closing = true → o.items ≠ [] → Late t s.nextNumber := fun closing filled =>
    late_race (orderly_of_raced hu) known
      (late_of_arrival (told_of_raced hs) (orderly_of_raced hs) closing filled arrives) h
  constructor
  · intro closing filled
    rw [← hrefusal]
    exact (story_of_late told arrived (hlate closing filled)).imp And.left And.left
  · intro closing filled waiting opened
    have late := hlate closing filled
    rcases story_of_late told arrived late with ⟨_, k, found⟩ | ⟨ended, _⟩
    · have hmove := Move.refuse found (late.waits found) opened late.closing
      refine ⟨_, step_of_move hmove rfl, ?_⟩
      rw [story_own (s := t) [.answered s.nextNumber _] rfl (by simp [Entry.number?]), waiting,
        hsettings]
      rfl
    · rw [waiting] at ended
      cases ended
  · intro closing
    have hwork := work_race (closing_move (move_of_step arrives) closing) h
    omega
  · intro closing filled stuck
    have late := hlate closing filled
    have finished := finished_of_raced ht late.closing stuck
    rcases story_of_late told arrived late with ⟨_, k, found⟩ | ⟨ended, _⟩
    · rw [State.ticket?, finished.1] at found
      cases found
    · exact ended.trans hrefusal
  · intro name answered
    have turned : s.nextNumber ∈ t.turnedAway := mem_seen.mpr ⟨_, answered, rfl⟩
    have hstory := (story_of_refused told arrived answered).trans hrefusal
    exact ⟨closing_of_turnedAway ht (List.ne_nil_of_mem turned), hstory,
      untold_of_refused hs arrives h arrived answered⟩
  · exact story_of_sink told arrived
  · intro fault answered
    have hstory := story_of_sink told arrived answered
    have out : ∀ xs, .appended s.nextNumber xs ∉ t.story s.nextNumber := by
      rw [hstory]
      simp
    have harrival : u.buffer = s.buffer ∧ u.counters = s.counters := by
      cases move_of_step arrives <;> exact ⟨rfl, rfl⟩
    exact ⟨harrival.1, harrival.2, aloof_of_sink out h⟩

/-- An offer has passed the gate when shutdown is requested, and the scheduler takes the
lock before it. -/
def overtakenOffer : List (Act Nat Rat) :=
  [.event (.enter 0), .event .close, .event .schedulerWakes, .reorder [.scheduler, .offer 0],
    .event .acquire, .event .acquire]

theorem refusesCleanly_of_overtaken :
    ∃ s u t : State Nat Rat, State.spawn .standard "sink" 0 0 (.answer 50) = .ok s ∧
      s.step? (.offer (.one 1)) = some u ∧ u.race? overtakenOffer = some t ∧
      t.turnedAway = [0] ∧ t.buffer.sealed = true ∧
      RefusesCleanly s (.one 1) u overtakenOffer t := by
  have hplay : ((State.play? .standard "sink" 50 [.event (.offer (.one 1))]).bind
      (·.race? overtakenOffer)).map (fun t => (t.turnedAway, t.buffer.sealed)) =
        some ([0], true) := by
    decide +kernel
  obtain ⟨t, ht, hfacts⟩ := Option.map_eq_some_iff.mp hplay
  obtain ⟨u, hu, hrace⟩ := Option.bind_eq_some_iff.mp ht
  obtain ⟨s, hs, hrun⟩ := spawn_of_play hu
  obtain ⟨u', hoffer, hnil⟩ := race_cons.mp hrun
  obtain rfl : u' = u := Option.some.inj hnil
  exact ⟨s, u', t, hs, hoffer, hrace, congrArg Prod.fst hfacts, congrArg Prod.snd hfacts,
    refusesCleanly_of_offer (.spawn hs) hoffer hrace⟩

end Engine
end AdaptiveBatch
