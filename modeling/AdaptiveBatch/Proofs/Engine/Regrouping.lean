import Mathlib.Data.List.Basic
import AdaptiveBatch.Proofs.Engine.Absence
import AdaptiveBatch.Proofs.Engine.Ledger

/-!
# The grouping of items into offers

Once packing is on an offer does no more than append its items, and what it counts it counts
item by item.  So a list of items may be offered in any pieces: if nobody else takes a step
meanwhile, the engine comes to the state that one offer of the whole list leads to.
-/

namespace AdaptiveBatch
namespace Engine

variable {α ν : Type} [Number ν]

/-! ## Offers that have the engine to themselves -/

/-- Offer `n` takes its steps one after the other, and nobody else takes any.  Those in line
may have yet to ask for the lock, and the offer asks before them. -/
inductive Proceeds (n : Nat) : State α ν → State α ν → Prop where
  | stop (s : State α ν) : Proceeds n s s
  | step {s t u : State α ν} {e : Event α ν} (own : s.mover? (.event e) = some n)
      (h : s.step? e = some t) (rest : Proceeds n t u) : Proceeds n s u
  | ahead {s u : State α ν} {before after : List Waiter}
      (line : s.line = before ++ .offer n :: after)
      (rest : Proceeds n { s with line := .offer n :: (before ++ after) } u) : Proceeds n s u

/-- An offer comes and takes all its steps while nobody else takes one. -/
def Alone (s : State α ν) (o : Offer α) (t : State α ν) : Prop :=
  ∃ u, s.step? (.offer o) = some u ∧ Proceeds s.nextNumber u t ∧
    t.ticket? s.nextNumber = none

/-- The offers come one after the other, each when the one before it has ended. -/
def InTurn (s : State α ν) : List (Offer α) → State α ν → Prop
  | [], t => t = s
  | o :: rest, t => ∃ u, Alone s o u ∧ InTurn u rest t

/-- What an engine in packing mode that has not sealed its buffer says to an offer. -/
def State.verdict (s : State α ν) (o : Offer α) : Outcome ν :=
  if o.items = [] ∨ s.closing = false then .accepted else .refused (.closed s.settings.name)

/-- Such an engine once the offer has ended. -/
def State.receive (s : State α ν) (o : Offer α) : State α ν :=
  let n := s.nextNumber
  let arrived := { s with nextNumber := n + 1 }.note (.offered n o)
  if o.items = [] ∨ s.closing = true then arrived.note (.answered n (s.verdict o))
  else
    ({ arrived with
        buffer := State.joined s.buffer o
        counters := s.counters.buffered o.items.length }.note (.appended n o.items)).note
      (.answered n (s.verdict o))

/-! ## One offer -/

/-- The gate is shut only once the buffer is sealed. -/
theorem gateShut_move {s t : State α ν} {e : Event α ν} (h : Move s e t)
    (hs : s.gateOpen = false → s.buffer.sealed = true) :
    t.gateOpen = false → t.buffer.sealed = true := by
  have hnext : ∀ u : State α ν, u.proceed.gateOpen = true := by
    intro u
    show State.gateOpen { u with scheduler := u.nextWait } = true
    rcases nextWait_cases u with ⟨_, hwait⟩ | ⟨_, hwait | ⟨wait, hwait⟩⟩ <;> rw [hwait] <;> rfl
  cases h with
  | shut => exact fun _ => rfl
  | append => exact fun shut => (sealed_joined _ _).trans (hs shut)
  | idle | defer | unpark | flushReturns | flushFails =>
    intro shut
    rw [hnext] at shut
    cases shut
  | wake | flush | flushCrashes | closeReturns | closeFails | closeCrashes =>
    intro shut
    cases shut
  | takeGate waits => exact fun _ => hs (by rw [State.gateOpen, waits])
  | _ => exact hs

theorem gateShut_of_raced {s : State α ν} (hs : Raced s) :
    s.gateOpen = false → s.buffer.sealed = true := by
  refine of_raced (P := fun s => s.gateOpen = false → s.buffer.sealed = true) ?_
    (fun _ => gateShut_move) (fun _ hs => hs) hs
  intro s fresh shut
  rw [State.gateOpen, fresh.scheduler] at shut
  cases shut

/-- An engine in packing mode that takes the next offer in at once, if it is not closing. -/
structure Receptive (s : State α ν) : Prop where
  raced : Raced s
  packing : s.model.packing = true
  unsealed : s.buffer.sealed = false
  free : s.lockHeld = false

theorem Receptive.opened {s : State α ν} (h : Receptive s) : s.gateOpen = true := by
  rw [← Bool.not_eq_false]
  intro shut
  have hsealed := gateShut_of_raced h.raced shut
  rw [h.unsealed] at hsealed
  cases hsealed

/-- An offer that has ended takes no step. -/
theorem proceeds_ended {n : Nat} {s t : State α ν} (h : Proceeds n s t)
    (gone : s.ticket? n = none) (out : .offer n ∉ s.line) : t = s := by
  cases h with
  | stop => rfl
  | ahead line => exact absurd (line ▸ by simp) out
  | step own h =>
    cases ownMove_of_mover (move_of_step h) own with
    | refuse found | lineUp found | send found | directReturns _ found | directCrashes found =>
      rw [gone] at found
      cases found
    | bounce free head | append free head | nobody free head =>
      exact absurd (head ▸ List.mem_cons_self) out

/-- An offer that waits for the lock gets it and appends its items. -/
theorem proceeds_waiting {n : Nat} {s t : State α ν} (h : Proceeds n s t) {k : Ticket α}
    (found : s.ticket? n = some k) (phase : k.phase = .atLock)
    (unsealed : s.buffer.sealed = false) {before after : List Waiter}
    (line : s.line = before ++ .offer n :: after) (out : .offer n ∉ before ++ after)
    (ended : t.ticket? n = none) :
    t = ({ s with
        line := before ++ after
        buffer := State.joined s.buffer k.offer
        counters := s.counters.buffered k.offer.items.length
      }.note (.appended n k.offer.items)).answer n .accepted := by
  have hbefore : .offer n ∉ before := fun hmem => out (List.mem_append_left _ hmem)
  induction h generalizing before after with
  | stop =>
    rw [found] at ended
    cases ended
  | @ahead s u before' after' line' rest ih =>
    -- the offer is in line once, so whoever it asks before is the rest of the line
    have hparts := line.symm.trans line'
    have hafter : .offer n ∉ after := fun hmem => out (List.mem_append_right _ hmem)
    obtain ⟨rfl, rfl⟩ : before = before' ∧ after = after' := by
      obtain ⟨hfront, -, hback⟩ := (List.append_cons_inj_of_notMem hbefore hafter).mp hparts
      exact ⟨hfront, hback⟩
    have hfirst : State.line { s with line := .offer n :: (before ++ after) } =
        [] ++ .offer n :: (before ++ after) := rfl
    have hrest := ih found unsealed hfirst out ended List.not_mem_nil
    exact hrest
  | @step s v u e own h rest ih =>
    cases ownMove_of_mover (move_of_step h) own with
    | refuse found' phase' | lineUp found' phase' | send found' phase'
    | directReturns _ found' phase' | directCrashes found' phase' =>
      obtain rfl := Option.some.inj (found.symm.trans found')
      rw [phase] at phase'
      cases phase'
    | bounce free head found' sealed =>
      rw [unsealed] at sealed
      cases sealed
    | @append l left free head found' =>
      obtain rfl := Option.some.inj (found.symm.trans found')
      obtain ⟨rfl, rfl⟩ : before = [] ∧ left = after := by
        rw [head] at line
        cases before with
        | nil => exact ⟨rfl, (List.cons.inj line).2⟩
        | cons w before => exact absurd ((List.cons.inj line).1 ▸ List.mem_cons_self) hbefore
      refine proceeds_ended rest ?_ out
      exact (ticket?_answer s n n .accepted).trans (if_pos rfl)
    | nobody free head gone =>
      rw [found] at gone
      cases gone

/-- An offer at the gate is refused by an engine that is closing, and otherwise it lines up
and appends its items. -/
theorem proceeds_arrived {n : Nat} {s t : State α ν} (h : Proceeds n s t) {k : Ticket α}
    (found : s.ticket? n = some k) (phase : k.phase = .atGate)
    (packing : s.model.packing = true) (unsealed : s.buffer.sealed = false)
    (out : .offer n ∉ s.line) (ended : t.ticket? n = none) :
    (s.closing = true ∧ t = s.answer n (.refused (.closed s.settings.name))) ∨
      (s.closing = false ∧
        t = ({ s.setPhase n .atLock with
          buffer := State.joined s.buffer k.offer
          counters := s.counters.buffered k.offer.items.length
        }.note (.appended n k.offer.items)).answer n .accepted) := by
  cases h with
  | stop =>
    rw [found] at ended
    cases ended
  | ahead line => exact absurd (line ▸ by simp) out
  | step own h rest =>
    cases ownMove_of_mover (move_of_step h) own with
    | refuse _ _ _ closing =>
      refine .inl ⟨closing, proceeds_ended rest ?_ out⟩
      exact (ticket?_answer s n n .accepted).trans (if_pos rfl)
    | lineUp found' _ _ running =>
      obtain rfl := Option.some.inj (found.symm.trans found')
      refine .inr ⟨running, ?_⟩
      have hwaits : (s.setPhase n .atLock).ticket? n = some { k with phase := .atLock } := by
        rw [ticket?_setPhase, found, Option.map_some, if_pos rfl]
      have hlast : ((s.setPhase n .atLock).enqueue (.offer n)).line =
          s.line ++ .offer n :: [] := rfl
      have hwaiting := proceeds_waiting rest hwaits rfl unsealed hlast (by simpa using out) ended
      rw [List.append_nil] at hwaiting
      exact hwaiting
    | send _ _ _ _ direct =>
      rw [packing] at direct
      cases direct
    | bounce free head | append free head | nobody free head =>
      exact absurd (head ▸ List.mem_cons_self) out
    | directReturns _ found' phase' | directCrashes found' phase' =>
      obtain rfl := Option.some.inj (found.symm.trans found')
      rw [phase] at phase'
      cases phase'

omit [Number ν] in
/-- The last to come is gone from the offers under way when it is left out. -/
theorem offers_without_last {s : State α ν} {k : Ticket α} (unknown : s.ticket? k.number = none) :
    (s.offers ++ [k]).filter (·.number ≠ k.number) = s.offers := by
  have hothers : s.offers.filter (·.number ≠ k.number) = s.offers := by
    rw [List.filter_eq_self]
    intro l hl
    simpa using List.find?_eq_none.mp unknown l hl
  rw [List.filter_append, hothers]
  simp

omit [Number ν] in
theorem answer_of_offers {s : State α ν} {n : Nat} {offers : List (Ticket α)}
    (h : s.offers.filter (·.number ≠ n) = offers) (o : Outcome ν) :
    s.answer n o = { s with offers }.note (.answered n o) := by
  rw [State.answer, h]

theorem receive_aside {s : State α ν} {o : Offer α} (aside : o.items = [] ∨ s.closing = true) :
    s.receive o =
      ({ s with nextNumber := s.nextNumber + 1 }.note (.offered s.nextNumber o)).note
        (.answered s.nextNumber (s.verdict o)) :=
  if_pos aside

theorem receive_joins {s : State α ν} {o : Offer α}
    (joins : ¬ (o.items = [] ∨ s.closing = true)) :
    s.receive o =
      ({ s.note (.offered s.nextNumber o) with
          nextNumber := s.nextNumber + 1
          buffer := State.joined s.buffer o
          counters := s.counters.buffered o.items.length
        }.note (.appended s.nextNumber o.items)).note (.answered s.nextNumber (s.verdict o)) :=
  if_neg joins

theorem receive_of_nothing (s : State α ν) {o : Offer α} (empty : o.items = []) :
    s.receive o =
      ({ s with nextNumber := s.nextNumber + 1 }.note (.offered s.nextNumber o)).note
        (.answered s.nextNumber .accepted) := by
  rw [receive_aside (.inl empty), State.verdict, if_pos (.inl empty)]

theorem receive_of_running {s : State α ν} (running : s.closing = false) {o : Offer α}
    (filled : o.items ≠ []) :
    s.receive o =
      ({ s.note (.offered s.nextNumber o) with
          nextNumber := s.nextNumber + 1
          buffer := State.joined s.buffer o
          counters := s.counters.buffered o.items.length
        }.note (.appended s.nextNumber o.items)).note (.answered s.nextNumber .accepted) := by
  rw [receive_joins (by simp [filled, running]), State.verdict, if_pos (.inr running)]

/-- What an offer comes to that has the engine to itself. -/
theorem receive_of_alone {s t : State α ν} (hs : Receptive s) {o : Offer α}
    (h : Alone s o t) : t = s.receive o := by
  have ho := orderly_of_raced hs.raced
  have hout : .offer s.nextNumber ∉ s.line := fun hmem => by
    obtain ⟨k, found, -⟩ := ho.offers.mp hmem
    rw [ho.unknown] at found
    cases found
  obtain ⟨u, arrives, hproceeds, ended⟩ := h
  cases move_of_step arrives with
  | offerNothing empty =>
    rw [receive_of_nothing s empty]
    exact proceeds_ended hproceeds ho.unknown hout
  | offer filled =>
    have hticket := ticket?_append s
      { number := s.nextNumber, offer := o, phase := .atGate } s.nextNumber ho.unknown
    rw [if_pos rfl] at hticket
    have hoffers := offers_without_last (s := s)
      (k := { number := s.nextNumber, offer := o, phase := .atGate }) ho.unknown
    rcases proceeds_arrived hproceeds hticket rfl hs.packing hs.unsealed hout ended with
      ⟨closing, rfl⟩ | ⟨running, rfl⟩
    · have hclosing : s.closing = true := closing
      rw [receive_aside (.inr hclosing), State.verdict, if_neg (by simp [filled, hclosing])]
      exact answer_of_offers hoffers _
    · rw [receive_of_running (s := s) running filled]
      have hphase := congrArg State.offers (lacking_setPhase_own
        { s with offers := s.offers ++ [{ number := s.nextNumber, offer := o, phase := .atGate }] }
        s.nextNumber .atLock)
      refine answer_of_offers ?_ _
      exact hphase.trans hoffers

/-- Nothing keeps such an offer from its end. -/
theorem alone_ends {s : State α ν} (hs : Receptive s) (o : Offer α) : ∃ t, Alone s o t := by
  have ho := orderly_of_raced hs.raced
  by_cases empty : o.items = []
  · exact ⟨_, _, step_of_move (.offerNothing empty) rfl, .stop _, ho.unknown⟩
  · have hticket := ticket?_append s
      { number := s.nextNumber, offer := o, phase := .atGate } s.nextNumber ho.unknown
    rw [if_pos rfl] at hticket
    have harrival := Move.offer (s := s) empty
    generalize hu : State.note _ (.offered s.nextNumber o) = u at harrival
    have found : u.ticket? s.nextNumber =
        some { number := s.nextNumber, offer := o, phase := .atGate } := hu ▸ hticket
    have packing : u.model.packing = true := hu ▸ hs.packing
    have unsealed : u.buffer.sealed = false := hu ▸ hs.unsealed
    have opened : u.gateOpen = true := hu ▸ hs.opened
    have free : u.lockHeld = false := hu ▸ hs.free
    cases closing : u.closing with
    | true =>
      have hrefuse := Move.refuse found rfl opened closing
      refine ⟨_, u, step_of_move harrival rfl,
        .step rfl (step_of_move hrefuse rfl) (.stop _), ?_⟩
      exact (ticket?_answer u _ _ .accepted).trans (if_pos rfl)
    | false =>
      have hlineUp := Move.lineUp found rfl opened closing packing
      generalize hv : (u.setPhase s.nextNumber .atLock).enqueue (.offer s.nextNumber) = v
        at hlineUp
      have hwaits : v.ticket? s.nextNumber =
          some { number := s.nextNumber, offer := o, phase := .atLock } := by
        rw [← hv]
        refine (ticket?_setPhase u s.nextNumber s.nextNumber .atLock).trans ?_
        rw [found, Option.map_some, if_pos rfl]
      have hbehind : v.line = u.line ++ .offer s.nextNumber :: [] := hv ▸ rfl
      have hfirst : Move { v with line := .offer s.nextNumber :: (u.line ++ []) } .acquire _ :=
        .append (hv ▸ free) rfl hwaits (hv ▸ unsealed)
      refine ⟨_, u, step_of_move harrival rfl,
        .step rfl (step_of_move hlineUp rfl)
          (.ahead hbehind (.step rfl (step_of_move hfirst rfl) (.stop _))), ?_⟩
      exact (ticket?_answer v _ _ .accepted).trans (if_pos rfl)

theorem alone_iff {s t : State α ν} (hs : Receptive s) {o : Offer α} :
    Alone s o t ↔ t = s.receive o := by
  refine ⟨receive_of_alone hs, ?_⟩
  rintro rfl
  obtain ⟨t, halone⟩ := alone_ends hs o
  exact receive_of_alone hs halone ▸ halone

/-! ## Offers in turn -/

theorem raced_of_proceeds {n : Nat} {s t : State α ν} (h : Proceeds n s t) (hs : Raced s) :
    Raced t := by
  induction h with
  | stop => exact hs
  | @step s t u e own h rest ih => exact ih (.act (a := .event e) hs h)
  | ahead line rest ih =>
    exact ih (.act (a := .reorder _) hs (if_pos (line ▸ List.perm_middle)))

theorem receptive_receive {s : State α ν} (hs : Receptive s) (o : Offer α) :
    Receptive (s.receive o) := by
  obtain ⟨t, halone⟩ := alone_ends hs o
  obtain rfl := receive_of_alone hs halone
  obtain ⟨u, arrives, hproceeds, -⟩ := halone
  have raced : Raced (s.receive o) :=
    raced_of_proceeds hproceeds (.act (a := .event (.offer o)) hs.raced arrives)
  by_cases aside : o.items = [] ∨ s.closing = true
  · rw [receive_aside aside] at raced ⊢
    exact ⟨raced, hs.packing, hs.unsealed, hs.free⟩
  · rw [receive_joins aside] at raced ⊢
    exact ⟨raced, hs.packing, (sealed_joined _ _).trans hs.unsealed, hs.free⟩

theorem inTurn_iff {s t : State α ν} (hs : Receptive s) {offers : List (Offer α)} :
    InTurn s offers t ↔ t = offers.foldl State.receive s := by
  induction offers generalizing s with
  | nil => rfl
  | cons o rest ih =>
    constructor
    · rintro ⟨u, halone, hrest⟩
      obtain rfl := receive_of_alone hs halone
      exact (ih (receptive_receive hs o)).mp hrest
    · intro ht
      exact ⟨_, (alone_iff hs).mpr rfl, (ih (receptive_receive hs o)).mpr ht⟩

/-- The engine `t` is `s` with `xs` added to its buffer, and to its counters one by one. -/
def Took (s : State α ν) (xs : List α) (t : State α ν) : Prop :=
  ∃ total next log, t =
    { s with
      buffer := { s.buffer with latest := xs.reverse ++ s.buffer.latest, total }
      counters := s.counters.buffered xs.length
      nextNumber := next
      log }

omit [Number ν] in
theorem buffered_buffered (c : Metrics.Counters) (m n : Nat) :
    (c.buffered m).buffered n = c.buffered (m + n) := by
  simp only [Metrics.Counters.buffered, Metrics.toUInt64_add, UInt64.add_assoc]

omit [Number ν] in
theorem Took.nothing {s t : State α ν}
    (h : t = { s with nextNumber := t.nextNumber, log := t.log }) : Took s [] t := by
  refine ⟨s.buffer.total, t.nextNumber, t.log, h.trans ?_⟩
  have hcounters : s.counters.buffered 0 = s.counters := by
    simp [Metrics.Counters.buffered]
  rw [List.length_nil, hcounters]
  rfl

omit [Number ν] in
theorem Took.trans {s t u : State α ν} {xs ys : List α} (h : Took s xs t) (h' : Took t ys u) :
    Took s (xs ++ ys) u := by
  obtain ⟨total, next, log, rfl⟩ := h
  obtain ⟨total', next', log', rfl⟩ := h'
  refine ⟨total', next', log', ?_⟩
  rw [List.reverse_append, List.append_assoc, List.length_append, ← buffered_buffered]

omit [Number ν] in
/-- Two engines that have taken the same items are the same in all that does not tell how
the items came. -/
theorem Took.same {s t u : State α ν} {xs : List α} (h : Took s xs t) (h' : Took s xs u) :
    t = { u with
      buffer := { u.buffer with total := t.buffer.total }
      nextNumber := t.nextNumber
      log := t.log } := by
  obtain ⟨total, next, log, rfl⟩ := h
  obtain ⟨total', next', log', rfl⟩ := h'
  rfl

theorem joined_eq (b : Flush.Buffer α ν) (o : Offer α) :
    State.joined b o =
      { b with
        latest := o.items.reverse ++ b.latest
        total := (State.joined b o).total } := by
  cases o <;> rfl

theorem took_receive {s : State α ν} (running : s.closing = false) (o : Offer α) :
    Took s o.items (s.receive o) := by
  by_cases empty : o.items = []
  · rw [receive_of_nothing s empty, empty]
    exact .nothing rfl
  · rw [receive_of_running running empty, joined_eq]
    exact ⟨_, _, _, rfl⟩

/-- Of the rest of the engine an offer leaves all as it is. -/
theorem receive_keeps (s : State α ν) (o : Offer α) :
    ∃ buffer counters log, s.receive o =
      { s with buffer, counters, nextNumber := s.nextNumber + 1, log } := by
  by_cases aside : o.items = [] ∨ s.closing = true
  · exact ⟨_, _, _, receive_aside aside⟩
  · exact ⟨_, _, _, receive_joins aside⟩

theorem running_receive {s : State α ν} (running : s.closing = false) (o : Offer α) :
    (s.receive o).closing = false := by
  obtain ⟨_, _, _, hreceive⟩ := receive_keeps s o
  rw [hreceive]
  exact running

theorem took_receives {s : State α ν} (running : s.closing = false) (offers : List (Offer α)) :
    Took s (offers.flatMap Offer.items) (offers.foldl State.receive s) := by
  induction offers generalizing s with
  | nil => exact .nothing rfl
  | cons o rest ih => exact (took_receive running o).trans (ih (running_receive running o))

theorem total_receive {value : ν → Rat} (exact : Exact value) {s : State α ν}
    (running : s.closing = false) (o : Offer α) :
    value (s.receive o).buffer.total = value s.buffer.total + o.items.length := by
  by_cases empty : o.items = []
  · rw [receive_of_nothing s empty, empty]
    exact (Rat.add_zero _).symm
  · rw [receive_of_running running empty]
    exact total_joined exact s.buffer o

theorem total_receives {value : ν → Rat} (exact : Exact value) {s : State α ν}
    (running : s.closing = false) (offers : List (Offer α)) :
    value (offers.foldl State.receive s).buffer.total =
      value s.buffer.total + (offers.flatMap Offer.items).length := by
  induction offers generalizing s with
  | nil => exact (Rat.add_zero _).symm
  | cons o rest ih =>
    rw [List.foldl_cons, ih (running_receive running o), total_receive exact running,
      Rat.add_assoc, List.flatMap_cons, List.length_append]
    congr 1
    exact_mod_cast rfl

/-- An engine that is closing only takes note of who comes. -/
theorem receives_of_closing {s : State α ν} (closing : s.closing = true)
    (offers : List (Offer α)) :
    ∃ next log, offers.foldl State.receive s = { s with nextNumber := next, log } := by
  induction offers generalizing s with
  | nil => exact ⟨_, _, rfl⟩
  | cons o rest ih =>
    rw [List.foldl_cons, receive_aside (.inr closing)]
    obtain ⟨next, log, hrest⟩ := ih (s :=
      ({ s with nextNumber := s.nextNumber + 1 }.note (.offered s.nextNumber o)).note
        (.answered s.nextNumber (s.verdict o))) closing
    exact ⟨next, log, hrest⟩

/-! ## Answers -/

theorem outcome?_receive (s : State α ν) (o : Offer α) (m : Nat) :
    (s.receive o).outcome? m =
      if s.nextNumber = m then some (s.now, s.verdict o) else s.outcome? m := by
  by_cases aside : o.items = [] ∨ s.closing = true
  · rw [receive_aside aside]
    by_cases hm : s.nextNumber = m <;> simp [State.outcome?, State.note, hm]
  · rw [receive_joins aside]
    by_cases hm : s.nextNumber = m <;> simp [State.outcome?, State.note, hm]

theorem outcome?_receives_older {s : State α ν} {m : Nat} (known : m < s.nextNumber)
    (offers : List (Offer α)) :
    (offers.foldl State.receive s).outcome? m = s.outcome? m := by
  induction offers generalizing s with
  | nil => rfl
  | cons o rest ih =>
    obtain ⟨_, _, _, hreceive⟩ := receive_keeps s o
    have hknown : m < (s.receive o).nextNumber := by
      rw [hreceive]
      exact Nat.lt_succ_of_lt known
    rw [List.foldl_cons, ih hknown, outcome?_receive, if_neg (Nat.ne_of_gt known)]

/-- Each offer is told what the engine said to it from the start. -/
theorem outcome?_receives (s : State α ν) {offers : List (Offer α)} {i : Nat} {o : Offer α}
    (h : offers[i]? = some o) :
    (offers.foldl State.receive s).outcome? (s.nextNumber + i) =
      some (s.now, s.verdict o) := by
  induction offers generalizing s i with
  | nil => cases h
  | cons p rest ih =>
    obtain ⟨_, _, _, hreceive⟩ := receive_keeps s p
    cases i with
    | zero =>
      obtain rfl : p = o := Option.some.inj h
      have hknown : s.nextNumber < (s.receive p).nextNumber := by
        rw [hreceive]
        exact Nat.lt_succ_self _
      exact (outcome?_receives_older hknown rest).trans
        ((outcome?_receive s p s.nextNumber).trans (if_pos rfl))
    | succ i =>
      have hrest := ih (s.receive p) h
      rw [List.foldl_cons, Nat.add_left_comm, Nat.add_comm]
      rw [hreceive] at hrest ⊢
      exact hrest

theorem calls_receives (s : State α ν) (offers : List (Offer α)) :
    (offers.foldl State.receive s).calls = s.calls := by
  induction offers generalizing s with
  | nil => rfl
  | cons o rest ih =>
    rw [List.foldl_cons, ih]
    by_cases aside : o.items = [] ∨ s.closing = true
    · rw [receive_aside aside]
      simp [State.calls, State.note]
    · rw [receive_joins aside]
      simp [State.calls, State.note]

/-! ## Regrouping -/

/-- What offers that came to `s` one after the other have led to when the engine is `t`. -/
structure Received (s : State α ν) (offers : List (Offer α)) (t : State α ν) : Prop where
  /-- Unless the engine is closing all are accepted, and their items join the buffer. -/
  accepted : s.closing = false →
    t.buffer.items = s.buffer.items ++ offers.flatMap Offer.items ∧
      ∀ {i o}, offers[i]? = some o → t.outcome? (s.nextNumber + i) = some (s.now, .accepted)
  /-- If it is closing all that hand over anything are refused, and nothing changes. -/
  refused : s.closing = true →
    t = { s with nextNumber := t.nextNumber, log := t.log } ∧
      ∀ {i o}, offers[i]? = some o → o.items ≠ [] →
        t.outcome? (s.nextNumber + i) = some (s.now, .refused (.closed s.settings.name))
  /-- An offer of nothing is accepted by any engine. -/
  nothing : ∀ {i o}, offers[i]? = some o → o.items = [] →
    t.outcome? (s.nextNumber + i) = some (s.now, .accepted)
  /-- Nobody calls the sink. -/
  calls : t.calls = s.calls

/-- To offer `items` in these pieces comes to what one offer of all of them comes to. -/
structure Regroups (s : State α ν) (items : List α) (offers : List (Offer α)) : Prop where
  /-- Either way the offers end, and in one way, -/
  ends : (∃! t, InTurn s offers t) ∧ ∃! u, InTurn s [.all items] u
  /-- with answers that do not tell one way from the other. -/
  pieces : ∀ {t}, InTurn s offers t → Received s offers t
  whole : ∀ {u}, InTurn s [.all items] u → Received s [.all items] u
  /-- The engine is the same in all but the log and the numbers that it has given out, -/
  same : ∀ {t u}, InTurn s offers t → InTurn s [.all items] u →
    t = { u with
      buffer := { u.buffer with total := t.buffer.total }
      nextNumber := t.nextNumber
      log := t.log }
  /-- the total of the buffer, read exactly, included. -/
  total : ∀ {t u}, InTurn s offers t → InTurn s [.all items] u →
    ∀ {value : ν → Rat}, Exact value → value t.buffer.total = value u.buffer.total

theorem received_receives (s : State α ν) (offers : List (Offer α)) :
    Received s offers (offers.foldl State.receive s) := by
  constructor
  · intro running
    obtain ⟨total, next, log, htook⟩ := took_receives running offers
    refine ⟨?_, ?_⟩
    · rw [htook]
      simp [Flush.Buffer.items]
    · intro i o ho
      rw [outcome?_receives s ho, State.verdict, if_pos (.inr running)]
  · intro closing
    obtain ⟨next, log, hreceives⟩ := receives_of_closing closing offers
    refine ⟨by rw [hreceives], ?_⟩
    intro i o ho filled
    rw [outcome?_receives s ho, State.verdict, if_neg (by simp [filled, closing])]
  · intro i o ho empty
    rw [outcome?_receives s ho, State.verdict, if_pos (.inl empty)]
  · exact calls_receives s offers

theorem ends_of_receptive {s : State α ν} (hs : Receptive s) (offers : List (Offer α)) :
    ∃! t, InTurn s offers t :=
  ⟨_, (inTurn_iff hs).mpr rfl, fun _ h => (inTurn_iff hs).mp h⟩

/-- Two groupings of the same items leave the same engine. -/
theorem same_of_cut (s : State α ν) {offers others : List (Offer α)}
    (cut : offers.flatMap Offer.items = others.flatMap Offer.items) :
    offers.foldl State.receive s =
      { others.foldl State.receive s with
        buffer := { (others.foldl State.receive s).buffer with
          total := (offers.foldl State.receive s).buffer.total }
        nextNumber := (offers.foldl State.receive s).nextNumber
        log := (offers.foldl State.receive s).log } := by
  cases closing : s.closing with
  | true =>
    obtain ⟨next, log, hoffers⟩ := receives_of_closing closing offers
    obtain ⟨next', log', hothers⟩ := receives_of_closing closing others
    rw [hoffers, hothers]
  | false =>
    have htook := took_receives closing offers
    rw [cut] at htook
    exact htook.same (took_receives closing others)

theorem total_of_cut {value : ν → Rat} (exact : Exact value) (s : State α ν)
    {offers others : List (Offer α)}
    (cut : offers.flatMap Offer.items = others.flatMap Offer.items) :
    value (offers.foldl State.receive s).buffer.total =
      value (others.foldl State.receive s).buffer.total := by
  cases closing : s.closing with
  | true =>
    obtain ⟨next, log, hoffers⟩ := receives_of_closing closing offers
    obtain ⟨next', log', hothers⟩ := receives_of_closing closing others
    rw [hoffers, hothers]
  | false => rw [total_receives exact closing, total_receives exact closing, cut]

/-- Once packing is on it does not matter how items are grouped into offers. -/
theorem regroups_of_packing {s : State α ν} (hs : Raced s) (packing : s.model.packing = true)
    (unsealed : s.buffer.sealed = false) (free : s.lockHeld = false) {items : List α}
    {offers : List (Offer α)} (cut : offers.flatMap Offer.items = items) :
    Regroups s items offers := by
  have receptive : Receptive s := ⟨hs, packing, unsealed, free⟩
  have hcut : offers.flatMap Offer.items = [Offer.all items].flatMap Offer.items :=
    cut.trans (List.append_nil items).symm
  refine ⟨⟨ends_of_receptive receptive _, ends_of_receptive receptive _⟩, ?_, ?_, ?_, ?_⟩
  · intro t ht
    obtain rfl := (inTurn_iff receptive).mp ht
    exact received_receives s offers
  · intro u hu
    obtain rfl := (inTurn_iff receptive).mp hu
    exact received_receives s _
  · intro t u ht hu
    obtain rfl := (inTurn_iff receptive).mp ht
    obtain rfl := (inTurn_iff receptive).mp hu
    exact same_of_cut s hcut
  · intro t u ht hu value exact
    obtain rfl := (inTurn_iff receptive).mp ht
    obtain rfl := (inTurn_iff receptive).mp hu
    exact total_of_cut exact s hcut

/-- The scheduler is about to ask for the lock when three items come in three offers. -/
def beforeTick : List (Act Nat Rat) :=
  List.map .event [.offer (.one 7), .enter 0, .acquire, .schedulerWakes, .schedulerWakes]

theorem regroups_of_beforeTick :
    ∃ s, State.play? .standard "sink" 50 beforeTick = some s ∧ s.line = [.scheduler] ∧
      Raced s ∧ s.model.packing = true ∧ s.buffer.sealed = false ∧ s.lockHeld = false ∧
      Regroups s [1, 2, 3] [.one 1, .all [], .all [2, 3]] := by
  have hplay : (State.play? .standard "sink" 50 beforeTick).map
      (fun s => (s.line, s.model.packing, s.buffer.sealed, s.lockHeld)) =
        some ([.scheduler], true, false, false) := by
    decide +kernel
  obtain ⟨s, hs, hfacts⟩ := Option.map_eq_some_iff.mp hplay
  obtain ⟨hline, hpacking, hunsealed, hfree⟩ : s.line = [.scheduler] ∧
      s.model.packing = true ∧ s.buffer.sealed = false ∧ s.lockHeld = false := by
    simpa using hfacts
  have raced : Raced s := raced_of_play hs
  exact ⟨s, hs, hline, raced, hpacking, hunsealed, hfree,
    regroups_of_packing raced hpacking hunsealed hfree (by decide)⟩

end Engine
end AdaptiveBatch
