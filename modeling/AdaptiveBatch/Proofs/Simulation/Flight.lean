import AdaptiveBatch.Proofs.Engine.Smooth
import AdaptiveBatch.Simulation.World

/-!
# Calls of the simulated sink

A task of a simulation that waits for the sink has its call under way, and the call will
be done, or will answer what every probe answers.  The sink enters a call into its tally
when the call ends, and the engine counts it at the same moment.
-/

namespace AdaptiveBatch

namespace Engine
namespace Clock

variable {σ α ν : Type} [Number ν]

/-- An event that begins no sink call. -/
theorem apply_of_step {c : Clock σ α ν} {e : Event α ν} {t : State α ν}
    (h : c.engine.step? e = some t) (begun : t.begun? e = none) :
    c.apply e = setTimers { c.land e with engine := t } := by
  simp only [apply, h, begun]

/-- An event that begins a sink call. -/
theorem apply_of_begun {c : Clock σ α ν} {e : Event α ν} {t : State α ν} {r : Request α}
    (h : c.engine.step? e = some t) (begun : t.begun? e = some r) :
    c.apply e = setTimers (launch { c.land e with engine := t } e r) := by
  simp only [apply, h, begun]

omit [Number ν] in
theorem engine_launch (c : Clock σ α ν) (e : Event α ν) (r : Request α) :
    (c.launch e r).engine = c.engine := by
  simp only [launch]
  split <;> rfl

theorem engine_apply {c : Clock σ α ν} {e : Event α ν} {t : State α ν}
    (h : c.engine.step? e = some t) : (c.apply e).engine = t := by
  cases begun : t.begun? e with
  | none => rw [apply_of_step h begun]; rfl
  | some r => rw [apply_of_begun h begun]; exact engine_launch _ _ _

end Clock
end Engine

namespace Simulation

variable {ν : Type} [Number ν]

/-- The milliseconds that a call with this many items is meant to take. -/
def callCost (workload : Workload ν) (items : Nat) : ν :=
  workload.callOverhead + Number.ofCount items * workload.perItemCost

/-- Whether a timer can run as long as a call with up to `most` items takes. -/
def Payable (workload : Workload ν) (most : Nat) : Prop :=
  ∀ n ≤ most, Number.less (Number.ofCount 0) (callCost workload n) = true →
    (Duration.ofMillis? (callCost workload n)).isSome = true

/-- The sink's tally agrees with the engine's counters. -/
structure Tallies (tally : Metrics.Tally ν) (counters : Metrics.Counters) : Prop where
  directCalls : tally.directCalls = counters.directCalls
  batchCalls : tally.batchCalls = counters.batchFlushes
  singleCalls : tally.singleCalls = counters.singleFlushes
  totalItems : tally.totalItems = counters.directItems + counters.flushedItems

/-- Whether a sink simulates `workload`, whatever it has counted. -/
structure Plays (workload : Workload ν) (sink : Sink.Simulated ν) : Prop where
  probe : sink.probe = workload.probe
  callOverhead : sink.callOverhead = workload.callOverhead
  perItemCost : sink.perItemCost = workload.perItemCost

/-- What is so of the sink calls under way in a simulation. -/
structure Aloft (workload : Workload ν) (c : Run ν) : Prop where
  behaviour : c.behaviour = Sink.Simulated.behaviour Payload ν
  sink : Plays workload c.sink
  direct : ∀ p ∈ c.direct, p.2.reply = .done ∧ ∃ x, p.2.request = .sendDirect x
  sending : ∀ k ∈ c.engine.offers, k.phase = .sending → ∃ p ∈ c.direct, p.1 = k.number
  delivery : ∀ {r}, c.engine.scheduler.call? = some r →
    ∃ f, c.delivery = some f ∧ f.request = r ∧ f.reply = .done
  probe : c.engine.prober = .probing →
    ∃ f, c.probe = some f ∧ f.reply = .answer workload.probe
  tallies : Tallies c.sink.tally c.engine.counters

namespace Tallies

variable {tally : Metrics.Tally ν} {counters : Metrics.Counters}

omit [Number ν] in
/-- Nothing else of the counters matters. -/
theorem same (h : Tallies tally counters) {counters' : Metrics.Counters}
    (directCalls : counters'.directCalls = counters.directCalls)
    (batchFlushes : counters'.batchFlushes = counters.batchFlushes)
    (singleFlushes : counters'.singleFlushes = counters.singleFlushes)
    (directItems : counters'.directItems = counters.directItems)
    (flushedItems : counters'.flushedItems = counters.flushedItems) :
    Tallies tally counters' :=
  ⟨h.directCalls.trans directCalls.symm, h.batchCalls.trans batchFlushes.symm,
    h.singleCalls.trans singleFlushes.symm,
    by rw [h.totalItems, directItems, flushedItems]⟩

theorem direct (h : Tallies tally counters) (cost : ν) :
    Tallies (tally.direct 1 cost) (counters.direct 1) := by
  refine ⟨congrArg (· + 1) h.directCalls, h.batchCalls, h.singleCalls, ?_⟩
  show tally.totalItems + _ = counters.directItems + _ + counters.flushedItems
  rw [h.totalItems]
  ac_rfl

theorem flush (h : Tallies tally counters) {items : List Payload} (filled : items ≠ [])
    {sink : Sink.Simulated ν} (own : sink.tally = tally) (millis : Nat) :
    Tallies (sink.finish (Engine.State.flushRequest items) millis).tally
      (counters.flushed items.length) := by
  rw [Metrics.Counters.flushed_eq]
  cases items with
  | nil => exact absurd rfl filled
  | cons x rest =>
    have htotal : ∀ n : UInt64,
        tally.totalItems + n = counters.directItems + (counters.flushedItems + n) := fun n => by
      rw [h.totalItems]
      ac_rfl
    cases rest with
    | nil =>
      subst own
      exact ⟨h.directCalls, h.batchCalls, congrArg (· + 1) h.singleCalls, htotal 1⟩
    | cons y more =>
      subst own
      have many : 1 < (x :: y :: more).length := by simp
      simp only [many, if_true]
      exact ⟨h.directCalls, congrArg (· + 1) h.batchCalls, h.singleCalls, htotal _⟩

end Tallies

/-! ## Plans -/

/-- A call that can be paid for will be done. -/
theorem reply_of_payable {workload : Workload ν} {sink : Sink.Simulated ν} {most n : Nat}
    (plays : Plays workload sink) (payable : Payable workload most) (few : n ≤ most) :
    (sink.plan n).reply = .done := by
  have hcost : sink.callCost n = callCost workload n := by
    rw [Sink.Simulated.callCost, plays.callOverhead, plays.perItemCost, callCost]
  simp only [Sink.Simulated.plan, hcost]
  by_cases costly : Number.less (Number.ofCount 0) (callCost workload n) = true
  · obtain ⟨d, hd⟩ := Option.isSome_iff_exists.mp (payable n few costly)
    simp only [costly, if_true, hd]
  · simp only [if_neg costly]

/-- A probe is answered under any limit that lets it begin. -/
theorem answer_of_probe {workload : Workload ν} {sink : Sink.Simulated ν}
    (plays : Plays workload sink) {limit : Option UInt64} (positive : limit ≠ some 0) :
    ((sink.start (.probe : Request Payload)).2.within limit).reply = .answer workload.probe := by
  rw [← plays.probe]
  cases limit with
  | none => rfl
  | some n =>
    have late : ¬ n.toNat ≤ 0 := fun h =>
      positive (congrArg some (UInt64.toNat_inj.mp (Nat.le_zero.mp h)))
    show (if n.toNat ≤ 0 then _ else _ : Sink.Plan ν).reply = _
    rw [if_neg late]
    rfl

/-- The sink counts its calls, and is the same otherwise. -/
theorem Plays.finish {workload : Workload ν} {sink : Sink.Simulated ν} (h : Plays workload sink)
    (r : Request Payload) (millis : Nat) : Plays workload (sink.finish r millis) := by
  cases r <;> exact ⟨h.probe, h.callOverhead, h.perItemCost⟩

section Launch

open Engine

variable {c : Run ν} {t : State Payload ν}

theorem apply_send (behaviour : c.behaviour = Sink.Simulated.behaviour Payload ν) {n : Nat}
    {x : Payload} (h : c.engine.step? (.enter n) = some t)
    (begun : t.begun? (.enter n) = some (.sendDirect x)) :
    ∃ f, c.apply (.enter n) =
        Clock.setTimers { c with engine := t, direct := c.direct ++ [(n, f)] } ∧
      f.request = .sendDirect x ∧ f.reply = (c.sink.plan 1).reply := by
  rw [Clock.apply_of_begun h begun]
  simp only [Clock.launch, Clock.land, behaviour]
  exact ⟨_, rfl, rfl, rfl⟩

theorem apply_flush (behaviour : c.behaviour = Sink.Simulated.behaviour Payload ν)
    {items : List Payload} (h : c.engine.step? .acquire = some t)
    (begun : t.begun? .acquire = some (State.flushRequest items)) :
    ∃ f, c.apply .acquire = Clock.setTimers { c with engine := t, delivery := some f } ∧
      f.request = State.flushRequest items ∧ f.reply = (c.sink.plan items.length).reply := by
  rw [Clock.apply_of_begun h begun]
  simp only [Clock.launch, Clock.land, behaviour]
  cases items with
  | nil => exact ⟨_, rfl, rfl, rfl⟩
  | cons x rest => cases rest <;> exact ⟨_, rfl, rfl, rfl⟩

theorem apply_close (behaviour : c.behaviour = Sink.Simulated.behaviour Payload ν)
    (h : c.engine.step? .takeGate = some t) :
    ∃ f, c.apply .takeGate = Clock.setTimers { c with engine := t, delivery := some f } ∧
      f.request = .close ∧ f.reply = .done := by
  rw [Clock.apply_of_begun h rfl]
  simp only [Clock.launch, Clock.land, behaviour]
  exact ⟨_, rfl, rfl, rfl⟩

theorem apply_probe (behaviour : c.behaviour = Sink.Simulated.behaviour Payload ν)
    (h : c.engine.step? .proberWakes = some t) (begun : t.begun? .proberWakes = some .probe) :
    ∃ f, c.apply .proberWakes = Clock.setTimers { c with engine := t, probe := some f } ∧
      f.reply = ((c.sink.start (.probe : Request Payload)).2.within
        t.settings.probeTimeout).reply := by
  rw [Clock.apply_of_begun h begun]
  simp only [Clock.launch, Clock.land, behaviour]
  exact ⟨_, rfl, rfl⟩

omit [Number ν] in
theorem begun?_enter {n : Nat} {k : Ticket Payload} (found : t.ticket? n = some k) :
    t.begun? (.enter n) = if k.phase = .sending then some k.offer.request else none := by
  simp only [State.begun?, found]

omit [Number ν] in
theorem begun?_enter_gone {n : Nat} (gone : t.ticket? n = none) : t.begun? (.enter n) = none := by
  simp only [State.begun?, gone]

end Launch

/-! ## Steps -/

/-- Whether the direct sends under way in `t` are under way in `s`. -/
def FewerSends (s t : Engine.State Payload ν) : Prop :=
  ∀ k ∈ t.offers, k.phase = .sending → ∃ l ∈ s.offers, l.phase = .sending ∧ l.number = k.number

section Sends

open Engine

variable {s t : State Payload ν}

omit [Number ν] in
theorem fewerSends_same (offers : t.offers = s.offers) : FewerSends s t :=
  fun k hk phase => ⟨k, offers ▸ hk, phase, rfl⟩

omit [Number ν] in
theorem fewerSends_answer (n : Nat) (o : Outcome ν) : FewerSends s (s.answer n o) :=
  fun k hk phase => ⟨k, (List.mem_filter.mp hk).1, phase, rfl⟩

omit [Number ν] in
theorem fewerSends_setPhase (n : Nat) {p : OfferPhase} (other : p ≠ .sending) :
    FewerSends s (s.setPhase n p) := by
  intro k hk phase
  obtain ⟨l, hl, rfl⟩ := List.mem_map.mp hk
  by_cases hn : l.number = n
  · rw [if_pos hn] at phase
    exact absurd phase other
  · rw [if_neg hn] at phase ⊢
    exact ⟨l, hl, phase, rfl⟩

omit [Number ν] in
theorem fewerSends_arrive {k : Ticket Payload} (phase : k.phase = .atGate) :
    FewerSends s { s with offers := s.offers ++ [k] } := by
  intro l hl sending
  rcases List.mem_append.mp hl with hl | hl
  · exact ⟨l, hl, sending, rfl⟩
  · rw [List.mem_singleton.mp hl, phase] at sending
    cases sending

end Sends

namespace Aloft

open Engine

variable {workload : Workload ν} {c d : Run ν}

/-- No call begins or ends. -/
theorem same (h : Aloft workload c) (sends : FewerSends c.engine d.engine)
    (calls : ∀ {r}, d.engine.scheduler.call? = some r → c.engine.scheduler.call? = some r)
    (probing : d.engine.prober = .probing → c.engine.prober = .probing)
    (tallies : Tallies c.sink.tally d.engine.counters)
    (behaviour : d.behaviour = c.behaviour := by rfl) (sink : d.sink = c.sink := by rfl)
    (direct : d.direct = c.direct := by rfl) (delivery : d.delivery = c.delivery := by rfl)
    (probe : d.probe = c.probe := by rfl) : Aloft workload d := by
  constructor
  · exact behaviour.trans h.behaviour
  · rw [sink]
    exact h.sink
  · rw [direct]
    exact h.direct
  · intro k hk phase
    obtain ⟨l, hl, hphase, hnumber⟩ := sends k hk phase
    rw [direct, ← hnumber]
    exact h.sending l hl hphase
  · intro r hr
    rw [delivery]
    exact h.delivery (calls hr)
  · intro hp
    rw [probe]
    exact h.probe (probing hp)
  · rw [sink]
    exact tallies

theorem send {n : Nat} {x : Payload} {f : Flight Payload ν} (h : Aloft workload c)
    (direct : d.direct = c.direct ++ [(n, f)]) (request : f.request = .sendDirect x)
    (reply : f.reply = .done) (offers : d.engine.offers = (c.engine.setPhase n .sending).offers)
    (calls : d.engine.scheduler = c.engine.scheduler) (prober : d.engine.prober = c.engine.prober)
    (counters : d.engine.counters = c.engine.counters)
    (behaviour : d.behaviour = c.behaviour := by rfl) (sink : d.sink = c.sink := by rfl)
    (delivery : d.delivery = c.delivery := by rfl) (probe : d.probe = c.probe := by rfl) :
    Aloft workload d := by
  constructor
  · exact behaviour.trans h.behaviour
  · rw [sink]
    exact h.sink
  · intro p hp
    rw [direct, List.mem_append, List.mem_singleton] at hp
    rcases hp with hp | rfl
    · exact h.direct p hp
    · exact ⟨reply, x, request⟩
  · intro k hk phase
    rw [offers] at hk
    rw [direct]
    obtain ⟨l, hl, rfl⟩ := List.mem_map.mp hk
    by_cases hn : l.number = n
    · refine ⟨(n, f), List.mem_append_right _ List.mem_cons_self, ?_⟩
      rw [if_pos hn]
      exact hn.symm
    · rw [if_neg hn] at phase ⊢
      obtain ⟨p, hp, hnumber⟩ := h.sending l hl phase
      exact ⟨p, List.mem_append_left _ hp, hnumber⟩
  · intro r hr
    rw [delivery]
    exact h.delivery (calls ▸ hr)
  · intro hp
    rw [probe]
    exact h.probe (prober ▸ hp)
  · rw [sink, counters]
    exact h.tallies

theorem deliver {r : Request Payload} {f : Flight Payload ν} (h : Aloft workload c)
    (delivery : d.delivery = some f) (request : f.request = r) (reply : f.reply = .done)
    (call : d.engine.scheduler.call? = some r) (offers : d.engine.offers = c.engine.offers)
    (prober : d.engine.prober = c.engine.prober)
    (counters : d.engine.counters = c.engine.counters)
    (behaviour : d.behaviour = c.behaviour := by rfl) (sink : d.sink = c.sink := by rfl)
    (direct : d.direct = c.direct := by rfl) (probe : d.probe = c.probe := by rfl) :
    Aloft workload d := by
  constructor
  · exact behaviour.trans h.behaviour
  · rw [sink]
    exact h.sink
  · rw [direct]
    exact h.direct
  · rw [offers, direct]
    exact h.sending
  · intro q hq
    obtain rfl := Option.some.inj (call.symm.trans hq)
    exact ⟨f, delivery, request, reply⟩
  · intro hp
    rw [probe]
    exact h.probe (prober ▸ hp)
  · rw [sink, counters]
    exact h.tallies

end Aloft

section Apply

open Engine

variable {workload : Workload ν} {c : Run ν} {most : Nat}

theorem not_call_proceed (s : State Payload ν) {r : Request Payload} :
    s.proceed.scheduler.call? ≠ some r := by
  intro hr
  cases (call?_nextWait s).symm.trans hr

theorem aloft_enter {n : Nat} {t : State Payload ν} (hc : Aloft workload c)
    (hs : Smooth c.engine) (payable : Payable workload most) (room : c.engine.offers.length ≤ most)
    (h : c.engine.step? (.enter n) = some t) : Aloft workload (c.apply (.enter n)) := by
  cases move_of_step h with
  | refuse found phase =>
    have hgone := ticket?_answer c.engine n n
      (.refused (.closed c.engine.settings.name))
    rw [if_pos rfl] at hgone
    rw [Clock.apply_of_step h (begun?_enter_gone hgone)]
    exact hc.same (fewerSends_answer _ _) id id hc.tallies
  | @lineUp n k found phase opened running packing =>
    have hticket := ticket?_setPhase c.engine n n .atLock
    rw [found, Option.map_some, if_pos rfl] at hticket
    rw [Clock.apply_of_step h (begun?_enter hticket)]
    exact hc.same (fewerSends_setPhase n (by simp)) id id hc.tallies
  | @send n k found phase opened running direct =>
    obtain ⟨x, hx⟩ := hs.singles k (ticket?_mem found)
    have hticket := ticket?_setPhase c.engine n n .sending
    rw [found, Option.map_some, if_pos rfl] at hticket
    have hbegun : State.begun? ((c.engine.setPhase n .sending).note
        (.called (.offer n) k.offer.request)) (.enter n) = some (.sendDirect x) :=
      (begun?_enter hticket).trans (by rw [hx]; rfl)
    have hone : 1 ≤ most := Nat.le_trans (List.length_pos_of_mem (ticket?_mem found)) room
    obtain ⟨f, happly, hrequest, hreply⟩ := apply_send hc.behaviour h hbegun
    rw [happly]
    have hdone := hreply.trans (reply_of_payable hc.sink payable hone)
    exact hc.send rfl hrequest hdone rfl rfl rfl rfl

/-- What is buffered has been accepted. -/
theorem size_le_accepted {s : State Payload ν} (hs : Smooth s) :
    s.buffer.items.length ≤ s.accepted.length := by
  have horder := congrArg List.length (inOrder_of_raced hs.raced)
  rw [List.length_append] at horder
  rw [hs.accounted]
  omega

theorem aloft_acquire {t : State Payload ν} (hc : Aloft workload c) (hs : Smooth c.engine)
    (payable : Payable workload most) (room : c.engine.accepted.length ≤ most)
    (h : c.engine.step? .acquire = some t) : Aloft workload (c.apply .acquire) := by
  have hidle : ∀ {u : State Payload ν}, (∀ items reason, u.scheduler ≠ .delivering items reason) →
      u.begun? .acquire = none := by
    intro u idle
    cases hphase : u.scheduler with
    | delivering items reason => exact absurd hphase (idle items reason)
    | _ => simp only [State.begun?, hphase]
  -- whoever else is served finds no delivery under way, so no call begins by its turn
  have hfree : ∀ {items reason}, c.engine.lockHeld = false →
      c.engine.scheduler ≠ .delivering items reason := by
    intro items reason free delivering
    rw [lockHeld_of_delivering delivering] at free
    cases free
  cases move_of_step h with
  | bounce free =>
    rw [Clock.apply_of_step h (hidle fun _ _ => hfree free)]
    exact hc.same (fewerSends_answer _ .accepted) id id hc.tallies
  | append free =>
    rw [Clock.apply_of_step h (hidle fun _ _ => hfree free)]
    exact hc.same (fewerSends_answer _ .accepted) id id (hc.tallies.same rfl rfl rfl rfl rfl)
  | measured free | nobody free =>
    rw [Clock.apply_of_step h (hidle fun _ _ => hfree free)]
    exact hc.same (fewerSends_same rfl) id id hc.tallies
  | shut free head turn =>
    rw [Clock.apply_of_step h (hidle fun _ _ => by simp)]
    exact hc.same (fewerSends_same rfl) (fun hr => by cases hr) id hc.tallies
  | idle free head turn | defer free head turn =>
    rw [Clock.apply_of_step h (hidle fun _ _ => delivering_ne_nextWait _)]
    exact hc.same (fewerSends_same rfl) (fun hr => absurd hr (not_call_proceed _)) id
      (hc.tallies.same rfl rfl rfl rfl rfl)
  | @flush wait draining rest free head turn filled =>
    obtain ⟨f, happly, hrequest, hreply⟩ := apply_flush hc.behaviour h rfl
    have hfew : c.engine.buffer.items.length ≤ most := Nat.le_trans (size_le_accepted hs) room
    rw [happly]
    have hdone := hreply.trans (reply_of_payable hc.sink payable hfew)
    exact hc.deliver rfl hrequest hdone rfl rfl rfl rfl

theorem aloft_schedulerWakes {t : State Payload ν} (hc : Aloft workload c)
    (h : c.engine.step? .schedulerWakes = some t) : Aloft workload (c.apply .schedulerWakes) := by
  rw [Clock.apply_of_step h rfl]
  cases move_of_step h with
  | unpark =>
    exact hc.same (fewerSends_same rfl) (fun hr => absurd hr (not_call_proceed _)) id hc.tallies
  | wake => exact hc.same (fewerSends_same rfl) (fun hr => by cases hr) id hc.tallies

theorem aloft_takeGate {t : State Payload ν} (hc : Aloft workload c)
    (h : c.engine.step? .takeGate = some t) : Aloft workload (c.apply .takeGate) := by
  obtain ⟨f, happly, hrequest, hreply⟩ := apply_close hc.behaviour h
  rw [happly]
  cases move_of_step h with
  | takeGate => exact hc.deliver rfl hrequest hreply rfl rfl rfl rfl

theorem aloft_proberWakes {t : State Payload ν} (hc : Aloft workload c)
    (hs : Raced c.engine) (h : c.engine.step? .proberWakes = some t) :
    Aloft workload (c.apply .proberWakes) := by
  cases move_of_step h with
  | proberEnds =>
    rw [Clock.apply_of_step h rfl]
    exact hc.same (fewerSends_same rfl) id (fun hp => by cases hp) hc.tallies
  | probe =>
    obtain ⟨f, happly, hreply⟩ := apply_probe hc.behaviour h rfl
    have positive := ((check_ok _).mp (check_of_raced hs)).2.2.2.2.1
    have hanswer : f.reply = .answer workload.probe :=
      hreply.trans (answer_of_probe hc.sink positive)
    rw [happly]
    exact ⟨hc.behaviour, hc.sink, hc.direct, hc.sending, hc.delivery,
      fun _ => ⟨f, rfl, hanswer⟩, hc.tallies⟩

/-! ### Calls that end -/

theorem land_done {f : Flight Payload ν}
    (behaviour : c.behaviour = Sink.Simulated.behaviour Payload ν) (reply : f.reply = .done) :
    c.finish f = { c with sink := c.sink.finish f.request (c.now - f.begun) } := by
  simp only [Clock.finish, reply, behaviour]
  rfl

/-- A direct send ends: its flight and its offer are gone. -/
theorem aloft_directReturns {n : Nat} {t : State Payload ν} (hc : Aloft workload c)
    (hs : Smooth c.engine) (h : c.engine.step? (.directReturns n none) = some t) :
    Aloft workload (c.apply (.directReturns n none)) := by
  rw [Clock.apply_of_step h rfl]
  cases move_of_step h with
  | @directReturns n k fault found phase =>
    have hnumber := ticket?_number found
    obtain ⟨x, hx⟩ := hs.singles k (ticket?_mem found)
    obtain ⟨p, hp, hpn⟩ := hc.sending k (ticket?_mem found) phase
    obtain ⟨⟨m, f⟩, hfound⟩ : ∃ p, c.direct.find? (·.1 = n) = some p := by
      rw [← Option.isSome_iff_exists, List.find?_isSome]
      exact ⟨p, hp, by simp [hpn, hnumber]⟩
    obtain ⟨hreply, y, hrequest⟩ := hc.direct _ (List.mem_of_find?_eq_some hfound)
    have hland : c.land (.directReturns n none) =
        { c with
          sink := c.sink.finish (.sendDirect y) (c.now - f.begun)
          direct := c.direct.filter (·.1 ≠ n) } := by
      rw [← hrequest]
      simp only [Clock.land, hfound, land_done hc.behaviour hreply]
    rw [hland]
    refine ⟨hc.behaviour, hc.sink.finish (.sendDirect y) (c.now - f.begun), ?_, ?_, hc.delivery,
      hc.probe, ?_⟩
    · exact fun q hq => hc.direct q (List.mem_filter.mp hq).1
    · intro l hl sending
      obtain ⟨hl, hne⟩ := List.mem_filter.mp hl
      obtain ⟨q, hq, hqn⟩ := hc.sending l hl sending
      refine ⟨q, List.mem_filter.mpr ⟨hq, ?_⟩, hqn⟩
      rw [hqn]
      exact hne
    · show Tallies (c.sink.tally.direct 1 _) (c.engine.counters.direct k.offer.items.length)
      rw [hx]
      exact hc.tallies.direct _

/-- The scheduler's call ends. -/
theorem land_delivery (hc : Aloft workload c) {r : Request Payload}
    (call : c.engine.scheduler.call? = some r) :
    ∃ millis, ∀ e, (e = .flushReturns none ∨ e = .closeReturns none) →
      c.land e = { c with sink := c.sink.finish r millis, delivery := none } := by
  obtain ⟨f, hdelivery, hrequest, hreply⟩ := hc.delivery call
  refine ⟨c.now - f.begun, fun e he => ?_⟩
  rw [← hrequest]
  rcases he with rfl | rfl <;>
    simp only [Clock.land, hdelivery, land_done hc.behaviour hreply]

theorem aloft_flushReturns {t : State Payload ν} (hc : Aloft workload c) (staged : Staged c.engine)
    (h : c.engine.step? (.flushReturns none) = some t) :
    Aloft workload (c.apply (.flushReturns none)) := by
  rw [Clock.apply_of_step h rfl]
  cases move_of_step h with
  | @flushReturns items reason delivering =>
    obtain ⟨millis, hland⟩ := land_delivery hc (r := State.flushRequest items)
      (by rw [delivering]; rfl)
    rw [hland _ (.inl rfl)]
    exact ⟨hc.behaviour, hc.sink.finish (State.flushRequest items) millis, hc.direct, hc.sending,
      fun hr => absurd hr (not_call_proceed _), hc.probe,
      hc.tallies.flush (staged.delivering delivering) rfl millis⟩

theorem aloft_closeReturns {t : State Payload ν} (hc : Aloft workload c)
    (h : c.engine.step? (.closeReturns none) = some t) :
    Aloft workload (c.apply (.closeReturns none)) := by
  rw [Clock.apply_of_step h rfl]
  cases move_of_step h with
  | closeReturns closing =>
    obtain ⟨millis, hland⟩ := land_delivery hc (r := .close) (by rw [closing]; rfl)
    rw [hland _ (.inr rfl)]
    exact ⟨hc.behaviour, hc.sink, hc.direct, hc.sending, (fun hr => by cases hr), hc.probe,
      hc.tallies⟩

theorem aloft_probeReturns {reply : ProbeReply ν} {t : State Payload ν} (hc : Aloft workload c)
    (h : c.engine.step? (.probeReturns reply) = some t) :
    Aloft workload (c.apply (.probeReturns reply)) := by
  rw [Clock.apply_of_step h rfl]
  have hawake : ∀ {s : State Payload ν}, s.proceedProber.prober ≠ .probing := by
    intro s
    simp only [State.proceedProber]
    split <;> simp
  cases move_of_step h with
  | learn | probeFails =>
    exact ⟨hc.behaviour, hc.sink, hc.direct, hc.sending, hc.delivery,
      fun hp => absurd hp hawake, hc.tallies.same rfl rfl rfl rfl rfl⟩

/-- Whatever happens in a simulation, as long as every call can be paid for. -/
theorem aloft_apply {e : Event Payload ν} {t : State Payload ν} (hc : Aloft workload c)
    (hs : Smooth c.engine) (payable : Payable workload most)
    (room : c.engine.accepted.length + c.engine.offers.length ≤ most) (smooth : e.smooth = true)
    (h : c.engine.step? e = some t) : Aloft workload (c.apply e) := by
  cases e with
  | elapse ms | close =>
    rw [Clock.apply_of_step h rfl]
    obtain rfl := Option.some.inj h
    exact hc.same (fewerSends_same rfl) id id hc.tallies
  | offer o =>
    rw [Clock.apply_of_step h rfl]
    cases move_of_step h with
    | offerNothing => exact hc.same (fewerSends_same rfl) id id hc.tallies
    | offer => exact hc.same (fewerSends_arrive rfl) id id hc.tallies
  | enter n => exact aloft_enter hc hs payable (Nat.le_trans (Nat.le_add_left _ _) room) h
  | acquire => exact aloft_acquire hc hs payable (Nat.le_trans (Nat.le_add_right _ _) room) h
  | schedulerWakes => exact aloft_schedulerWakes hc h
  | takeGate => exact aloft_takeGate hc h
  | proberWakes => exact aloft_proberWakes hc hs.raced h
  | probeReturns reply => exact aloft_probeReturns hc h
  | directReturns n fault =>
    cases fault with
    | none => exact aloft_directReturns hc hs h
    | some f => cases smooth
  | flushReturns fault =>
    cases fault with
    | none => exact aloft_flushReturns hc (hs.staged) h
    | some f => cases smooth
  | closeReturns fault =>
    cases fault with
    | none => exact aloft_closeReturns hc h
    | some f => cases smooth
  | measure | directCrashes | probeCrashes | flushCrashes | closeCrashes => cases smooth

end Apply

end Simulation
end AdaptiveBatch
