import AdaptiveBatch.Simulation.Run
import AdaptiveBatch.Proofs.Simulation.Turn

/-!
# Progress of a simulation

As long as a simulation is not over somebody can take a turn, now or when a sink call has
come to its end, and every turn but those that a timer brings about uses up some of what
there is to do.
-/

namespace AdaptiveBatch
namespace Simulation

open Engine

/-! ## What there is to do -/

/-- An offer of a producer costs six steps of the engine and a turn of its own. -/
def Producer.effort (p : Producer) : Nat :=
  match p.phase with
  | .fresh => 8 * p.left + 1
  | .waiting _ => 8 * (p.left - 1) + 2
  | .done => 0

def crewEffort (ps : List Producer) : Nat := (ps.map (·.effort)).sum

theorem crewEffort_split (before after : List Producer) (p : Producer) :
    crewEffort (before ++ p :: after) = p.effort + crewEffort (before ++ after) := by
  simp only [crewEffort, List.map_append, List.map_cons, List.sum_append, List.sum_cons]
  omega

namespace Turn

/-- Whether a timer brings about a turn. -/
def isTimer : Turn → Bool
  | .task t => t.isTimer
  | _ => false

/-- Whether somebody goes on in a turn without a timer, and not only time. -/
def isStep : Turn → Bool
  | .elapse _ | .reorder _ => false
  | .task t => !t.isTimer
  | .producer _ | .shutdown | .wrapUp => true

end Turn

variable {ν : Type} [Number ν]

/-- How many steps are left, at most, if no timer fires any more. -/
def World.effort (w : World ν) : Nat :=
  w.run.engine.effort + crewEffort w.producers + (if w.interrupted then 0 else 1) +
    (if w.wrapped then 0 else 1)

omit [Number ν] in
theorem crewEffort_crew (workload : Workload ν) :
    crewEffort (crew workload) = 8 * total workload + workload.producers.toNat := by
  simp only [crewEffort, crew, List.map_map, Function.comp_def, Producer.effort,
    List.map_const', List.sum_replicate_nat, List.length_range, total]
  rw [Nat.mul_add, Nat.mul_one, Nat.mul_left_comm]

theorem effort_begun {settings : Settings ν} {workload : Workload ν} {s : State Payload ν}
    (fresh : Fresh s) : (World.begun settings workload s).effort =
      8 * total workload + workload.producers.toNat + 8 := by
  have hengine : s.effort = 6 := by
    obtain ⟨start, hbuffer⟩ := fresh.buffer
    rw [State.effort, fresh.line, fresh.offers, fresh.scheduler, fresh.prober, hbuffer]
    rfl
  show s.effort + crewEffort (crew workload) + 1 + 1 = _
  rw [hengine, crewEffort_crew]
  omega

theorem effort_next (p : Producer) (size : Nat) (c : Run ν) :
    (p.next size c).2.engine.effort + (p.next size c).1.effort ≤
      c.engine.effort + 8 * p.left := by
  simp only [Producer.next]
  split
  · exact Nat.add_le_add_left (Nat.zero_le _) _
  · rename_i hleft
    split
    · rename_i payload hmade
      have hstep : c.engine.step? (.offer (.one payload)) =
          some (c.engine.arrive (.one payload)) := rfl
      have hengine : (c.offer (.one payload)).2.engine = c.engine.arrive (.one payload) :=
        Clock.engine_apply hstep
      show (c.offer (.one payload)).2.engine.effort + (8 * (p.left - 1) + 2) ≤ _
      rw [hengine, effort_arrive]
      omega
    · exact Nat.add_le_add_left (Nat.zero_le _) _

namespace Kept

variable {workload : Workload ν} {w u : World ν}

/-- A producer that has its answer has less to do, whatever it is. -/
theorem effort_resume {size n : Nat} {p q : Producer} {o : Outcome ν} {c d : Run ν}
    (waits : p.phase = .waiting n) (h : p.resume size c o = .ok (q, d)) :
    d.engine.effort + q.effort < c.engine.effort + p.effort := by
  have heffort : p.effort = 8 * (p.left - 1) + 2 := by rw [Producer.effort, waits]
  rw [heffort]
  cases o with
  | accepted =>
    have hnext := effort_next { p with accepted := p.accepted + 1, left := p.left - 1 } size c
    rw [Except.ok.inj h] at hnext
    simp only at hnext
    omega
  | refused error =>
    cases error with
    | closed name =>
      obtain ⟨rfl, rfl⟩ := Prod.mk.inj (Except.ok.inj h)
      show c.engine.effort + 0 < _
      omega
    | _ => cases h
  | crashed =>
    obtain ⟨rfl, rfl⟩ := Prod.mk.inj (Except.ok.inj h)
    show c.engine.effort + 0 < _
    omega

omit [Number ν] in
theorem effort_exchange {before after : List Producer} {p q : Producer} {c : Run ν}
    (place : w.producers = before ++ p :: after)
    (less : c.engine.effort + q.effort < w.run.engine.effort + p.effort) :
    World.effort { w with run := c, producers := before ++ q :: after } < w.effort := by
  show c.engine.effort + crewEffort (before ++ q :: after) + (if w.interrupted then 0 else 1) +
    (if w.wrapped then 0 else 1) < _
  rw [World.effort, place, crewEffort_split, crewEffort_split]
  omega

/-- What a turn does to what there is to do. -/
theorem effort_step {t : Turn} (hw : Kept workload w) (checked : workload.check = .ok ())
    (h : w.step? workload.payloadBytes.toNat t = some (.ok u)) :
    u.effort + (if t.isStep then 1 else 0) ≤ w.effort + if t.isTimer then 2 else 0 := by
  generalize hr : Except.ok u = r at h
  cases took_of_step h with
  | elapse ms =>
    obtain rfl := Except.ok.inj hr
    exact Nat.le_refl _
  | @task task e event =>
    obtain rfl := Except.ok.inj hr
    have orders := orders_of_task hw.aloft (isCost_of_check checked) event
    obtain ⟨s, hs⟩ := Option.isSome_iff_exists.mp orders.enabled
    have hless := effort_task (move_of_step hs)
      (numbers_of_raced hw.smooth.raced) orders.task
    rw [orders.alarm] at hless
    show (w.run.apply e).engine.effort + crewEffort w.producers + _ + _ + _ ≤ _
    rw [Clock.engine_apply hs, World.effort]
    simp only [Turn.isStep, Turn.isTimer]
    by_cases htimer : task.isTimer = true
    · simp only [htimer, if_true, Bool.not_true, Bool.false_eq_true, if_false] at hless ⊢
      omega
    · simp only [Bool.eq_false_iff.mpr htimer, Bool.false_eq_true, if_false, Bool.not_false,
        if_true] at hless ⊢
      omega
  | reorder order =>
    obtain rfl := Except.ok.inj hr
    have heffort := effort_reorder order
    simp only [World.effort, heffort, Turn.isStep, Turn.isTimer, Bool.false_eq_true, if_false,
      Nat.add_zero, Nat.le_refl]
  | @begins i before after p place fresh =>
    obtain rfl := Except.ok.inj hr
    refine effort_exchange place ?_
    have hnext := effort_next p workload.payloadBytes.toNat w.run
    have heffort : p.effort = 8 * p.left + 1 := by rw [Producer.effort, fresh]
    omega
  | @resumes i before after p n now o place waits =>
    cases hresume : p.resume workload.payloadBytes.toNat w.run o with
    | error e =>
      rw [hresume] at hr
      cases hr
    | ok r =>
      rw [hresume] at hr
      obtain rfl := Except.ok.inj hr
      exact effort_exchange place (effort_resume waits hresume)
  | shutdown running =>
    obtain rfl := Except.ok.inj hr
    show w.run.engine.effort + crewEffort w.producers + 0 + (if w.wrapped then 0 else 1) + 1 ≤ _
    rw [World.effort, running]
    simp only [Turn.isTimer, Bool.false_eq_true, if_false]
    omega
  | wrapUp opened =>
    obtain rfl := Except.ok.inj hr
    show w.run.engine.effort + crewEffort w.producers + (if w.interrupted then 0 else 1) + 0 + 1
      ≤ _
    rw [World.effort, opened]
    simp only [Turn.isTimer, Bool.false_eq_true, if_false]
    omega

end Kept

/-! ## Who can go on -/

/-- Whether somebody other than a timer goes on once some time has passed. -/
def Goes (c : Run ν) : Prop :=
  ∃ task ms, task.isTimer = false ∧ ((c.apply (.elapse ms)).event? task).isSome = true

section Goes

variable {workload : Workload ν} {c : Run ν}

/-- A call under way comes to its end. -/
theorem landed_later (c : Run ν) (f : Flight Payload ν) :
    (c.apply (.elapse (f.due - c.now))).landed f = true := by
  show decide (f.due ≤ c.now + (f.due - c.now)) = true
  rw [decide_eq_true_eq]
  omega

theorem goes_of_send (hc : Aloft workload c) {k : Ticket Payload}
    (found : c.engine.ticket? k.number = some k) (phase : k.phase = .sending) : Goes c := by
  obtain ⟨p, hp, hnumber⟩ := hc.sending k (ticket?_mem found) phase
  obtain ⟨⟨m, f⟩, hfound⟩ : ∃ q, c.direct.find? (·.1 = k.number) = some q := by
    rw [← Option.isSome_iff_exists, List.find?_isSome]
    exact ⟨p, hp, by simp [hnumber]⟩
  refine ⟨.offer k.number, f.due - c.now, rfl, ?_⟩
  have hfound' : (c.apply (.elapse (f.due - c.now))).direct.find? (·.1 = k.number) =
    some (m, f) := hfound
  have hticket : (c.apply (.elapse (f.due - c.now))).engine.ticket? k.number = some k := found
  have hlanded := landed_later c f
  simp only [Clock.event?, Clock.offerEvent?, hticket, phase, hfound', hlanded, if_true,
    Option.isSome_some]

theorem goes_of_call (hc : Aloft workload c) {r : Request Payload}
    (call : c.engine.scheduler.call? = some r) : Goes c := by
  obtain ⟨f, hdelivery, -, hreply⟩ := hc.delivery call
  refine ⟨.scheduler, f.due - c.now, rfl, ?_⟩
  have hdelivery' : (c.apply (.elapse (f.due - c.now))).delivery = some f := hdelivery
  have hlanded := landed_later c f
  cases hphase : c.engine.scheduler with
  | delivering items reason =>
    have hphase' : (c.apply (.elapse (f.due - c.now))).engine.scheduler =
      .delivering items reason := hphase
    simp only [Clock.event?, Clock.schedulerEvent?, hphase', hdelivery', hlanded, hreply, if_true,
      Option.isSome_some]
  | closing =>
    have hphase' : (c.apply (.elapse (f.due - c.now))).engine.scheduler = .closing := hphase
    simp only [Clock.event?, Clock.schedulerEvent?, hphase', hdelivery', hlanded, hreply, if_true,
      Option.isSome_some]
  | _ =>
    rw [hphase] at call
    cases call

theorem goes_of_probe (hc : Aloft workload c) (probing : c.engine.prober = .probing) : Goes c := by
  obtain ⟨f, hprobe, hreply⟩ := hc.probe probing
  refine ⟨.prober, f.due - c.now, rfl, ?_⟩
  have hprobe' : (c.apply (.elapse (f.due - c.now))).probe = some f := hprobe
  have hphase : (c.apply (.elapse (f.due - c.now))).engine.prober = .probing := probing
  have hlanded := landed_later c f
  simp only [Clock.event?, Clock.proberEvent?, hphase, hprobe', hlanded, hreply, if_true,
    Option.isSome_some]

/-- Nobody who can go on has to wait for time to pass. -/
theorem goes_now (task : Task) (steady : task.isTimer = false)
    (h : ((c.apply (.elapse 0)).event? task).isSome = true) : Goes c :=
  ⟨task, 0, steady, h⟩

/-- Whoever is first in line can go on, unless the scheduler holds the lock, and then it
can. -/
theorem goes_of_line (hc : Aloft workload c) (waits : c.engine.line ≠ []) : Goes c := by
  cases held : c.engine.lockHeld with
  | true =>
    obtain ⟨items, reason, hphase⟩ : ∃ items reason,
        c.engine.scheduler = .delivering items reason := by
      cases hphase : c.engine.scheduler <;> simp [State.lockHeld, hphase] at held ⊢
    exact goes_of_call hc (by rw [hphase]; rfl)
  | false =>
    refine goes_now .line rfl ?_
    have held' : (c.apply (.elapse 0)).engine.lockHeld = false := held
    have hline : (c.apply (.elapse 0)).engine.line.isEmpty = false := by
      show c.engine.line.isEmpty = false
      simpa using waits
    simp [Clock.event?, Clock.acquireEvent?, held', hline]

/-- While the scheduler keeps the gate shut it can go on itself, once the direct sends have
ended. -/
theorem goes_of_gate (hc : Aloft workload c) (hs : Raced c.engine)
    (shut : c.engine.gateOpen = false) : Goes c := by
  cases hphase : c.engine.scheduler with
  | closing => exact goes_of_call hc (by rw [hphase]; rfl)
  | atGate =>
    cases hsending : c.engine.sending with
    | true =>
      obtain ⟨k, hk, phase⟩ := List.any_eq_true.mp hsending
      exact goes_of_send hc (ticket?_of_mem (numbers_of_raced hs) hk)
        (of_decide_eq_true phase)
    | false =>
      refine goes_now .scheduler rfl ?_
      have hphase' : (c.apply (.elapse 0)).engine.scheduler = .atGate := hphase
      have hsending' : (c.apply (.elapse 0)).engine.sending = false := hsending
      simp [Clock.event?, Clock.schedulerEvent?, hphase', hsending']
  | _ =>
    rw [State.gateOpen, hphase] at shut
    cases shut

/-- Every offer under way goes on, or somebody does whom it waits for. -/
theorem goes_of_offer (hc : Aloft workload c) (hs : Raced c.engine) {k : Ticket Payload}
    (hk : k ∈ c.engine.offers) : Goes c := by
  have found := ticket?_of_mem (numbers_of_raced hs) hk
  cases phase : k.phase with
  | sending => exact goes_of_send hc found phase
  | atLock =>
    have hmem : .offer k.number ∈ c.engine.line :=
      (orderly_of_raced hs).offers.mpr ⟨k, found, phase⟩
    exact goes_of_line hc (List.ne_nil_of_mem hmem)
  | atGate =>
    cases opened : c.engine.gateOpen with
    | false => exact goes_of_gate hc hs opened
    | true =>
      refine goes_now (.offer k.number) rfl ?_
      have found' : (c.apply (.elapse 0)).engine.ticket? k.number = some k := found
      have opened' : (c.apply (.elapse 0)).engine.gateOpen = true := opened
      simp [Clock.event?, Clock.offerEvent?, found', phase, opened']

/-- The background tasks of a closing engine go on until both have ended. -/
theorem goes_of_closing (hc : Aloft workload c) (hs : Raced c.engine)
    (closing : c.engine.closing = true) (unfinished : c.tasksEnded = false) : Goes c := by
  have closing' : (c.apply (.elapse 0)).engine.closing = true := closing
  cases hprober : c.engine.prober with
  | sleeping =>
    refine goes_now .prober rfl ?_
    have hprober' : (c.apply (.elapse 0)).engine.prober = .sleeping := hprober
    simp [Clock.event?, Clock.proberEvent?, hprober', closing']
  | probing => exact goes_of_probe hc hprober
  | ended crashed =>
    cases hphase : c.engine.scheduler with
    | parked =>
      refine goes_now .scheduler rfl ?_
      have hphase' : (c.apply (.elapse 0)).engine.scheduler = .parked := hphase
      simp [Clock.event?, Clock.schedulerEvent?, hphase', closing']
    | sleeping wait =>
      refine goes_now .scheduler rfl ?_
      have hphase' : (c.apply (.elapse 0)).engine.scheduler = .sleeping wait := hphase
      simp [Clock.event?, Clock.schedulerEvent?, hphase', closing']
    | locking wait draining =>
      have hmem : .scheduler ∈ c.engine.line :=
        (orderly_of_raced hs).scheduler.mpr ⟨wait, draining, hphase⟩
      exact goes_of_line hc (List.ne_nil_of_mem hmem)
    | delivering items reason => exact goes_of_call hc (by rw [hphase]; rfl)
    | atGate | closing => exact goes_of_gate hc hs (by rw [State.gateOpen, hphase])
    | ended crashed' =>
      simp [Clock.tasksEnded, State.proberEnded, State.schedulerEnded, hprober, hphase]
        at unfinished

end Goes

namespace Kept

variable {workload : Workload ν} {w : World ν}

theorem turn?_of_ready {p : Producer} (hw : Kept workload w) (hp : p ∈ w.producers)
    (ready : p.ready w.run = true) :
    (p.turn? workload.payloadBytes.toNat w.run).isSome = true := by
  cases phase : p.phase with
  | fresh => simp [Producer.turn?, phase]
  | done => simp [Producer.ready, phase] at ready
  | waiting n =>
    have gone : w.run.engine.ticket? n = none := by
      simpa [Producer.ready, phase] using ready
    have hwaits : n ∈ waiting w.producers :=
      List.mem_filterMap.mpr ⟨p, hp, by rw [Producer.waitsFor?, phase]⟩
    obtain ⟨now, o, hended⟩ := outcome?_of_gone
      (told_of_raced hw.smooth.raced) gone (hw.manned.came n hwaits)
    simp [Producer.turn?, phase, gone, hended]

/-- A producer that cannot go on waits for an offer under way. -/
theorem goes_of_unready {p : Producer} (hw : Kept workload w) (busy : p.phase ≠ .done)
    (unready : p.ready w.run = false) : Goes w.run := by
  cases phase : p.phase with
  | fresh => simp [Producer.ready, phase] at unready
  | done => exact absurd phase busy
  | waiting n =>
    cases found : w.run.engine.ticket? n with
    | none => simp [Producer.ready, phase, found] at unready
    | some k =>
      exact goes_of_offer hw.aloft hw.smooth.raced (ticket?_mem found)

/-- A turn that can be taken uses up some of what there is to do. -/
theorem advance {t : Turn} {r : Except (EngineError ν) (World ν)} (hw : Kept workload w)
    (checked : workload.check = .ok ()) (payable : Payable workload (total workload))
    (step : t.isStep = true) (h : w.step? workload.payloadBytes.toNat t = some r) :
    ∃ u, w.step? workload.payloadBytes.toNat t = some (.ok u) ∧ Kept workload u ∧
      u.effort < w.effort := by
  obtain ⟨u, rfl, hu⟩ := hw.step checked payable h
  have htimer : t.isTimer = false := by
    cases t with
    | task task => simpa [Turn.isStep, Turn.isTimer] using step
    | _ => rfl
  have heffort := hw.effort_step checked h
  rw [step, htimer, if_pos rfl, if_neg Bool.false_ne_true] at heffort
  exact ⟨u, h, hu, heffort⟩

/-- What a run without an interruption can come to, with less left to do. -/
def Advances (workload : Workload ν) (w : World ν) : Prop :=
  ∃ ts u, .shutdown ∉ ts ∧ w.play? workload.payloadBytes.toNat ts = some (.ok u) ∧
    Kept workload u ∧ u.effort < w.effort

theorem advances_of_turn {t : Turn} (hw : Kept workload w) (checked : workload.check = .ok ())
    (payable : Payable workload (total workload)) (step : t.isStep = true)
    (other : t ≠ .shutdown) (h : (w.step? workload.payloadBytes.toNat t).isSome = true) :
    Advances workload w := by
  obtain ⟨r, hr⟩ := Option.isSome_iff_exists.mp h
  obtain ⟨u, hu, hkept, hless⟩ := hw.advance checked payable step hr
  refine ⟨[t], u, ?_, play?_cons hu, hkept, hless⟩
  rw [List.mem_singleton]
  exact other.symm

theorem advances_of_goes (hw : Kept workload w) (checked : workload.check = .ok ())
    (payable : Payable workload (total workload)) (goes : Goes w.run) :
    Advances workload w := by
  obtain ⟨task, ms, steady, hevent⟩ := goes
  have helapse : w.step? workload.payloadBytes.toNat (.elapse ms) =
    some (.ok { w with run := w.run.apply (.elapse ms) }) := rfl
  have hkept := hw.stepped checked payable helapse
  have htask : (World.step? workload.payloadBytes.toNat
      { w with run := w.run.apply (.elapse ms) } (.task task)).isSome = true := by
    rw [World.step?, Option.isSome_map]
    exact hevent
  have hstep : Turn.isStep (.task task) = true := by
    rw [Turn.isStep, steady]
    rfl
  obtain ⟨r, hr⟩ := Option.isSome_iff_exists.mp htask
  obtain ⟨u, hu, hkept', hless⟩ := hkept.advance checked payable hstep hr
  refine ⟨[.elapse ms, .task task], u, by simp, ?_, hkept', hless⟩
  rw [play?_cons helapse, play?_cons hu]
  rfl

/-- As long as a simulation is not over it can go on, and need not be interrupted for
that. -/
theorem progress (hw : Kept workload w) (checked : workload.check = .ok ())
    (payable : Payable workload (total workload)) (unfinished : w.isOver = false) :
    Advances workload w := by
  have hraced := hw.smooth.raced
  by_cases hdone : ∀ p ∈ w.producers, p.phase = .done
  · cases hwrapped : w.wrapped with
    | false =>
      refine hw.advances_of_turn checked payable (t := .wrapUp) rfl (by simp) ?_
      have hall : w.producers.all (·.phase = .done) = true := by simpa using hdone
      simp [World.step?, hwrapped, hall]
    | true =>
      have closing : w.run.engine.closing = true := by
        rw [hw.closing, hwrapped, Bool.or_true]
      have hended : w.run.tasksEnded = false := by
        rw [World.isOver, hwrapped, Bool.true_and] at unfinished
        exact unfinished
      exact hw.advances_of_goes checked payable
        (goes_of_closing hw.aloft hraced closing hended)
  · obtain ⟨p, hp, busy⟩ : ∃ p ∈ w.producers, p.phase ≠ .done := by simpa using hdone
    cases ready : p.ready w.run with
    | true =>
      obtain ⟨i, hi⟩ := List.mem_iff_getElem?.mp hp
      have hturn := hw.turn?_of_ready hp ready
      refine hw.advances_of_turn checked payable (t := .producer i) rfl (by simp) ?_
      simp [World.step?, hi, hturn]
    | false =>
      exact hw.advances_of_goes checked payable (hw.goes_of_unready busy ready)

/-- A simulation comes to its end. -/
theorem ends (checked : workload.check = .ok ()) (payable : Payable workload (total workload))
    (hw : Kept workload w) :
    ∃ ts u, .shutdown ∉ ts ∧ w.play? workload.payloadBytes.toNat ts = some (.ok u) ∧
      u.isOver = true := by
  generalize heffort : w.effort = effort
  induction effort using Nat.strongRecOn generalizing w with
  | ind effort ih =>
    cases hover : w.isOver with
    | true => exact ⟨[], w, List.not_mem_nil, rfl, hover⟩
    | false =>
      obtain ⟨ts, v, hts, hplay, hkept, hless⟩ := hw.progress checked payable hover
      obtain ⟨later, u, hlater, hrest, hend⟩ := ih v.effort (heffort ▸ hless) hkept rfl
      refine ⟨ts ++ later, u, ?_, ?_, hend⟩
      · rw [List.mem_append]
        exact fun h => h.elim hts hlater
      · rw [play?_append hplay]
        exact hrest

/-- No run is longer than there is to do, but for the timers and the passing of time. -/
theorem bounded (checked : workload.check = .ok ())
    (payable : Payable workload (total workload)) {ts : List Turn} {w u : World ν}
    (hw : Kept workload w) (h : w.play? workload.payloadBytes.toNat ts = some (.ok u)) :
    u.effort + ts.countP (·.isStep) ≤ w.effort + 2 * ts.countP (·.isTimer) := by
  refine play_induction
    (motive := fun w ts u => Kept workload w →
      u.effort + ts.countP (·.isStep) ≤ w.effort + 2 * ts.countP (·.isTimer))
    (fun _ _ => Nat.le_refl _) ?_ h hw
  intro w v u t ts hstep _ ih hw
  -- a timer may leave more to do, a step leaves less, and time alone changes nothing
  have hone := hw.effort_step checked hstep
  have hrest := ih (hw.stepped checked payable hstep)
  rw [List.countP_cons, List.countP_cons]
  by_cases htimer : t.isTimer = true
  · rw [if_pos htimer] at hone ⊢
    omega
  · rw [if_neg htimer] at hone ⊢
    omega

end Kept

end Simulation
end AdaptiveBatch
