import AdaptiveBatch.Proofs.Engine.Effort
import AdaptiveBatch.Proofs.Simulation.Crew

/-!
# The turns of a simulation

Whoever takes a turn, the producers and the engine stay in agreement, and none of the
calls under way fails.  So no turn of a producer is its end by an error.
-/

namespace AdaptiveBatch

theorem isCost_of_check {ν : Type} [Number ν] {w : Workload ν} (h : w.check = .ok ()) :
    Number.isCost w.probe = true :=
  ((Workload.check_ok w).mp h).1

/-- Whether a task goes on because of a timer, in an engine that is not closing. -/
def Engine.Task.isTimer : Engine.Task → Bool
  | .tick | .beat => true
  | _ => false

namespace Simulation

open Engine

variable {ν : Type} [Number ν]

/-! ## What the tasks come to -/

section Tasks

variable {workload : Workload ν} {c : Run ν} {e : Event Payload ν}

/-- What a task comes to when it goes on: an event that is enabled, and in which the sink
does what it is asked to. -/
structure Orders (c : Run ν) (timer : Bool) (e : Event Payload ν) : Prop where
  enabled : (c.engine.step? e).isSome = true
  smooth : e.smooth = true
  task : e.isTask = true
  alarm : c.engine.alarm e = timer

theorem orders_of_offer {n : Nat} (hc : Aloft workload c) (h : c.offerEvent? n = some e) :
    Orders c false e := by
  simp only [Clock.offerEvent?] at h
  split at h
  · rename_i k found
    split at h
    · rename_i phase
      split at h
      · rename_i opened
        obtain rfl := Option.some.inj h
        exact ⟨by simp [State.step?, found, phase, opened], rfl, rfl, rfl⟩
      · cases h
    · rename_i phase
      split at h
      · rename_i m f hfound
        split at h
        · have hreply := (hc.direct _ (List.mem_of_find?_eq_some hfound)).1
          have he : e = .directReturns n none := by
            rw [← Option.some.inj h]
            simp only [Clock.directEnd, show f.reply = .done from hreply]
            rfl
          rw [he]
          exact ⟨by simp [State.step?, found, phase], rfl, rfl, rfl⟩
        · cases h
      · cases h
    · cases h
  · cases h

theorem orders_of_line (h : c.acquireEvent? = some e) : Orders c false e := by
  simp only [Clock.acquireEvent?] at h
  split at h
  · cases h
  · rename_i free
    obtain rfl := Option.some.inj h
    refine ⟨?_, rfl, rfl, rfl⟩
    cases hline : c.engine.line with
    | nil => simp [hline] at free
    | cons w rest =>
      have hfree : c.engine.lockHeld = false := by simpa [hline] using free
      simp [State.step?, hfree, hline]

theorem orders_of_tick (h : c.tickEvent? = some e) : Orders c true e := by
  simp only [Clock.tickEvent?] at h
  split at h
  · rename_i wait asleep
    split at h
    · rename_i due
      obtain rfl := Option.some.inj h
      have running : c.engine.closing = false := by simp at due; exact due.1
      exact ⟨by simp [State.step?, asleep], rfl, rfl, by simp [State.alarm, asleep, running]⟩
    · cases h
  · cases h

theorem orders_of_beat (h : c.beatEvent? = some e) : Orders c true e := by
  simp only [Clock.beatEvent?] at h
  split at h
  · rename_i asleep
    split at h
    · rename_i due
      obtain rfl := Option.some.inj h
      have running : c.engine.closing = false := by simp at due; exact due.1
      exact ⟨by simp [State.step?, asleep], rfl, rfl, by simp [State.alarm, running]⟩
    · cases h
  · cases h

theorem orders_of_scheduler (hc : Aloft workload c) (h : c.schedulerEvent? = some e) :
    Orders c false e := by
  simp only [Clock.schedulerEvent?] at h
  split at h
  · rename_i parked
    split at h
    · rename_i reason
      obtain rfl := Option.some.inj h
      have hreason : c.engine.closing = true ∨ c.engine.model.packing = true := by
        simpa using reason
      exact ⟨by simp [State.step?, parked, hreason], rfl, rfl, by simp [State.alarm, parked]⟩
    · cases h
  · rename_i wait asleep
    split at h
    · rename_i closing
      obtain rfl := Option.some.inj h
      exact ⟨by simp [State.step?, asleep], rfl, rfl, by simp [State.alarm, asleep, closing]⟩
    · cases h
  · rename_i items reason delivering
    obtain ⟨f, hdelivery, -, hreply⟩ := hc.delivery (r := State.flushRequest items)
      (by rw [delivering]; rfl)
    simp only [hdelivery, hreply] at h
    split at h
    · obtain rfl := Option.some.inj h
      exact ⟨by simp [State.step?, delivering], rfl, rfl, rfl⟩
    · cases h
  · rename_i waits
    split at h
    · cases h
    · rename_i still
      obtain rfl := Option.some.inj h
      have hstill : c.engine.sending = false := by simpa using still
      exact ⟨by simp [State.step?, waits, hstill], rfl, rfl, rfl⟩
  · rename_i closing
    obtain ⟨f, hdelivery, -, hreply⟩ := hc.delivery (r := .close) (by rw [closing]; rfl)
    simp only [hdelivery, hreply] at h
    split at h
    · obtain rfl := Option.some.inj h
      exact ⟨by simp [State.step?, closing], rfl, rfl, rfl⟩
    · cases h
  · cases h
  · cases h

theorem orders_of_prober (hc : Aloft workload c) (cost : Number.isCost workload.probe = true)
    (h : c.proberEvent? = some e) : Orders c false e := by
  simp only [Clock.proberEvent?] at h
  split at h
  · rename_i asleep
    split at h
    · rename_i closing
      obtain rfl := Option.some.inj h
      exact ⟨by simp [State.step?, asleep], rfl, rfl, by simp [State.alarm, closing]⟩
    · cases h
  · rename_i probing
    obtain ⟨f, hprobe, hreply⟩ := hc.probe probing
    simp only [hprobe, hreply] at h
    split at h
    · obtain rfl := Option.some.inj h
      refine ⟨by simp [State.step?, probing, Sink.Reply.probe, ProbeReply.isLate], ?_, rfl, rfl⟩
      simp only [Event.smooth, Sink.Reply.probe, ProbeReply.cost?, if_pos (isCost_iff.mp cost)]
      rfl
    · cases h
  · cases h

theorem orders_of_task {task : Task} (hc : Aloft workload c)
    (cost : Number.isCost workload.probe = true) (h : c.event? task = some e) :
    Orders c task.isTimer e := by
  cases task with
  | offer n => exact orders_of_offer hc h
  | line => exact orders_of_line h
  | tick => exact orders_of_tick h
  | scheduler => exact orders_of_scheduler hc h
  | beat => exact orders_of_beat h
  | prober => exact orders_of_prober hc cost h

end Tasks

/-! ## What the turns come to -/

theorem at_place {ps : List Producer} {i : Nat} {p : Producer} (h : ps[i]? = some p) :
    ∃ before after, ps = before ++ p :: after ∧ ∀ q, ps.set i q = before ++ q :: after := by
  obtain ⟨hi, rfl⟩ := List.getElem?_eq_some_iff.mp h
  refine ⟨ps.take i, ps.drop (i + 1), ?_, fun q => ?_⟩
  · rw [List.getElem_cons_drop, List.take_append_drop]
  · rw [List.set_eq_take_append_cons_drop, if_pos hi]

/-- All that a turn can be. -/
inductive Took (size : Nat) (w : World ν) : Turn → Except (EngineError ν) (World ν) → Prop where
  | elapse (ms : Nat) : Took size w (.elapse ms) (.ok { w with run := w.run.apply (.elapse ms) })
  | task {task : Task} {e : Event Payload ν} (event : w.run.event? task = some e) :
      Took size w (.task task) (.ok { w with run := w.run.apply e })
  | reorder {line : List Waiter} (order : w.run.engine.line.Perm line) :
      Took size w (.reorder line)
        (.ok { w with run := { w.run with engine := { w.run.engine with line } } })
  | begins {i : Nat} {before after : List Producer} {p : Producer}
      (place : w.producers = before ++ p :: after) (fresh : p.phase = .fresh) :
      Took size w (.producer i) (.ok { w with
        run := (p.next size w.run).2, producers := before ++ (p.next size w.run).1 :: after })
  | resumes {i : Nat} {before after : List Producer} {p : Producer} {n now : Nat} {o : Outcome ν}
      (place : w.producers = before ++ p :: after) (waits : p.phase = .waiting n)
      (gone : w.run.engine.ticket? n = none) (ended : w.run.engine.outcome? n = some (now, o)) :
      Took size w (.producer i) ((p.resume size w.run o).map fun r =>
        { w with run := r.2, producers := before ++ r.1 :: after })
  | shutdown (running : w.interrupted = false) :
      Took size w .shutdown (.ok { w with run := w.run.close, interrupted := true })
  | wrapUp (opened : w.wrapped = false) (done : ∀ p ∈ w.producers, p.phase = .done) :
      Took size w .wrapUp (.ok { w with run := w.run.close, wrapped := true })

theorem took_of_step {size : Nat} {w : World ν} {t : Turn}
    {r : Except (EngineError ν) (World ν)} (h : w.step? size t = some r) : Took size w t r := by
  cases t with
  | elapse ms =>
    obtain rfl := Option.some.inj h
    exact .elapse ms
  | task task =>
    obtain ⟨e, he, rfl⟩ := Option.map_eq_some_iff.mp h
    exact .task he
  | reorder line =>
    rw [World.step?] at h
    split at h
    · rename_i order
      obtain rfl := Option.some.inj h
      exact .reorder order
    · cases h
  | producer i =>
    obtain ⟨p, hp, hturn⟩ := Option.bind_eq_some_iff.mp h
    obtain ⟨x, hx, rfl⟩ := Option.map_eq_some_iff.mp hturn
    obtain ⟨before, after, place, hset⟩ := at_place hp
    simp only [hset]
    simp only [Producer.turn?] at hx
    split at hx
    · rename_i fresh
      obtain rfl := Option.some.inj hx
      exact .begins place fresh
    · rename_i n waits
      split at hx
      · cases hx
      · rename_i gone
        obtain ⟨⟨now, o⟩, ended, rfl⟩ := Option.map_eq_some_iff.mp hx
        exact .resumes place waits gone ended
    · cases hx
  | shutdown =>
    simp only [World.step?] at h
    split at h
    · cases h
    · rename_i idle
      obtain rfl := Option.some.inj h
      simp only [Bool.or_eq_true, not_or, Bool.not_eq_true] at idle
      exact .shutdown idle.1
  | wrapUp =>
    simp only [World.step?] at h
    split at h
    · cases h
    · rename_i idle
      obtain rfl := Option.some.inj h
      simp only [Bool.or_eq_true, Bool.not_eq_true', not_or, Bool.not_eq_true,
        Bool.not_eq_false] at idle
      exact .wrapUp idle.1 (by simpa using idle.2)

/-! ## What every turn keeps -/

/-- Whether payloads of this workload can be made. -/
def Makes (workload : Workload ν) : Prop :=
  (Payload.make? 0 0 workload.payloadBytes.toNat).isSome = true

/-- The items of a whole workload. -/
def total (workload : Workload ν) : Nat :=
  workload.producers.toNat * workload.itemsPerProducer.toNat

/-- The state of a simulation, between two turns. -/
structure Kept (workload : Workload ν) (w : World ν) : Prop where
  smooth : Smooth w.run.engine
  aloft : Aloft workload w.run
  manned : Manned workload.itemsPerProducer.toNat workload.payloadBytes.toNat w.run.engine
    w.producers
  number : w.producers.length = workload.producers.toNat
  closing : w.run.engine.closing = (w.interrupted || w.wrapped)
  wrapped : w.wrapped = true → ∀ p ∈ w.producers, p.phase = .done
  /-- Unless it is interrupted, a producer leaves nothing out. -/
  whole : w.interrupted = false → Makes workload → ∀ p ∈ w.producers,
    p.accepted + p.left = workload.itemsPerProducer.toNat ∧ (p.phase = .done → p.left = 0)

theorem closing_same {s t : State Payload ν} {e : Event Payload ν} (h : Move s e t)
    (other : e ≠ .close) : t.closing = s.closing := by
  cases h with
  | close => exact absurd rfl other
  | _ => rfl

namespace Kept

variable {workload : Workload ν} {w : World ν}

theorem room (hw : Kept workload w) :
    w.run.engine.accepted.length + w.run.engine.offers.length ≤ total workload := by
  rw [total, ← hw.number]
  exact hw.manned.room hw.smooth.raced

/-- The engine takes a step that no producer takes part in. -/
theorem event {e : Event Payload ν} {t : State Payload ν} (hw : Kept workload w)
    (payable : Payable workload (total workload)) (h : w.run.engine.step? e = some t)
    (smooth : e.smooth = true) (inside : e.arrives = false) (interrupted wrapped : Bool)
    (closing : t.closing = (interrupted || wrapped))
    (flags : w.interrupted = true → interrupted = true)
    (done : wrapped = true → ∀ p ∈ w.producers, p.phase = .done) :
    Kept workload { w with run := w.run.apply e, interrupted, wrapped } := by
  have hengine := Clock.engine_apply h
  have hmanned := hw.manned.move hw.smooth (move_of_step h) smooth inside
  constructor
  · rw [hengine]
    exact smooth_step hw.smooth smooth h
  · exact aloft_apply hw.aloft hw.smooth payable hw.room smooth h
  · rw [hengine]
    exact hmanned
  · exact hw.number
  · rw [hengine]
    exact closing
  · exact done
  · intro running makes
    refine hw.whole ?_ makes
    cases hi : w.interrupted with
    | false => rfl
    | true =>
      rw [flags hi] at running
      cases running

/-- One producer is exchanged for another, and perhaps the run for one that has gone on. -/
theorem exchange {c : Run ν} {before after : List Producer} {p q : Producer}
    (hw : Kept workload w) (place : w.producers = before ++ p :: after)
    (smooth : Smooth c.engine) (aloft : Aloft workload c)
    (manned : Manned workload.itemsPerProducer.toNat workload.payloadBytes.toNat c.engine
      (before ++ q :: after))
    (closing : c.engine.closing = w.run.engine.closing) (busy : p.phase ≠ .done)
    (whole : w.interrupted = false → w.wrapped = false → Makes workload →
      q.accepted + q.left = p.accepted + p.left ∧ (q.phase = .done → q.left = 0)) :
    Kept workload { w with run := c, producers := before ++ q :: after } := by
  have hmem : p ∈ w.producers := place ▸ List.mem_append_right _ List.mem_cons_self
  -- nothing is wrapped up before all producers are done
  have hopen : w.wrapped = false := by
    cases hwrapped : w.wrapped with
    | false => rfl
    | true => exact absurd (hw.wrapped hwrapped p hmem) busy
  constructor
  · exact smooth
  · exact aloft
  · exact manned
  · have hnumber := hw.number
    rw [place] at hnumber
    simpa using hnumber
  · exact closing.trans hw.closing
  · intro hwrapped
    rw [hopen] at hwrapped
    cases hwrapped
  · intro running makes
    have hwhole := hw.whole running makes
    obtain ⟨hsum, hleft⟩ := whole running hopen makes
    exact forall_exchange (place ▸ hwhole) ⟨hsum.trans (hwhole p hmem).1, hleft⟩

/-- A producer that waits for nothing makes its next offer, or comes to its end. -/
theorem next {before after : List Producer} {p : Producer} (hw : Kept workload w)
    (payable : Payable workload (total workload))
    (place : w.producers = before ++ p :: after) (fresh : p.phase = .fresh) :
    let r := p.next workload.payloadBytes.toNat w.run
    Kept workload { w with run := r.2, producers := before ++ r.1 :: after } := by
  have hmem : p ∈ w.producers := place ▸ List.mem_append_right _ List.mem_cons_self
  have hmanned := place ▸ hw.manned
  have hidle : p.waitsFor? = none := by rw [Producer.waitsFor?, fresh]
  have hp := hw.manned.employed p hmem
  have hgone : ∀ n, p.waitsFor? = some n → w.run.engine.ticket? n = none := by
    intro n hn
    rw [hidle] at hn
    cases hn
  have hbusy : p.phase ≠ .done := by simp [fresh]
  simp only [Producer.next]
  split
  · rename_i hleft
    refine hw.exchange place hw.smooth hw.aloft ?_ rfl hbusy (fun _ _ _ => ⟨rfl, fun _ => hleft⟩)
    refine hmanned.exchange ⟨hp.room, fun h => (by cases h), ?_⟩ hgone rfl (by simp [hidle])
    exact fun h => hp.made (h.imp_right fun h => (by cases h))
  · rename_i hleft
    have hmore : 0 < p.left := Nat.pos_of_ne_zero hleft
    split
    · rename_i payload hmade
      have hmakes : Makes workload := by
        rw [Makes, ← make?_isSome p.index p.accepted, hmade]
        rfl
      have hstep : w.run.engine.step? (.offer (.one payload)) =
          some (w.run.engine.arrive (.one payload)) := rfl
      have hengine := Clock.engine_apply hstep
      have hmove := move_of_step hstep
      have told := told_of_raced hw.smooth.raced
      refine hw.exchange place ?_ (aloft_apply hw.aloft hw.smooth payable hw.room rfl hstep) ?_ ?_
        hbusy (fun _ _ _ => ⟨rfl, fun h => (by cases h)⟩)
      · exact hengine ▸ smooth_step hw.smooth rfl hstep
      · exact hengine ▸ hmanned.offer told hidle hmore hmakes hstep
      · exact hengine ▸ closing_same hmove (by simp)
    · rename_i hmade
      -- all payloads are of one size, so it has not made any before
      have hnot : ¬ Makes workload := by
        rw [Makes, ← make?_isSome p.index p.accepted, hmade]
        simp
      have hnone : p.accepted = 0 := Nat.eq_zero_of_not_pos fun h => hnot (hp.made (.inl h))
      have hroom := hp.room
      refine hw.exchange place hw.smooth hw.aloft ?_ rfl hbusy
        (fun _ _ makes => absurd makes hnot)
      refine hmanned.exchange ⟨?_, fun h => (by cases h), fun h => ?_⟩ hgone rfl ?_
      · show 0 + p.left ≤ _
        omega
      · rcases h with h | h <;> cases h
      · show 0 = _
        simp [hidle, hnone]

/-- A producer whose offer has ended counts it and goes on, or stops. -/
theorem resume {before after : List Producer} {p : Producer} {n now : Nat} {o : Outcome ν}
    (hw : Kept workload w) (payable : Payable workload (total workload))
    (place : w.producers = before ++ p :: after) (waits : p.phase = .waiting n)
    (gone : w.run.engine.ticket? n = none) (ended : w.run.engine.outcome? n = some (now, o)) :
    ∃ q c, p.resume workload.payloadBytes.toNat w.run o = .ok (q, c) ∧
      Kept workload { w with run := c, producers := before ++ q :: after } := by
  have hmem : p ∈ w.producers := place ▸ List.mem_append_right _ List.mem_cons_self
  have hmanned := place ▸ hw.manned
  have hwaits : p.waitsFor? = some n := by rw [Producer.waitsFor?, waits]
  have hp := hw.manned.employed p hmem
  have hsome : p.waitsFor?.isSome = true := by rw [hwaits]; rfl
  have hmore := hp.more hsome
  have hgone : ∀ m, p.waitsFor? = some m → w.run.engine.ticket? m = none := by
    intro m hm
    obtain rfl := Option.some.inj (hwaits.symm.trans hm)
    exact gone
  have hbusy : p.phase ≠ .done := by simp [waits]
  rcases answer_of_smooth hw.smooth ended with ⟨rfl, haccepted⟩ | ⟨rfl, hrefused, closing⟩
  · -- what it does next does not depend on what it waited for
    let q : Producer :=
      { p with accepted := p.accepted + 1, left := p.left - 1, phase := .fresh }
    have hq : Kept workload { w with producers := before ++ q :: after } := by
      refine hw.exchange (c := w.run) place hw.smooth hw.aloft ?_ rfl hbusy ?_
      · refine hmanned.exchange ⟨?_, fun h => (by cases h), fun _ => hp.made (.inr hsome)⟩ hgone
          rfl ?_
        · have hroom := hp.room
          show p.accepted + 1 + (p.left - 1) ≤ _
          omega
        · simp [q, hwaits, haccepted]
      · refine fun _ _ _ => ⟨?_, fun h => (by cases h)⟩
        show p.accepted + 1 + (p.left - 1) = p.accepted + p.left
        omega
    have hnext := hq.next payable rfl rfl
    exact ⟨_, _, rfl, hnext⟩
  · refine ⟨{ p with phase := .done }, w.run, rfl, ?_⟩
    refine hw.exchange place hw.smooth hw.aloft ?_ rfl hbusy ?_
    · refine hmanned.exchange ⟨hp.room, fun h => (by cases h), fun h => ?_⟩ hgone rfl ?_
      · exact hp.made (h.imp_right fun h => (by cases h))
      · simp [hwaits, hrefused]
    · intro running hopen
      rw [hw.closing, running, hopen] at closing
      cases closing

/-- No turn comes to an error, and every turn keeps the simulation in order. -/
theorem step {t : Turn} {r : Except (EngineError ν) (World ν)} (hw : Kept workload w)
    (checked : workload.check = .ok ()) (payable : Payable workload (total workload))
    (h : w.step? workload.payloadBytes.toNat t = some r) : ∃ u, r = .ok u ∧ Kept workload u := by
  cases took_of_step h with
  | elapse ms =>
    refine ⟨_, rfl, ?_⟩
    have hstep : w.run.engine.step? (.elapse ms) =
        some { w.run.engine with now := w.run.engine.now + ms } := rfl
    exact hw.event payable hstep rfl rfl w.interrupted w.wrapped hw.closing id hw.wrapped
  | @task task e event =>
    have orders := orders_of_task hw.aloft (isCost_of_check checked) event
    obtain ⟨s, hs⟩ := Option.isSome_iff_exists.mp orders.enabled
    have htask := orders.task
    refine ⟨_, rfl, ?_⟩
    refine hw.event payable hs orders.smooth ?_ w.interrupted w.wrapped ?_ id hw.wrapped
    · cases e <;> first | rfl | cases htask
    · refine (closing_same (move_of_step hs) ?_).trans hw.closing
      rintro rfl
      cases htask
  | reorder order =>
    refine ⟨_, rfl, ?_⟩
    exact
      { smooth := smooth_reorder order hw.smooth
        aloft := hw.aloft.same (fewerSends_same rfl) id id hw.aloft.tallies
        manned := ⟨hw.manned.employed, hw.manned.distinct, hw.manned.awaited, hw.manned.came,
          hw.manned.accepted⟩
        number := hw.number
        closing := hw.closing
        wrapped := hw.wrapped
        whole := hw.whole }
  | begins place fresh => exact ⟨_, rfl, hw.next payable place fresh⟩
  | resumes place waits gone ended =>
    obtain ⟨q, c, hresume, hkept⟩ := hw.resume payable place waits gone ended
    rw [hresume]
    exact ⟨_, rfl, hkept⟩
  | shutdown =>
    exact ⟨_, rfl, hw.event payable rfl rfl rfl true w.wrapped rfl (fun _ => rfl) hw.wrapped⟩
  | wrapUp opened done =>
    exact ⟨_, rfl, hw.event payable rfl rfl rfl w.interrupted true (by simp) id fun _ => done⟩

end Kept

/-! ## Runs -/

/-- What a list of turns leads to, if each of them can be taken when it comes.  An error ends
the simulation. -/
def World.play? (size : Nat) (w : World ν) : List Turn → Option (Except (EngineError ν) (World ν))
  | [] => some (.ok w)
  | t :: ts =>
    match w.step? size t with
    | some (.ok u) => play? size u ts
    | some (.error e) => some (.error e)
    | none => none

theorem play?_cons {size : Nat} {w u : World ν} {t : Turn} {ts : List Turn}
    (h : w.step? size t = some (.ok u)) : w.play? size (t :: ts) = u.play? size ts := by
  rw [World.play?, h]

/-- A run without an error is nothing, or a turn and a run. -/
theorem play_induction {size : Nat} {motive : World ν → List Turn → World ν → Prop}
    (nil : ∀ w, motive w [] w)
    (cons : ∀ {w v u : World ν} {t : Turn} {ts : List Turn}, w.step? size t = some (.ok v) →
      v.play? size ts = some (.ok u) → motive v ts u → motive w (t :: ts) u)
    {ts : List Turn} : ∀ {w u : World ν}, w.play? size ts = some (.ok u) → motive w ts u := by
  induction ts with
  | nil =>
    intro w u h
    obtain rfl := Except.ok.inj (Option.some.inj h)
    exact nil w
  | cons t ts ih =>
    intro w u h
    rw [World.play?] at h
    split at h
    · rename_i v hstep
      exact cons hstep h (ih h)
    · cases Option.some.inj h
    · cases h

theorem play?_append {size : Nat} {ts later : List Turn} {w u : World ν}
    (h : w.play? size ts = some (.ok u)) : w.play? size (ts ++ later) = u.play? size later := by
  refine play_induction
    (motive := fun w ts u => w.play? size (ts ++ later) = u.play? size later) ?_ ?_ h
  · exact fun _ => rfl
  · intro w v u t ts hstep _ ih
    rw [List.cons_append, play?_cons hstep]
    exact ih

namespace Kept

variable {workload : Workload ν} {w u : World ν}

theorem stepped {t : Turn} (hw : Kept workload w) (checked : workload.check = .ok ())
    (payable : Payable workload (total workload))
    (h : w.step? workload.payloadBytes.toNat t = some (.ok u)) : Kept workload u := by
  obtain ⟨v, hv, hkept⟩ := hw.step checked payable h
  obtain rfl := Except.ok.inj hv
  exact hkept

theorem played {ts : List Turn} (hw : Kept workload w) (checked : workload.check = .ok ())
    (payable : Payable workload (total workload))
    (h : w.play? workload.payloadBytes.toNat ts = some (.ok u)) : Kept workload u := by
  refine play_induction (motive := fun w _ u => Kept workload w → Kept workload u)
    (fun _ => id) ?_ h hw
  intro w v u t ts hstep _ ih hw
  exact ih (hw.stepped checked payable hstep)

/-- No run comes to an error. -/
theorem play (checked : workload.check = .ok ()) (payable : Payable workload (total workload))
    {ts : List Turn} : ∀ {w : World ν} {r : Except (EngineError ν) (World ν)}, Kept workload w →
      w.play? workload.payloadBytes.toNat ts = some r → ∃ u, r = .ok u ∧ Kept workload u := by
  induction ts with
  | nil =>
    intro w r hw h
    exact ⟨w, (Option.some.inj h).symm, hw⟩
  | cons t ts ih =>
    intro w r hw h
    rw [World.play?] at h
    split at h
    · rename_i u hstep
      exact ih (hw.stepped checked payable hstep) h
    · rename_i e hstep
      obtain ⟨v, hv, -⟩ := hw.step checked payable hstep
      cases hv
    · cases h

end Kept

/-! ## Where simulations begin -/

/-- A simulation whose engine has started as `s`. -/
def World.begun (settings : Settings ν) (workload : Workload ν) (s : State Payload ν) : World ν :=
  { run := Clock.setTimers
      { behaviour := Sink.Simulated.behaviour Payload ν, engine := s
        sink := Sink.Simulated.ofWorkload (sinkName settings.name) workload
        direct := [], delivery := none, probe := none, tickDue := none, probeDue := none }
    producers := crew workload, interrupted := false, wrapped := false }

/-- An engine whose settings pass the check starts, since the sink answers its seed probe with
a cost that passes it too. -/
theorem start_ok {settings : Settings ν} {workload : Workload ν} (checked : settings.check = .ok ())
    (cost : Number.isCost workload.probe = true)
    (capacity : settings.failureCapacity.toNat ≤ greatestCapacity) :
    ∃ s delay, State.spawn settings (sinkName settings.name) 0 delay (.answer workload.probe) =
        .ok s ∧
      World.start settings workload = .ok (World.begun settings workload s) := by
  have positive := ((check_ok settings).mp checked).2.2.2.2.1
  obtain ⟨b, hbuild⟩ : ∃ b : State Payload ν,
      State.build settings (sinkName settings.name) 0 = .ok b := by
    simp only [State.build, checked, if_neg (Nat.not_lt.mpr capacity)]
    exact ⟨_, rfl⟩
  let plan : Sink.Plan ν :=
    ({ delay := 0, reply := .answer workload.probe } : Sink.Plan ν).within settings.probeTimeout
  have plays : Plays workload (Sink.Simulated.ofWorkload (sinkName settings.name) workload) :=
    ⟨rfl, rfl, rfl⟩
  have hanswer : plan.reply = .answer workload.probe := answer_of_probe plays positive
  have hseed : ∃ s, State.seed { b with now := b.now + plan.delay } (.answer workload.probe) =
      .ok s := by
    have hjudge : judgeProbe b.sink b.settings.probeTimeout (.answer workload.probe) =
        .ok workload.probe := by
      simp only [judgeProbe, cost, if_true]
    simp only [State.seed, hjudge]
    exact ⟨_, rfl⟩
  obtain ⟨s, hs⟩ := hseed
  refine ⟨s, plan.delay, ?_, ?_⟩
  · simp only [State.spawn, hbuild, bind, Except.bind]
    exact hs
  · have hbuild' : State.build settings ((Sink.Simulated.behaviour Payload ν).name
        (Sink.Simulated.ofWorkload (sinkName settings.name) workload)) 0 = .ok b := hbuild
    have hplan : ((Sink.Simulated.behaviour Payload ν).start
        (Sink.Simulated.ofWorkload (sinkName settings.name) workload) .probe).2.within
          settings.probeTimeout = plan := rfl
    simp only [World.start, Clock.start, hbuild', hplan, hanswer, Sink.Reply.probe, hs]
    rfl

omit [Number ν] in
theorem crew_fresh {workload : Workload ν} {p : Producer} (h : p ∈ crew workload) :
    p.phase = .fresh ∧ p.accepted = 0 ∧ p.left = workload.itemsPerProducer.toNat := by
  obtain ⟨i, -, rfl⟩ := List.mem_map.mp h
  exact ⟨rfl, rfl, rfl⟩

omit [Number ν] in
theorem waiting_crew (workload : Workload ν) : waiting (crew workload) = [] := by
  rw [waiting, List.filterMap_eq_nil_iff]
  intro p hp
  rw [Producer.waitsFor?, (crew_fresh hp).1]

omit [Number ν] in
theorem counted_crew (workload : Workload ν) : counted (crew workload) = 0 := by
  rw [counted_even fun p hp => (crew_fresh hp).2.1, Nat.mul_zero]

theorem manned_crew {workload : Workload ν} {s : State Payload ν} (h : Fresh s) :
    Manned workload.itemsPerProducer.toNat workload.payloadBytes.toNat s (crew workload) := by
  constructor
  · intro p hp
    obtain ⟨hphase, haccepted, hleft⟩ := crew_fresh hp
    have hidle : p.waitsFor? = none := by rw [Producer.waitsFor?, hphase]
    refine ⟨Nat.le_of_eq ?_, ?_, ?_⟩
    · rw [haccepted, hleft, Nat.zero_add]
    · simp [hidle]
    · simp [hidle, haccepted]
  · rw [waiting_crew]
    exact List.nodup_nil
  · rw [h.offers]
    exact fun k hk => absurd hk List.not_mem_nil
  · rw [waiting_crew]
    exact fun n hn => absurd hn List.not_mem_nil
  · have haccepted : s.accepted = [] := seen_fresh h rfl fun _ => rfl
    rw [waiting_crew, counted_crew, haccepted]
    rfl

theorem kept_of_spawn {settings : Settings ν} {workload : Workload ν} {sink : String}
    {now delay : Nat} {reply : ProbeReply ν} {s : State Payload ν}
    (hspawn : State.spawn settings sink now delay reply = .ok s) :
    Kept workload (World.begun settings workload s) := by
  have fresh := fresh_of_spawn hspawn
  constructor
  · exact smooth_of_spawn hspawn
  · constructor
    · rfl
    · exact ⟨rfl, rfl, rfl⟩
    · exact fun p hp => absurd hp List.not_mem_nil
    · show ∀ k ∈ s.offers, _
      rw [fresh.offers]
      exact fun k hk => absurd hk List.not_mem_nil
    · intro r hr
      have hr' : s.scheduler.call? = some r := hr
      rw [fresh.scheduler] at hr'
      cases hr'
    · intro hp
      have hp' : s.prober = .probing := hp
      rw [fresh.prober] at hp'
      cases hp'
    · show Tallies Metrics.Tally.empty s.counters
      rw [fresh.counters]
      exact ⟨rfl, rfl, rfl, rfl⟩
  · exact manned_crew fresh
  · show (crew workload).length = _
    simp [crew]
  · exact fresh.closing
  · exact fun h => by cases h
  · intro _ _ p hp
    obtain ⟨hphase, haccepted, hleft⟩ := crew_fresh hp
    refine ⟨by rw [haccepted, hleft, Nat.zero_add], fun hdone => ?_⟩
    rw [hphase] at hdone
    cases hdone

end Simulation
end AdaptiveBatch
