import AdaptiveBatch.Proofs.Engine.Delivery

/-!
# An engine without one of its offers

An offer passes the gate, takes its turn for the lock and waits for its sink call, and
these are steps of its own.  The other tasks get to know of it by that call, by what it
puts into the buffer and by the counters.  An offer that comes to none of these can be
left out: the others take the steps that they took, and all is as it was but for what
the log says about that offer.
-/

namespace AdaptiveBatch
namespace Engine

variable {α ν : Type}

/-- The engine without the offer of this number. -/
def State.lacking (s : State α ν) (n : Nat) : State α ν :=
  { s with
    offers := s.offers.filter (·.number ≠ n)
    line := s.line.filter (· ≠ .offer n)
    log := s.log.filter fun (_, e) => e.number? ≠ some n }

/-- The same engine with nothing in its log about the offer of this number. -/
def State.untold (s : State α ν) (n : Nat) : State α ν :=
  { s with log := s.log.filter fun (_, e) => e.number? ≠ some n }

def Act.lacking (n : Nat) : Act α ν → Act α ν
  | .event e => .event e
  | .reorder line => .reorder (line.filter (· ≠ .offer n))

/-- The offer whose own step an act is. -/
def State.mover? (s : State α ν) : Act α ν → Option Nat
  | .event (.enter n) | .event (.directReturns n _) | .event (.directCrashes n) => some n
  | .event .acquire =>
    match s.line with
    | .offer n :: _ => some n
    | _ => none
  | _ => none

/-- All but the own steps of the offer of this number. -/
def State.others [Number ν] (s : State α ν) (n : Nat) : List (Act α ν) → List (Act α ν)
  | [] => []
  | a :: as =>
    (if s.mover? a = some n then [] else [a.lacking n]) ++
      ((s.act? a).map fun t => t.others n as).getD []

/-! ## What is left of a change of the state -/

theorem lacking_note_own (s : State α ν) {n : Nat} {e : Entry α ν} (own : e.number? = some n) :
    (s.note e).lacking n = s.lacking n := by
  simp [State.lacking, State.note, own]

theorem lacking_note (s : State α ν) {n : Nat} {e : Entry α ν} (other : e.number? ≠ some n) :
    (s.note e).lacking n = (s.lacking n).note e := by
  simp [State.lacking, State.note, other]

theorem lacking_answer_own (s : State α ν) (n : Nat) (o : Outcome ν) :
    (s.answer n o).lacking n = s.lacking n := by
  rw [State.answer, lacking_note_own _ rfl]
  simp [State.lacking]

theorem lacking_answer (s : State α ν) {n m : Nat} (o : Outcome ν) (other : m ≠ n) :
    (s.answer m o).lacking n = (s.lacking n).answer m o := by
  rw [State.answer, lacking_note _ (by simpa [Entry.number?] using other)]
  simp [State.lacking, State.answer, State.note, List.filter_filter, Bool.and_comm]

theorem lacking_setPhase_own (s : State α ν) (n : Nat) (p : OfferPhase) :
    (s.setPhase n p).lacking n = s.lacking n := by
  have hoffers : (s.setPhase n p).offers.filter (·.number ≠ n) =
      s.offers.filter (·.number ≠ n) := by
    rw [State.setPhase]
    induction s.offers with
    | nil => rfl
    | cons k rest ih =>
      rw [List.map_cons]
      by_cases hk : k.number = n
      · simpa [hk] using ih
      · simpa [hk] using ih
  rw [State.lacking, hoffers]
  rfl

theorem lacking_setPhase (s : State α ν) {n m : Nat} (p : OfferPhase) (other : m ≠ n) :
    (s.setPhase m p).lacking n = (s.lacking n).setPhase m p := by
  have hoffers : (s.setPhase m p).offers.filter (·.number ≠ n) =
      ((s.lacking n).setPhase m p).offers := by
    show (s.offers.map _).filter _ = (s.offers.filter _).map _
    induction s.offers with
    | nil => rfl
    | cons k rest ih =>
      by_cases hk : k.number = n
      · simpa [hk, other.symm] using ih
      · by_cases hm : k.number = m
        · simpa [hk, hm, other] using ih
        · simpa [hk, hm] using ih
  rw [State.lacking, hoffers]
  rfl

theorem lacking_enqueue_own (s : State α ν) (n : Nat) :
    (s.enqueue (.offer n)).lacking n = s.lacking n := by
  simp [State.lacking, State.enqueue]

theorem lacking_enqueue (s : State α ν) {n : Nat} {w : Waiter} (other : w ≠ .offer n) :
    (s.enqueue w).lacking n = (s.lacking n).enqueue w := by
  simp [State.lacking, State.enqueue, other]

theorem ticket?_lacking (s : State α ν) {n m : Nat} (other : m ≠ n) :
    (s.lacking n).ticket? m = s.ticket? m := by
  rw [State.ticket?, State.lacking, List.find?_filter, State.ticket?]
  congr 1
  funext k
  by_cases hk : k.number = m
  · simp [hk, other]
  · simp [hk]

theorem line_lacking {s : State α ν} {n : Nat} {w : Waiter} {rest : List Waiter}
    (head : s.line = w :: rest) (other : w ≠ .offer n) :
    (s.lacking n).line = w :: rest.filter (· ≠ .offer n) := by
  show s.line.filter (· ≠ .offer n) = _
  rw [head, List.filter_cons_of_pos]
  exact decide_eq_true other

theorem sending_lacking {s : State α ν} (n : Nat) (still : s.sending = false) :
    (s.lacking n).sending = false := by
  rw [State.sending, List.any_eq_false] at still ⊢
  exact fun k hk => still k (List.mem_filter.mp hk).1

theorem lacking_reportFailure (s : State α ν) (n : Nat) (stage : Stage) (items : Nat)
    (error : EngineError ν) :
    (s.reportFailure stage items error).lacking n =
      (s.lacking n).reportFailure stage items error :=
  lacking_note _ (by simp [Entry.number?])

theorem mem_history {s : State α ν} {p : Nat × Entry α ν} (h : p ∈ s.log) :
    p.2 ∈ s.history := by
  rw [State.history, State.seen, List.mem_reverse, List.mem_filterMap]
  exact ⟨p, h, rfl⟩

/-- Of an offer that is not under way the log alone tells. -/
theorem lacking_of_gone {s : State α ν} {n : Nat} (ho : Orderly s) (gone : s.ticket? n = none) :
    s.lacking n = s.untold n := by
  have hoffers : s.offers.filter (·.number ≠ n) = s.offers := by
    rw [List.filter_eq_self]
    intro k hk
    have hne := List.find?_eq_none.mp gone k hk
    simpa using hne
  have hline : s.line.filter (· ≠ .offer n) = s.line := by
    rw [List.filter_eq_self]
    intro w hw
    refine decide_eq_true ?_
    rintro rfl
    obtain ⟨k, found, _⟩ := ho.offers.mp hw
    rw [gone] at found
    cases found
  rw [State.lacking, hoffers, hline, State.untold]

theorem untold_of_story {s : State α ν} {n : Nat} (nothing : s.story n = []) :
    s.untold n = s := by
  have hlog : s.log.filter (fun (_, e) => e.number? ≠ some n) = s.log := by
    rw [List.filter_eq_self]
    intro p hp
    refine decide_eq_true fun about => ?_
    have hmem : p.2 ∈ s.story n := mem_story.mpr ⟨mem_history hp, about⟩
    rw [nothing] at hmem
    cases hmem
  rw [State.untold, hlog]

variable [Number ν]

theorem lacking_proceed (s : State α ν) (n : Nat) :
    s.proceed.lacking n = (s.lacking n).proceed := by
  cases hclosing : s.closing with
  | true =>
    rw [proceed_of_closing hclosing, lacking_enqueue _ (by simp),
      proceed_of_closing (s := s.lacking n) hclosing]
    rfl
  | false => simp [State.proceed, State.lacking, State.nextWait, hclosing]

theorem lacking_beginFlush (s : State α ν) (n : Nat) (e : Flush.Evaluation ν)
    (items : List α) (request : Request α) :
    (s.beginFlush e items request).lacking n = (s.lacking n).beginFlush e items request := by
  have hflushing := lacking_note s (n := n)
    (e := .flushing items.length e.reasons.primary s.model.estimate.latency e.lost e.averageItem)
    (by simp [Entry.number?])
  rw [State.beginFlush, lacking_note _ (by simp [Entry.number?])]
  exact congrArg (fun u => State.note { u with
    buffer := (s.buffer.setLost (Number.ofCount 0)).clear
    scheduler := .delivering items e.reasons.primary } (.called .scheduler request)) hflushing

theorem lacking_learn (s : State α ν) (n : Nat) (millis : ν) :
    (s.learn millis).lacking n = (s.lacking n).learn millis :=
  lacking_note _ (by simp [Entry.number?])

/-! ## The steps of the others -/

omit [Number ν] in
theorem head_ne_of_mover {s : State α ν} {n : Nat} {w : Waiter} {rest : List Waiter}
    (head : s.line = w :: rest) (other : s.mover? (.event .acquire) ≠ some n) :
    w ≠ .offer n := by
  rintro rfl
  exact other (by rw [State.mover?, head])

/-- What another task does it can do without the offer too. -/
theorem lacking_move {s t : State α ν} {e : Event α ν} {n : Nat} (h : Move s e t)
    (known : n < s.nextNumber) (other : s.mover? (.event e) ≠ some n) :
    Move (s.lacking n) e (t.lacking n) := by
  have hgiven : s.nextNumber ≠ n := Nat.ne_of_gt known
  cases h with
  | elapse ms => exact .elapse ms
  | @offerNothing o empty =>
    rw [lacking_note _ (by simpa [Entry.number?] using hgiven),
      lacking_note _ (by simpa [Entry.number?] using hgiven)]
    exact .offerNothing empty
  | @offer o filled =>
    rw [lacking_note _ (by simpa [Entry.number?] using hgiven)]
    have hmove := Move.offer (s := s.lacking n) filled
    simpa [State.lacking, hgiven] using hmove
  | measure =>
    rw [lacking_enqueue _ (by simp)]
    exact .measure
  | close => exact .close
  | @refuse m k found phase opened closing =>
    have hm : m ≠ n := fun e => other (e ▸ rfl)
    rw [lacking_answer _ _ hm]
    exact .refuse ((ticket?_lacking s hm).trans found) phase opened closing
  | @lineUp m k found phase opened running packing =>
    have hm : m ≠ n := fun e => other (e ▸ rfl)
    rw [lacking_enqueue _ (by simpa using hm), lacking_setPhase _ _ hm]
    exact .lineUp ((ticket?_lacking s hm).trans found) phase opened running packing
  | @send m k found phase opened running direct =>
    have hm : m ≠ n := fun e => other (e ▸ rfl)
    rw [lacking_note _ (by simpa [Entry.number?] using hm), lacking_setPhase _ _ hm]
    exact .send ((ticket?_lacking s hm).trans found) phase opened running direct
  | @bounce m k rest free head found sealed =>
    have hne := head_ne_of_mover head other
    have hm : m ≠ n := fun e => hne (congrArg _ e)
    rw [lacking_answer _ _ hm]
    exact .bounce free (line_lacking head hne) ((ticket?_lacking s hm).trans found) sealed
  | @append m k rest free head found unsealed =>
    have hne := head_ne_of_mover head other
    have hm : m ≠ n := fun e => hne (congrArg _ e)
    rw [lacking_answer _ _ hm, lacking_note _ (by simpa [Entry.number?] using hm)]
    exact .append free (line_lacking head hne) ((ticket?_lacking s hm).trans found) unsealed
  | measured free head =>
    rw [lacking_note _ (by simp [Entry.number?])]
    exact .measured free (line_lacking head (head_ne_of_mover head other))
  | @nobody w rest free head gone =>
    have hne := head_ne_of_mover head other
    refine .nobody free (line_lacking head hne) ?_
    rcases gone with ⟨m, rfl, gone⟩ | gone
    · have hm : m ≠ n := fun e => hne (congrArg _ e)
      exact .inl ⟨m, rfl, (ticket?_lacking s hm).trans gone⟩
    · exact .inr gone
  | shut free head turn empty =>
    exact .shut free (line_lacking head (head_ne_of_mover head other)) turn empty
  | idle free head turn empty =>
    rw [lacking_proceed, lacking_note _ (by simp [Entry.number?])]
    exact .idle free (line_lacking head (head_ne_of_mover head other)) turn empty
  | @defer wait draining rest free head turn filled decision =>
    rw [lacking_proceed, State.defer, lacking_note _ (by simp [Entry.number?])]
    exact .defer free (line_lacking head (head_ne_of_mover head other)) turn filled decision
  | flush free head turn filled decision =>
    rw [lacking_beginFlush]
    exact .flush free (line_lacking head (head_ne_of_mover head other)) turn filled decision
  | @directReturns m k fault found phase =>
    have hm : m ≠ n := fun e => other (e ▸ rfl)
    rw [lacking_answer _ _ hm, lacking_note _ (by simpa [Entry.number?] using hm)]
    exact .directReturns fault ((ticket?_lacking s hm).trans found) phase
  | @directCrashes m k found phase =>
    have hm : m ≠ n := fun e => other (e ▸ rfl)
    rw [lacking_answer _ _ hm]
    exact .directCrashes ((ticket?_lacking s hm).trans found) phase
  | proberEnds asleep closing => exact .proberEnds asleep closing
  | probe asleep running =>
    rw [lacking_note _ (by simp [Entry.number?])]
    exact .probe asleep running
  | learn probing counts =>
    show Move _ _ (State.lacking (s.learn _) n).proceedProber
    rw [lacking_learn]
    exact .learn probing counts
  | probeFails probing fails =>
    show Move _ _ (State.lacking (s.reportFailure _ _ _) n).proceedProber
    rw [lacking_reportFailure]
    exact .probeFails probing fails
  | probeCrashes probing => exact .probeCrashes probing
  | unpark parked reason =>
    rw [lacking_proceed]
    exact .unpark parked reason
  | wake asleep =>
    rw [lacking_enqueue _ (by simp)]
    exact .wake asleep
  | flushReturns delivering =>
    rw [lacking_proceed, lacking_note _ (by simp [Entry.number?])]
    exact .flushReturns delivering
  | flushFails fault delivering =>
    rw [lacking_proceed, lacking_reportFailure, lacking_note _ (by simp [Entry.number?])]
    exact .flushFails fault delivering
  | flushCrashes delivering => exact .flushCrashes delivering
  | takeGate waits still =>
    rw [lacking_note _ (by simp [Entry.number?])]
    exact .takeGate waits (sending_lacking n still)
  | closeReturns closing =>
    rw [lacking_note _ (by simp [Entry.number?])]
    exact .closeReturns closing
  | closeFails fault closing =>
    rw [lacking_reportFailure, lacking_note _ (by simp [Entry.number?])]
    exact .closeFails fault closing
  | closeCrashes closing => exact .closeCrashes closing

/-! ## The steps of the offer itself -/

/-- Nothing has come of the offer of this number but, perhaps, a refusal. -/
def State.Silent (s : State α ν) (n : Nat) : Prop :=
  ∀ e ∈ s.story n, (∃ o, e = .offered n o) ∨ ∃ name, e = .answered n (.refused (.closed name))

/-- What a step can do that is an offer's own. -/
inductive OwnMove (s : State α ν) (n : Nat) : State α ν → Prop
  | refuse {k : Ticket α} (found : s.ticket? n = some k) (phase : k.phase = .atGate)
      (opened : s.gateOpen = true) (closing : s.closing = true) :
      OwnMove s n (s.answer n (.refused (.closed s.settings.name)))
  | lineUp {k : Ticket α} (found : s.ticket? n = some k) (phase : k.phase = .atGate)
      (opened : s.gateOpen = true) (running : s.closing = false)
      (packing : s.model.packing = true) :
      OwnMove s n ((s.setPhase n .atLock).enqueue (.offer n))
  | send {k : Ticket α} (found : s.ticket? n = some k) (phase : k.phase = .atGate)
      (opened : s.gateOpen = true) (running : s.closing = false)
      (direct : s.model.packing = false) :
      OwnMove s n ((s.setPhase n .sending).note (.called (.offer n) k.offer.request))
  | bounce {k : Ticket α} {rest : List Waiter} (free : s.lockHeld = false)
      (head : s.line = .offer n :: rest) (found : s.ticket? n = some k)
      (sealed : s.buffer.sealed = true) :
      OwnMove s n ({ s with line := rest }.answer n (.refused (.closed s.settings.name)))
  | append {k : Ticket α} {rest : List Waiter} (free : s.lockHeld = false)
      (head : s.line = .offer n :: rest) (found : s.ticket? n = some k)
      (unsealed : s.buffer.sealed = false) :
      OwnMove s n
        (({ s with
            line := rest
            buffer := State.joined s.buffer k.offer
            counters := s.counters.buffered k.offer.items.length
          }.note (.appended n k.offer.items)).answer n .accepted)
  | nobody {rest : List Waiter} (free : s.lockHeld = false)
      (head : s.line = .offer n :: rest) (gone : s.ticket? n = none) :
      OwnMove s n { s with line := rest }
  | directReturns {k : Ticket α} (fault : Option Fault) (found : s.ticket? n = some k)
      (phase : k.phase = .sending) :
      OwnMove s n
        (({ s with
            counters := s.counters.direct k.offer.items.length
            recorder :=
              s.recorder.directSend s.settings.name k.offer.items.length fault.isNone
          }.note (.returned (.offer n) k.offer.request fault)).answer n (.ofSend fault))
  | directCrashes {k : Ticket α} (found : s.ticket? n = some k) (phase : k.phase = .sending) :
      OwnMove s n (s.answer n .crashed)

omit [Number ν] in
theorem head_of_mover {s : State α ν} {n : Nat} {w : Waiter} {rest : List Waiter}
    (head : s.line = w :: rest) (own : s.mover? (.event .acquire) = some n) :
    w = .offer n := by
  rw [State.mover?, head] at own
  cases w with
  | offer m => exact congrArg _ (Option.some.inj own)
  | scheduler | observer => cases own

theorem ownMove_of_mover {s t : State α ν} {e : Event α ν} {n : Nat} (h : Move s e t)
    (own : s.mover? (.event e) = some n) : OwnMove s n t := by
  cases h with
  | refuse found phase opened closing =>
    cases own
    exact .refuse found phase opened closing
  | lineUp found phase opened running packing =>
    cases own
    exact .lineUp found phase opened running packing
  | send found phase opened running direct =>
    cases own
    exact .send found phase opened running direct
  | bounce free head found sealed =>
    cases head_of_mover head own
    exact .bounce free head found sealed
  | append free head found unsealed =>
    cases head_of_mover head own
    exact .append free head found unsealed
  | nobody free head gone =>
    cases head_of_mover head own
    rcases gone with ⟨m, hm, gone⟩ | ⟨hm, -⟩
    · cases hm
      exact .nobody free head gone
    · cases hm
  | measured free head | shut free head | idle free head | defer free head | flush free head =>
    cases head_of_mover head own
  | directReturns fault found phase =>
    cases own
    exact .directReturns fault found phase
  | directCrashes found phase =>
    cases own
    exact .directCrashes found phase
  | _ => cases own

omit [Number ν] in
theorem mem_story_of_log {t : State α ν} {n now : Nat} {e : Entry α ν}
    {older : List (Nat × Entry α ν)} (hlog : t.log = (now, e) :: older)
    (about : e.number? = some n) : e ∈ t.story n := by
  have hmem : (now, e) ∈ t.log := hlog ▸ List.mem_cons_self
  exact mem_story.mpr ⟨mem_history hmem, about⟩

/-- Of its own steps an offer leaves something, unless it is to wait or to be refused. -/
theorem lacking_own {s t : State α ν} {n : Nat} (h : OwnMove s n t) (silent : t.Silent n) :
    t.lacking n = s.lacking n := by
  cases h with
  | refuse => exact lacking_answer_own s _ _
  | lineUp => rw [lacking_enqueue_own, lacking_setPhase_own]
  | send => simpa using silent _ (mem_story_of_log rfl rfl)
  | bounce free head =>
    rw [lacking_answer_own]
    simp [State.lacking, head]
  | append => simpa using silent _ (mem_story_of_log (e := .answered n .accepted) rfl rfl)
  | nobody free head => simp [State.lacking, head]
  | directReturns fault =>
    have hanswer := silent _ (mem_story_of_log (e := .answered n (.ofSend fault)) rfl rfl)
    cases fault <;> simp [Outcome.ofSend] at hanswer
  | directCrashes =>
    simpa using silent _ (mem_story_of_log (e := .answered n .crashed) rfl rfl)

/-- Only by joining the buffer does an offer touch it. -/
theorem buffer_own {s t : State α ν} {n : Nat} (h : OwnMove s n t)
    (out : ∀ xs, .appended n xs ∉ t.story n) :
    t.buffer = s.buffer ∧ t.counters.bufferedItems = s.counters.bufferedItems := by
  cases h with
  | @append k =>
    refine absurd (mem_story.mpr ⟨mem_history (p := (s.now, _)) ?_, rfl⟩) (out k.offer.items)
    exact List.mem_cons_of_mem _ List.mem_cons_self
  | _ => exact ⟨rfl, rfl⟩

/-! ## Runs -/

theorem nextNumber_move {s t : State α ν} {e : Event α ν} (h : Move s e t) :
    s.nextNumber ≤ t.nextNumber := by
  cases h with
  | offerNothing | offer | measure => exact Nat.le_succ _
  | _ => exact Nat.le_refl _

theorem nextNumber_act {s t : State α ν} {a : Act α ν} (h : s.act? a = some t) :
    s.nextNumber ≤ t.nextNumber :=
  act_keeps (P := fun u => s.nextNumber ≤ u.nextNumber) (fun hmove _ => nextNumber_move hmove)
    (fun _ hs => hs) h (Nat.le_refl _)

theorem others_cons (n : Nat) {s u : State α ν} {a : Act α ν} (as : List (Act α ν))
    (h : s.act? a = some u) :
    s.others n (a :: as) =
      (if s.mover? a = some n then [] else [a.lacking n]) ++ u.others n as := by
  rw [State.others, h]
  rfl

theorem lacking_act {s t : State α ν} {a : Act α ν} {n : Nat} (h : s.act? a = some t)
    (known : n < s.nextNumber) (other : s.mover? a ≠ some n) :
    (s.lacking n).act? (a.lacking n) = some (t.lacking n) := by
  cases a with
  | event e =>
    have timely : e.inTime s.settings = true := inTime_of_step h
    exact step_of_move (lacking_move (move_of_step h) known other) timely
  | reorder line =>
    obtain ⟨order, rfl⟩ := reorder_of_act h
    exact if_pos (order.filter _)

/-- If an offer comes to nothing, the others can do without it what they did. -/
theorem lacking_race {n : Nat} {s t : State α ν} {as : List (Act α ν)}
    (known : n < s.nextNumber) (h : s.race? as = some t) (silent : t.Silent n) :
    (s.lacking n).race? (s.others n as) = some (t.lacking n) := by
  refine race_induction
    (motive := fun s as t => n < s.nextNumber → t.Silent n →
      (s.lacking n).race? (s.others n as) = some (t.lacking n))
    (fun _ _ _ => rfl) ?_ h known silent
  intro s u t a as hact hrest ih known silent
  -- what is said of the offer is never taken back, so it is silent all along
  have hsilent : u.Silent n := fun e he => silent e ((seen_race hrest _).subset he)
  have hknown : n < u.nextNumber := Nat.lt_of_lt_of_le known (nextNumber_act hact)
  rw [others_cons n as hact]
  by_cases own : s.mover? a = some n
  · rw [if_pos own]
    cases a with
    | event e =>
      rw [← lacking_own (ownMove_of_mover (move_of_step hact) own) hsilent]
      exact ih hknown silent
    | reorder line => cases own
  · rw [if_neg own, List.singleton_append, State.race?, lacking_act hact known own]
    exact ih hknown silent

end Engine
end AdaptiveBatch
