import Mathlib.Data.List.Nodup
import AdaptiveBatch.Engine.Keyed
import AdaptiveBatch.Proofs.Engine.Absence

/-!
# Keyed engines

A keyed engine is an engine of pairs with a front that makes pairs of keys and values.
Lists of different lengths stop at the front.  All else is an offer, which goes the way of
any offer, so what is known of offers is known of keyed calls: whatever way the pairs of a
call go, they go together, once, and each key with the value of its index.
-/

namespace AdaptiveBatch
namespace Engine

/-! ## The front -/

/-- What a caller asks of a keyed engine. -/
inductive Keyed.Call (κ β : Type) where
  | one (key : κ) (value : β)
  | many (keys : List κ) (values : List β)

namespace Keyed.Call

variable {κ β ν : Type}

def keys : Call κ β → List κ
  | .one key _ => [key]
  | .many keys _ => keys

def values : Call κ β → List β
  | .one _ value => [value]
  | .many _ values => values

/-- The keys, each with the value of its index. -/
def pairs (c : Call κ β) : List (κ × β) := c.keys.zip c.values

/-- What the engine of pairs is offered, or why nothing is. -/
def offer? : Call κ β → Except (EngineError ν) (Offer (κ × β))
  | .one key value => .ok (.one (key, value))
  | .many keys values => pairOffer keys values

/-- The pairs as an offer.  One pair is offered as one item. -/
def offer (c : Call κ β) : Offer (κ × β) :=
  match c.pairs with
  | [pair] => .one pair
  | pairs => .all pairs

/-- Every key has a value and every value has a key. -/
def Matches (c : Call κ β) : Prop := c.keys.length = c.values.length

theorem keys_of_pairs {c : Call κ β} (h : c.Matches) : c.pairs.map Prod.fst = c.keys :=
  List.map_fst_zip (Nat.le_of_eq h)

theorem values_of_pairs {c : Call κ β} (h : c.Matches) : c.pairs.map Prod.snd = c.values :=
  List.map_snd_zip (Nat.le_of_eq h.symm)

theorem items_offer (c : Call κ β) : c.offer.items = c.pairs := by
  rw [offer]
  split
  · rename_i pair h
    exact h.symm
  · rfl

theorem offer?_of_matches {c : Call κ β} (h : c.Matches) :
    (c.offer? : Except (EngineError ν) (Offer (κ × β))) = .ok c.offer := by
  cases c with
  | one => rfl
  | many keys values =>
    rw [offer?, pairOffer, if_neg (not_not_intro (show keys.length = values.length from h))]
    rw [offer, pairs, Call.keys, Call.values]
    cases keys.zip values with
    | nil => rfl
    | cons pair rest => cases rest <;> rfl

theorem offer?_of_mismatch {c : Call κ β} (h : ¬ c.Matches) :
    (c.offer? : Except (EngineError ν) (Offer (κ × β))) =
      .error (.lengthMismatch c.keys.length c.values.length) := by
  cases c with
  | one => exact absurd rfl h
  | many keys values => exact if_pos h

end Keyed.Call

/-! ## Runs of a keyed engine -/

/-- An engine of pairs, and what its front remembers of the calls. -/
structure Keyed (κ β ν : Type) where
  engine : State (κ × β) ν
  /-- The calls that have been offered, each under the number of its offer. -/
  taken : List (Nat × Keyed.Call κ β) := []
  /-- The calls that have not, and what their callers were told. -/
  turnedDown : List (Keyed.Call κ β × EngineError ν) := []

/-- A call, or anything else that happens to the engine. -/
inductive Keyed.Act (κ β ν : Type) where
  | call (call : Call κ β)
  | engine (act : Engine.Act (κ × β) ν)

/-- Whether an act is that of somebody who offers something. -/
def Act.offers {α ν : Type} : Act α ν → Bool
  | .event (.offer _) => true
  | _ => false

namespace Keyed

variable {κ β ν : Type}

/-- The calls that the engine has accepted. -/
def accepted (s : Keyed κ β ν) : List (Call κ β) :=
  (s.taken.filter fun p => p.1 ∈ s.engine.accepted).map Prod.snd

variable [Number ν]

/-- Only the front offers anything to the engine. -/
def act? (s : Keyed κ β ν) : Act κ β ν → Option (Keyed κ β ν)
  | .call c =>
    match c.offer? with
    | .error e => some { s with turnedDown := s.turnedDown ++ [(c, e)] }
    | .ok o =>
      (s.engine.step? (.offer o)).map fun t =>
        { s with engine := t, taken := s.taken ++ [(s.engine.nextNumber, c)] }
  | .engine a =>
    if a.offers then none else (s.engine.act? a).map fun t => { s with engine := t }

def race? (s : Keyed κ β ν) : List (Act κ β ν) → Option (Keyed κ β ν)
  | [] => some s
  | a :: as => (s.act? a).bind (race? · as)

/-- What the engine of pairs sees of an act. -/
def Act.seen : Act κ β ν → List (Engine.Act (κ × β) ν)
  | .call c =>
    match (c.offer? : Except (EngineError ν) (Offer (κ × β))) with
    | .error _ => []
    | .ok o => [.event (.offer o)]
  | .engine a => [a]

end Keyed

/-! ## What arrives -/

namespace State

variable {α ν : Type}

/-- The offers that have come, each with its number. -/
def arrivals (s : State α ν) : List (Nat × Offer α) :=
  s.seen fun
    | .offered n o => some (n, o)
    | _ => none

end State

variable {α ν : Type}

theorem mem_arrivals {s : State α ν} {n : Nat} {o : Offer α} :
    (n, o) ∈ s.arrivals ↔ .offered n o ∈ s.history := by
  rw [State.arrivals, mem_seen]
  constructor
  · rintro ⟨e, he, h⟩
    cases e with
    | offered m p =>
      obtain ⟨rfl, rfl⟩ := Prod.mk.inj (Option.some.inj h)
      exact he
    | _ => cases h
  · exact fun h => ⟨_, h, rfl⟩

variable [Number ν]

theorem arrivals_of_offer {s t : State α ν} {o : Offer α} (h : s.step? (.offer o) = some t) :
    t.arrivals = s.arrivals ++ [(s.nextNumber, o)] ∧ t.nextNumber = s.nextNumber + 1 := by
  cases move_of_step h <;> exact ⟨List.reverse_cons, rfl⟩

theorem arrivals_move {s t : State α ν} {e : Event α ν} (h : Move s e t)
    (other : (Act.event e).offers = false) : t.arrivals = s.arrivals := by
  cases h with
  | offerNothing | offer => cases other
  | _ => rfl

theorem arrivals_act {s t : State α ν} {a : Act α ν} (h : s.act? a = some t)
    (other : a.offers = false) :
    t.arrivals = s.arrivals := by
  cases a with
  | event e => exact arrivals_move (move_of_step h) other
  | reorder line =>
    obtain ⟨_, rfl⟩ := reorder_of_act h
    rfl

/-! ## What is accepted -/

omit [Number ν] in
/-- An offer under way has not been accepted. -/
theorem pending_of_ticket {s : State α ν} (told : Told s) {n : Nat} {k : Ticket α}
    (found : s.ticket? n = some k) : n ∉ s.accepted := by
  intro h
  have hmem := answered_of_accepted h
  rw [told.present found] at hmem
  cases phase : k.phase <;> simp [Ticket.tale, phase] at hmem

omit [Number ν] in
theorem nodup_accept {s t : State α ν} {n : Nat} (h : s.accepted.Nodup) (new : n ∉ s.accepted)
    (accepted : t.accepted = s.accepted ++ [n]) : t.accepted.Nodup := by
  rw [accepted, List.nodup_append]
  refine ⟨h, List.nodup_singleton n, ?_⟩
  rintro m hm _ hn rfl
  exact new (List.mem_singleton.mp hn ▸ hm)

theorem nodup_accepted_move {s t : State α ν} {e : Event α ν} (h : Move s e t) (told : Told s)
    (hs : s.accepted.Nodup) : t.accepted.Nodup := by
  cases h with
  | offerNothing =>
    refine nodup_accept hs (fun hmem => ?_) List.reverse_cons
    exact Nat.lt_irrefl _ (number_of_accepted told hmem)
  | append _ _ found =>
    exact nodup_accept hs (pending_of_ticket told found) List.reverse_cons
  | directReturns fault found =>
    cases fault with
    | none => exact nodup_accept hs (pending_of_ticket told found) List.reverse_cons
    | some fault => exact hs
  | _ => exact hs

/-- No offer is accepted twice. -/
theorem nodup_accepted_of_raced {s : State α ν} (hs : Raced s) : s.accepted.Nodup := by
  refine of_raced (P := fun s => s.accepted.Nodup) ?_ ?_ (fun _ hs => hs) hs
  · intro s h
    have hnone : s.accepted = [] := seen_fresh h rfl fun _ => rfl
    rw [hnone]
    exact List.nodup_nil
  · exact fun hs h => nodup_accepted_move h (told_of_raced hs)

omit [Number ν] in
/-- A call of the sink that an offer makes is the call that the offer asks for. -/
theorem offered_of_called {s : State α ν} (told : Told s) {n : Nat} {r : Request α}
    (h : .called (.offer n) r ∈ s.history) : ∃ o, (n, o) ∈ s.arrivals ∧ r = o.request := by
  have hmem : .called (.offer n) r ∈ s.story n := mem_story.mpr ⟨h, rfl⟩
  obtain ⟨o, hoffered, hrequest⟩ : ∃ o, .offered n o ∈ s.story n ∧ r = o.request := by
    cases found : s.ticket? n with
    | some k =>
      have hn := ticket?_number found
      rw [told.present found] at hmem ⊢
      cases phase : k.phase <;> simp [Ticket.tale, phase, hn] at hmem ⊢
      exact hmem
    | none =>
      rcases told.past found with hstory | ⟨o, ended⟩
      · rw [hstory] at hmem
        cases hmem
      · refine ⟨o, ?_⟩
        generalize s.story n = es at ended hmem
        cases ended with
        | sent | crashed => simpa using hmem
        | nothing | refused | joined => simp at hmem
  exact ⟨o, mem_arrivals.mpr (mem_story.mp hoffered).1, hrequest⟩

omit [Number ν] in
theorem arrived_of_accepted {s : State α ν} (told : Told s) {n : Nat} (h : n ∈ s.accepted) :
    ∃ o, (n, o) ∈ s.arrivals := by
  have hmem := answered_of_accepted h
  obtain ⟨o, hoffered⟩ : ∃ o, .offered n o ∈ s.story n := by
    cases found : s.ticket? n with
    | some k => exact absurd h (pending_of_ticket told found)
    | none =>
      rcases told.past found with hstory | ⟨o, ended⟩
      · rw [hstory] at hmem
        cases hmem
      · refine ⟨o, ?_⟩
        generalize s.story n = es at ended
        cases ended <;> exact List.mem_cons_self
  exact ⟨o, mem_arrivals.mpr (mem_story.mp hoffered).1⟩

omit [Number ν] in
theorem offered?_of_arrivals {s : State α ν} {n : Nat} {o : Offer α} (h : (n, o) ∈ s.arrivals)
    (only : ∀ p, (n, p) ∈ s.arrivals → p = o) : s.offered? n = some o := by
  have hview : s.offered? n =
      (s.arrivals.filterMap fun a => if a.1 = n then some a.2 else none).head? := by
    rw [State.arrivals, seen_filterMap, State.offered?]
    congr 2
    funext e
    cases e <;> rfl
  have hmem : ∀ p, p ∈ (s.arrivals.filterMap fun a => if a.1 = n then some a.2 else none) ↔
      (n, p) ∈ s.arrivals := by
    intro p
    rw [List.mem_filterMap]
    constructor
    · rintro ⟨⟨m, q⟩, ha, hpick⟩
      by_cases hm : m = n
      · rw [if_pos hm] at hpick
        obtain rfl := Option.some.inj hpick
        exact hm ▸ ha
      · rw [if_neg hm] at hpick
        cases hpick
    · exact fun hp => ⟨_, hp, if_pos rfl⟩
  rw [hview]
  generalize List.filterMap _ s.arrivals = os at hmem
  cases os with
  | nil => exact absurd ((hmem o).mpr h) List.not_mem_nil
  | cons p rest => rw [List.head?_cons, only p ((hmem p).mp List.mem_cons_self)]

/-! ## What is kept -/

namespace Keyed

variable {κ β : Type}

theorem act?_of_matches (s : Keyed κ β ν) {c : Call κ β} (h : c.Matches) :
    s.act? (.call c) =
      (s.engine.step? (.offer c.offer)).map fun t =>
        { s with engine := t, taken := s.taken ++ [(s.engine.nextNumber, c)] } := by
  rw [act?, Call.offer?_of_matches h]

theorem act?_of_mismatch (s : Keyed κ β ν) {c : Call κ β} (h : ¬ c.Matches) :
    s.act? (.call c) =
      some { s with
        turnedDown :=
          s.turnedDown ++ [(c, .lengthMismatch c.keys.length c.values.length)] } := by
  rw [act?, Call.offer?_of_mismatch h]

/-- All that an act can do to a keyed engine. -/
theorem act_cases {s t : Keyed κ β ν} {a : Act κ β ν} (h : s.act? a = some t) :
    (∃ c, a = .call c ∧ ¬ c.Matches ∧
      t = { s with
        turnedDown :=
          s.turnedDown ++ [(c, .lengthMismatch c.keys.length c.values.length)] }) ∨
    (∃ c u, a = .call c ∧ c.Matches ∧ s.engine.step? (.offer c.offer) = some u ∧
      t = { s with engine := u, taken := s.taken ++ [(s.engine.nextNumber, c)] }) ∨
    (∃ b u, a = .engine b ∧ b.offers = false ∧ s.engine.act? b = some u ∧
      t = { s with engine := u }) := by
  cases a with
  | call c =>
    by_cases hc : c.Matches
    · rw [act?_of_matches s hc] at h
      obtain ⟨u, hu, rfl⟩ := Option.map_eq_some_iff.mp h
      exact .inr (.inl ⟨c, u, rfl, hc, hu, rfl⟩)
    · rw [act?_of_mismatch s hc] at h
      exact .inl ⟨c, rfl, hc, (Option.some.inj h).symm⟩
  | engine b =>
    rw [act?] at h
    split at h
    · cases h
    · rename_i other
      obtain ⟨u, hu, rfl⟩ := Option.map_eq_some_iff.mp h
      exact .inr (.inr ⟨b, u, rfl, Bool.eq_false_iff.mpr other, hu, rfl⟩)

/-- The offers of the engine are those of the calls that matched. -/
structure Kept (s : Keyed κ β ν) : Prop where
  raced : Raced s.engine
  arrivals : s.engine.arrivals = s.taken.map fun p => (p.1, p.2.offer)
  known : ∀ p ∈ s.taken, p.1 < s.engine.nextNumber
  numbers : (s.taken.map Prod.fst).Nodup
  matching : ∀ p ∈ s.taken, p.2.Matches
  turnedDown : ∀ p ∈ s.turnedDown,
    ¬ p.1.Matches ∧ p.2 = .lengthMismatch p.1.keys.length p.1.values.length

theorem kept_take {s : Keyed κ β ν} (hs : Kept s) {c : Call κ β} (hc : c.Matches)
    {u : State (κ × β) ν} (h : s.engine.step? (.offer c.offer) = some u) :
    Kept { s with engine := u, taken := s.taken ++ [(s.engine.nextNumber, c)] } := by
  obtain ⟨harrivals, hnext⟩ := arrivals_of_offer h
  refine ⟨.act (a := .event (.offer c.offer)) hs.raced h, ?_, ?_, ?_, ?_, hs.turnedDown⟩
  · rw [List.map_append, ← hs.arrivals]
    exact harrivals
  · intro p hp
    show p.1 < u.nextNumber
    rw [hnext]
    rcases List.mem_append.mp hp with hp | hp
    · exact Nat.lt_succ_of_lt (hs.known p hp)
    · rw [List.mem_singleton.mp hp]
      exact Nat.lt_succ_self _
  · rw [List.map_append]
    refine List.nodup_append.mpr ⟨hs.numbers, List.nodup_singleton _, ?_⟩
    rintro n hn _ hm rfl
    obtain ⟨p, hp, rfl⟩ := List.mem_map.mp hn
    have hlt := hs.known p hp
    rw [List.mem_singleton.mp hm] at hlt
    exact Nat.lt_irrefl _ hlt
  · intro p hp
    rcases List.mem_append.mp hp with hp | hp
    · exact hs.matching p hp
    · rw [List.mem_singleton.mp hp]
      exact hc

theorem kept_act {s t : Keyed κ β ν} {a : Act κ β ν} (h : s.act? a = some t)
    (hs : Kept s) : Kept t := by
  obtain ⟨c, rfl, hc, rfl⟩ | ⟨c, u, rfl, hc, hu, rfl⟩ | ⟨b, u, rfl, other, hu, rfl⟩ :=
    act_cases h
  · refine ⟨hs.raced, hs.arrivals, hs.known, hs.numbers, hs.matching, ?_⟩
    intro p hp
    rcases List.mem_append.mp hp with hp | hp
    · exact hs.turnedDown p hp
    · rw [List.mem_singleton.mp hp]
      exact ⟨hc, rfl⟩
  · exact kept_take hs hc hu
  · exact ⟨.act hs.raced hu, (arrivals_act hu other).trans hs.arrivals,
      fun p hp => Nat.lt_of_lt_of_le (hs.known p hp) (nextNumber_act hu), hs.numbers,
      hs.matching, hs.turnedDown⟩

theorem kept_spawn {settings : Settings ν} {sink : String} {now delay : Nat}
    {reply : ProbeReply ν} {start : State (κ × β) ν}
    (h : State.spawn settings sink now delay reply = .ok start) :
    Kept { engine := start } := by
  refine ⟨.spawn h, seen_fresh (fresh_of_spawn h) rfl fun _ => rfl, ?_, List.nodup_nil, ?_, ?_⟩
  all_goals exact fun p hp => absurd hp List.not_mem_nil

/-- A run of a keyed engine is a run of its engine of pairs. -/
theorem race_of_race {s t : Keyed κ β ν} {as : List (Act κ β ν)} (h : s.race? as = some t)
    (hs : Kept s) :
    Kept t ∧ s.engine.race? (as.flatMap Act.seen) = some t.engine := by
  induction as generalizing s with
  | nil =>
    obtain rfl := Option.some.inj h
    exact ⟨hs, rfl⟩
  | cons a as ih =>
    obtain ⟨u, hact, hrest⟩ := Option.bind_eq_some_iff.mp h
    obtain ⟨hkept, hrace⟩ := ih hrest (kept_act hact hs)
    refine ⟨hkept, ?_⟩
    rw [List.flatMap_cons]
    obtain ⟨c, rfl, hc, rfl⟩ | ⟨c, v, rfl, hc, hv, rfl⟩ | ⟨b, v, rfl, other, hv, rfl⟩ :=
      act_cases hact
    · rw [Act.seen, Call.offer?_of_mismatch hc]
      exact hrace
    · rw [Act.seen, Call.offer?_of_matches hc]
      exact race_cons.mpr ⟨v, hv, hrace⟩
    · exact race_cons.mpr ⟨v, hv, hrace⟩

/-! ## What becomes of the pairs -/

theorem offered?_of_taken {s : Keyed κ β ν} (hs : Kept s) {n : Nat} {c : Call κ β}
    (h : (n, c) ∈ s.taken) : s.engine.offered? n = some c.offer := by
  refine offered?_of_arrivals ?_ ?_
  · rw [hs.arrivals]
    exact List.mem_map.mpr ⟨_, h, rfl⟩
  · intro p hp
    rw [hs.arrivals] at hp
    obtain ⟨q, hq, heq⟩ := List.mem_map.mp hp
    obtain ⟨hn, rfl⟩ := Prod.mk.inj heq
    rw [List.inj_on_of_nodup_map hs.numbers hq h hn]

theorem perm_accepted {s : Keyed κ β ν} (hs : Kept s) :
    (s.accepted.flatMap Call.pairs).Perm s.engine.acceptedItems := by
  have told := told_of_raced hs.raced
  -- calls are taken in one order and accepted in another, and no number comes twice in either
  have hnumbers : ((s.taken.filter fun p => p.1 ∈ s.engine.accepted).map Prod.fst).Perm
      s.engine.accepted := by
    refine (List.perm_ext_iff_of_nodup (hs.numbers.sublist (List.filter_sublist.map _))
      (nodup_accepted_of_raced hs.raced)).mpr fun n => ?_
    constructor
    · intro hn
      obtain ⟨p, hp, rfl⟩ := List.mem_map.mp hn
      exact of_decide_eq_true (List.mem_filter.mp hp).2
    · intro hn
      obtain ⟨o, harrived⟩ := arrived_of_accepted told hn
      rw [hs.arrivals] at harrived
      obtain ⟨p, hp, heq⟩ := List.mem_map.mp harrived
      obtain rfl : p.1 = n := (Prod.mk.inj heq).1
      exact List.mem_map.mpr ⟨p, List.mem_filter.mpr ⟨hp, decide_eq_true hn⟩, rfl⟩
  refine List.Perm.trans (.of_eq ?_) (hnumbers.flatMap_right _)
  rw [accepted, List.flatMap_map, List.flatMap_map]
  refine List.flatMap_congr fun p hp => ?_
  rw [offered?_of_taken hs (List.mem_filter.mp hp).1]
  exact (Call.items_offer p.2).symm

/-- The run `as` from `start` has led to `s`, and what it did with keys and values. -/
structure Faithful (start : State (κ × β) ν) (as : List (Act κ β ν)) (s : Keyed κ β ν) :
    Prop where
  /-- Whatever state an engine is in, lists of different lengths are turned down with both
  lengths, and nothing is offered. -/
  mismatch : ∀ (u : Keyed κ β ν) {keys : List κ} {values : List β},
    keys.length ≠ values.length →
      u.act? (.call (.many keys values)) =
        some { u with
          turnedDown := u.turnedDown ++
            [(.many keys values, .lengthMismatch keys.length values.length)] }
  /-- Lists of one length are one offer, of each key with the value of its index.  One pair is
  offered alone. -/
  matching : ∀ (u : Keyed κ β ν) {keys : List κ} {values : List β},
    keys.length = values.length →
      ∃ pairs o t, pairs.map Prod.fst = keys ∧ pairs.map Prod.snd = values ∧
        (∀ pair, pairs = [pair] → o = .one pair) ∧ (pairs.length ≠ 1 → o = .all pairs) ∧
        u.engine.step? (.offer o) = some t ∧
        u.act? (.call (.many keys values)) =
          some { u with
            engine := t
            taken := u.taken ++ [(u.engine.nextNumber, .many keys values)] }
  /-- To the engine of pairs the calls that matched are offers and the others are nothing. -/
  refines : start.race? (as.flatMap Act.seen) = some s.engine
  /-- All its offers are those of calls, each call has its own number, -/
  arrivals : s.engine.arrivals = s.taken.map fun p => (p.1, p.2.offer)
  numbers : (s.taken.map Prod.fst).Nodup
  /-- and its pairs are the keys and the values that it came with. -/
  aligned : ∀ {n c}, (n, c) ∈ s.taken →
    c.pairs.map Prod.fst = c.keys ∧ c.pairs.map Prod.snd = c.values
  turnedDown : ∀ {c e}, (c, e) ∈ s.turnedDown →
    c.keys.length ≠ c.values.length ∧ e = .lengthMismatch c.keys.length c.values.length
  /-- The pairs of the calls that were accepted have been flushed, are buffered, or have been
  sent directly, each once. -/
  once : (s.accepted.flatMap Call.pairs).Perm
    (s.engine.flushed.flatten ++ s.engine.buffer.items ++ s.engine.sentDirectly.flatten)
  /-- The pairs of one call go one way, together. -/
  together : ∀ {n c}, (n, c) ∈ s.taken → n ∈ s.engine.accepted → c.pairs ≠ [] →
    s.engine.story n =
        [.offered n c.offer, .appended n c.pairs, .answered n .accepted] ∨
      s.engine.story n =
        [.offered n c.offer, .called (.offer n) c.offer.request,
          .returned (.offer n) c.offer.request none, .answered n .accepted]
  /-- Whatever is flushed or buffered has joined the buffer, with the call that it came in, -/
  order : s.engine.flushed.flatten ++ s.engine.buffer.items = s.engine.appended.flatten
  joined : ∀ {n xs}, .appended n xs ∈ s.engine.history →
    ∃ c, (n, c) ∈ s.taken ∧ n ∈ s.engine.accepted ∧ xs = c.pairs
  /-- and a direct call, whatever comes of it, hands over what one call came with. -/
  direct : ∀ {n r}, .called (.offer n) r ∈ s.engine.history →
    ∃ c, (n, c) ∈ s.taken ∧ r = c.offer.request ∧ r.items = c.pairs

theorem mem_taken {s : Keyed κ β ν} (hs : Kept s) {n : Nat} {o : Offer (κ × β)}
    (h : (n, o) ∈ s.engine.arrivals) : ∃ c, (n, c) ∈ s.taken ∧ o = c.offer := by
  rw [hs.arrivals] at h
  obtain ⟨⟨m, c⟩, hp, heq⟩ := List.mem_map.mp h
  obtain ⟨rfl, rfl⟩ := Prod.mk.inj heq
  exact ⟨c, hp, rfl⟩

theorem matching_call (s : Keyed κ β ν) {keys : List κ} {values : List β}
    (h : keys.length = values.length) :
    ∃ pairs o t, pairs.map Prod.fst = keys ∧ pairs.map Prod.snd = values ∧
      (∀ pair, pairs = [pair] → o = .one pair) ∧ (pairs.length ≠ 1 → o = .all pairs) ∧
      s.engine.step? (.offer o) = some t ∧
      s.act? (.call (.many keys values)) =
        some { s with
          engine := t
          taken := s.taken ++ [(s.engine.nextNumber, .many keys values)] } := by
  have hc : (Call.many keys values).Matches := h
  refine ⟨(Call.many keys values).pairs, (Call.many keys values).offer, _,
    Call.keys_of_pairs hc, Call.values_of_pairs hc, ?_, ?_, rfl, act?_of_matches s hc⟩
  · intro pair hpair
    rw [Call.offer, hpair]
  · intro hlength
    rw [Call.offer]
    split
    · rename_i pair hpair
      exact absurd (congrArg List.length hpair) hlength
    · rfl

/-- A keyed engine loses no pair, repeats none and makes none of its own. -/
theorem faithful_of_race {settings : Settings ν} {sink : String} {now delay : Nat}
    {reply : ProbeReply ν} {start : State (κ × β) ν}
    (hs : State.spawn settings sink now delay reply = .ok start) {as : List (Act κ β ν)}
    {s : Keyed κ β ν} (h : race? { engine := start } as = some s) : Faithful start as s := by
  obtain ⟨hkept, hrace⟩ := race_of_race h (kept_spawn hs)
  have told := told_of_raced hkept.raced
  have order := inOrder_of_raced hkept.raced
  refine ⟨fun u _ _ hne => act?_of_mismatch u (c := .many _ _) hne, matching_call, hrace,
    hkept.arrivals, hkept.numbers, ?_, fun hp => hkept.turnedDown _ hp, ?_, ?_, order, ?_, ?_⟩
  · intro n c hc
    have hmatches := hkept.matching _ hc
    exact ⟨Call.keys_of_pairs hmatches, Call.values_of_pairs hmatches⟩
  · rw [order]
    exact (perm_accepted hkept).trans (settled_of_raced hkept.raced)
  · intro n c hc haccepted filled
    have harrived : (n, c.offer) ∈ s.engine.arrivals := by
      rw [hkept.arrivals]
      exact List.mem_map.mpr ⟨_, hc, rfl⟩
    rw [← Call.items_offer] at filled ⊢
    exact story_of_accepted told filled (mem_arrivals.mp harrived)
      (mem_story.mp (answered_of_accepted haccepted)).1
  · intro n xs hxs
    obtain ⟨o, hitems, hstory⟩ := story_of_appended told hxs
    have hoffered : .offered n o ∈ s.engine.story n := hstory ▸ List.mem_cons_self
    have hanswered : .answered n .accepted ∈ s.engine.story n := by simp [hstory]
    obtain ⟨c, hc, rfl⟩ := mem_taken hkept (mem_arrivals.mpr (mem_story.mp hoffered).1)
    refine ⟨c, hc, ?_, by rw [← hitems, Call.items_offer]⟩
    exact mem_seen.mpr ⟨_, (mem_story.mp hanswered).1, rfl⟩
  · intro n r hcalled
    obtain ⟨o, harrived, hrequest⟩ := offered_of_called told hcalled
    obtain ⟨c, hc, rfl⟩ := mem_taken hkept harrived
    refine ⟨c, hc, hrequest, ?_⟩
    rw [hrequest, ← Call.items_offer]
    cases c.offer <;> rfl

/-- Two callers are under way at once, and the later one is first at the buffer; a third one
comes with a key too many. -/
def twoCallers : List (Act Nat Nat Rat) :=
  [.call (.many [1, 2] [10, 20]), .call (.one 3 30), .engine (.event (.enter 1)),
    .engine (.event (.enter 0)), .call (.many [4, 5] [40]), .engine (.event .acquire),
    .engine (.event .acquire)]

theorem faithful_of_twoCallers :
    ∃ start s, State.spawn .standard "sink" 0 0 (.answer 50) = .ok start ∧
      race? { engine := start } twoCallers = some s ∧
      s.engine.buffer.items = [(3, 30), (1, 10), (2, 20)] ∧ s.engine.accepted = [1, 0] ∧
      s.accepted.map Call.pairs = [[(1, 10), (2, 20)], [(3, 30)]] ∧
      Faithful start twoCallers s := by
  have hplay : ((State.play? .standard "sink" 50 []).bind fun start =>
      race? { engine := start } twoCallers).map
        (fun s => (s.engine.buffer.items, s.engine.accepted, s.accepted.map Call.pairs)) =
          some ([(3, 30), (1, 10), (2, 20)], [1, 0], [[(1, 10), (2, 20)], [(3, 30)]]) := by
    decide +kernel
  obtain ⟨s, hs, hfacts⟩ := Option.map_eq_some_iff.mp hplay
  obtain ⟨start, hstart, hrace⟩ := Option.bind_eq_some_iff.mp hs
  obtain ⟨start', hspawn, hnil⟩ := spawn_of_play hstart
  obtain rfl : start' = start := Option.some.inj hnil
  obtain ⟨hitems, haccepted, hpairs⟩ : s.engine.buffer.items = [(3, 30), (1, 10), (2, 20)] ∧
      s.engine.accepted = [1, 0] ∧
      s.accepted.map Call.pairs = [[(1, 10), (2, 20)], [(3, 30)]] := by
    simpa using hfacts
  exact ⟨start', s, hspawn, hrace, hitems, haccepted, hpairs, faithful_of_race hspawn hrace⟩

end Keyed

end Engine
end AdaptiveBatch
