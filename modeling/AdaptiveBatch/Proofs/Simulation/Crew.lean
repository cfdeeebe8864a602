import Mathlib.Data.List.Nodup
import AdaptiveBatch.Proofs.Simulation.Flight

/-!
# The producers of a simulation

Each offer under way is that of one producer, which waits for it.  So what the engine has
accepted is what the producers have counted, and the offers that they will count on their
next turn.
-/

namespace AdaptiveBatch
namespace Simulation

open Engine

/-- The offers that producers wait for. -/
def waiting (ps : List Producer) : List Nat := ps.filterMap (·.waitsFor?)

/-- One producer, of so many items of so many bytes. -/
structure Employed (items size : Nat) (p : Producer) : Prop where
  room : p.accepted + p.left ≤ items
  more : p.waitsFor?.isSome = true → 0 < p.left
  /-- It has offered nothing unless its payloads can be made. -/
  made : 0 < p.accepted ∨ p.waitsFor?.isSome = true → (Payload.make? 0 0 size).isSome = true

/-- The producers and the engine that they offer to. -/
structure Manned {ν : Type} (items size : Nat) (s : State Payload ν) (ps : List Producer) :
    Prop where
  employed : ∀ p ∈ ps, Employed items size p
  distinct : (waiting ps).Nodup
  awaited : ∀ k ∈ s.offers, k.number ∈ waiting ps
  came : ∀ n ∈ waiting ps, s.story n ≠ []
  accepted : counted ps + (waiting ps).countP (· ∈ s.accepted) = s.accepted.length

/-! ## One producer among others -/

theorem make?_isSome (producer sequence size : Nat) :
    (Payload.make? producer sequence size).isSome = (Payload.make? 0 0 size).isSome := by
  simp only [Payload.make?]
  split <;> rfl

theorem waiting_perm (before after : List Producer) (p : Producer) :
    (waiting (before ++ p :: after)).Perm (p.waitsFor?.toList ++ waiting (before ++ after)) := by
  have hmiddle : (before ++ p :: after).Perm (p :: (before ++ after)) := List.perm_middle
  have hperm := hmiddle.filterMap (·.waitsFor?)
  rw [List.filterMap_cons] at hperm
  cases hp : p.waitsFor? with
  | none =>
    rw [hp] at hperm
    exact hperm
  | some n =>
    rw [hp] at hperm
    exact hperm

/-- What is so of all producers is so after one is exchanged, if it is so of the new one. -/
theorem forall_exchange {P : Producer → Prop} {before after : List Producer} {p q : Producer}
    (h : ∀ r ∈ before ++ p :: after, P r) (hq : P q) : ∀ r ∈ before ++ q :: after, P r := by
  intro r hr
  rcases List.mem_append.mp hr with hr | hr
  · exact h r (List.mem_append_left _ hr)
  · rcases List.mem_cons.mp hr with rfl | hr
    · exact hq
    · exact h r (List.mem_append_right _ (List.mem_cons_of_mem _ hr))

theorem counted_split (before after : List Producer) (p : Producer) :
    counted (before ++ p :: after) = p.accepted + counted (before ++ after) := by
  induction before with
  | nil => rfl
  | cons q rest ih =>
    show q.accepted + counted (rest ++ p :: after) = _
    rw [ih, List.cons_append, counted]
    omega

theorem counted_even {ps : List Producer} {items : Nat}
    (even : ∀ p ∈ ps, p.accepted = items) : counted ps = ps.length * items := by
  induction ps with
  | nil => rw [List.length_nil, Nat.zero_mul, counted]
  | cons p rest ih =>
    rw [counted, even p List.mem_cons_self, ih fun q hq => even q (List.mem_cons_of_mem _ hq),
      List.length_cons, Nat.succ_mul, Nat.add_comm]

/-- One more of the distinct numbers of a list is found in another. -/
theorem countP_mem_concat {l found : List Nat} {n : Nat} (distinct : l.Nodup) (mem : n ∈ l)
    (new : n ∉ found) : l.countP (· ∈ found ++ [n]) = l.countP (· ∈ found) + 1 := by
  have hperm := List.perm_cons_erase mem
  have hrest : ∀ m ∈ l.erase n,
      (decide (m ∈ found ++ [n]) = true ↔ decide (m ∈ found) = true) := by
    intro m hm
    have hne : m ≠ n := fun e => (hperm.nodup_iff.mp distinct).notMem (e ▸ hm)
    simp [hne]
  rw [hperm.countP_eq, hperm.countP_eq, List.countP_cons, List.countP_cons,
    List.countP_congr hrest]
  simp [new]

namespace Manned

variable {ν : Type} {items size : Nat} {s t : State Payload ν} {ps before after : List Producer}
  {p q : Producer}

theorem numbers_known [Number ν] (h : Manned items size s ps) (told : Told s) {n : Nat}
    (waits : n ∈ waiting ps) : n < s.nextNumber := by
  rcases Nat.lt_or_ge n s.nextNumber with hn | hn
  · exact hn
  · exact absurd (told.future hn) (h.came n waits)

/-- Only a producer that does not wait, or does no longer, is exchanged. -/
theorem exchange (h : Manned items size s (before ++ p :: after)) (hq : Employed items size q)
    (gone : ∀ n, p.waitsFor? = some n → s.ticket? n = none) (idle : q.waitsFor? = none)
    (count : q.accepted = p.accepted +
      (p.waitsFor?.toList.countP (· ∈ s.accepted))) :
    Manned items size s (before ++ q :: after) := by
  have hp := waiting_perm before after p
  have hwaiting := waiting_perm before after q
  rw [idle] at hwaiting
  have hwaiting' : (waiting (before ++ q :: after)).Perm (waiting (before ++ after)) := hwaiting
  have hdistinct := hp.nodup_iff.mp h.distinct
  constructor
  · exact forall_exchange h.employed hq
  · exact hwaiting'.nodup_iff.mpr (List.nodup_append.mp hdistinct).2.1
  · intro k hk
    have hk' := hp.mem_iff.mp (h.awaited k hk)
    rw [hwaiting'.mem_iff]
    rcases List.mem_append.mp hk' with hown | hother
    · have hgone := gone k.number (Option.mem_toList.mp hown)
      rw [State.ticket?, List.find?_eq_none] at hgone
      exact absurd (by simp) (hgone k hk)
    · exact hother
  · intro n hn
    exact h.came n (hp.mem_iff.mpr (List.mem_append_right _ (hwaiting'.mem_iff.mp hn)))
  · have haccepted := h.accepted
    rw [counted_split, hp.countP_eq, List.countP_append] at haccepted
    rw [counted_split, hwaiting'.countP_eq, count]
    omega

/-! ### The engine goes on -/

theorem not_accepted (h : Told s) {k : Ticket Payload} (found : k ∈ s.offers) :
    k.number ∉ s.accepted := by
  intro haccepted
  have gone := ticket?_of_answered h (mem_accepted.mp haccepted)
  rw [State.ticket?, List.find?_eq_none] at gone
  exact absurd (by simp) (gone k found)

variable [Number ν]

theorem move {e : Event Payload ν} (h : Manned items size s ps) (hs : Smooth s)
    (hmove : Move s e t) (smooth : e.smooth = true) (inside : e.arrives = false) :
    Manned items size t ps := by
  have told := told_of_raced hs.raced
  refine ⟨h.employed, h.distinct, ?_, ?_, ?_⟩
  · intro k hk
    obtain ⟨l, hl, hnumber⟩ := offers_move hmove inside k hk
    rw [← hnumber]
    exact h.awaited l hl
  · intro n hn hnone
    have hprefix : s.story n <+: t.story n := seen_of_suffix (log_move hmove) _
    rw [hnone, List.prefix_nil] at hprefix
    exact h.came n hn hprefix
  · rcases accepted_move hmove smooth with hsame | ⟨n, k, found, hmore⟩
    · rw [hsame]
      exact h.accepted
    · -- the producer that waits for this offer has one more to count
      have hnumber := ticket?_number found
      have hwaits : n ∈ waiting ps := hnumber ▸ h.awaited k (ticket?_mem found)
      have hnew : n ∉ s.accepted := hnumber ▸ not_accepted told (ticket?_mem found)
      rw [hmore, countP_mem_concat h.distinct hwaits hnew, List.length_append, ← h.accepted]
      rfl

/-- A producer that does not wait makes an offer. -/
theorem offer {x : Payload} (h : Manned items size s (before ++ p :: after)) (told : Told s)
    (idle : p.waitsFor? = none) (more : 0 < p.left)
    (made : (Payload.make? 0 0 size).isSome = true)
    (hstep : s.step? (.offer (.one x)) = some t) :
    Manned items size t
      (before ++ { p with phase := .waiting s.nextNumber } :: after) := by
  obtain rfl := Option.some.inj hstep
  have hp := waiting_perm before after p
  rw [idle] at hp
  have hp' : (waiting (before ++ p :: after)).Perm (waiting (before ++ after)) := hp
  have hq : (waiting (before ++ { p with phase := .waiting s.nextNumber } :: after)).Perm
      (s.nextNumber :: waiting (before ++ after)) := waiting_perm before after _
  have hnew : s.nextNumber ∉ waiting (before ++ after) := fun hn =>
    Nat.lt_irrefl _ (h.numbers_known told (hp'.mem_iff.mpr hn))
  have haccepted : s.nextNumber ∉ s.accepted := fun hn =>
    Nat.lt_irrefl _ (number_of_accepted told hn)
  have hp_employed := h.employed p (List.mem_append_right _ List.mem_cons_self)
  constructor
  · exact forall_exchange h.employed ⟨hp_employed.room, fun _ => more, fun _ => made⟩
  · exact hq.nodup_iff.mpr (List.nodup_cons.mpr ⟨hnew, hp'.nodup_iff.mp h.distinct⟩)
  · intro k hk
    rw [hq.mem_iff]
    have hk' : k ∈ s.offers ++ [_] := hk
    rcases List.mem_append.mp hk' with hk | hk
    · exact List.mem_cons_of_mem _ (hp'.mem_iff.mp (h.awaited k hk))
    · rw [List.mem_singleton.mp hk]
      exact List.mem_cons_self
  · intro n hn
    rcases List.mem_cons.mp (hq.mem_iff.mp hn) with rfl | hn
    · have hown : State.story (s.arrive (.one x)) s.nextNumber =
          s.story s.nextNumber ++ [.offered s.nextNumber (.one x)] :=
        story_own [.offered s.nextNumber (.one x)] rfl (by simp [Entry.number?])
      rw [hown]
      exact List.append_ne_nil_of_right_ne_nil _ (List.cons_ne_nil _ _)
    · have hprefix : s.story n <+: State.story (s.arrive (.one x)) n :=
        seen_of_suffix (List.suffix_cons _ _) _
      intro hnone
      rw [hnone, List.prefix_nil] at hprefix
      exact h.came n (hp'.mem_iff.mpr hn) hprefix
  · have hcount := h.accepted
    rw [counted_split, hp'.countP_eq] at hcount
    show counted _ + (waiting _).countP (· ∈ s.accepted) = s.accepted.length
    rw [counted_split, hq.countP_eq, List.countP_cons]
    simp only [haccepted, decide_false]
    exact hcount

/-! ### How much there is -/

/-- No more is accepted and under way than there is to offer. -/
theorem room (h : Manned items size s ps) (hs : Raced s) :
    s.accepted.length + s.offers.length ≤ ps.length * items := by
  have told := told_of_raced hs
  have hsum : counted ps + (waiting ps).length ≤ ps.length * items := by
    have hall := h.employed
    clear h
    induction ps with
    | nil => simp [counted, waiting]
    | cons p rest ih =>
      have hp := hall p List.mem_cons_self
      have hrest := ih fun q hq => hall q (List.mem_cons_of_mem _ hq)
      have hroom := hp.room
      have hsplit := counted_split [] rest p
      have hperm := (waiting_perm [] rest p).length_eq
      simp only [List.nil_append, List.length_append] at hsplit hperm
      rw [hsplit, hperm, List.length_cons, Nat.succ_mul]
      cases hwaits : p.waitsFor? with
      | none =>
        simp only [Option.toList_none, List.length_nil]
        omega
      | some n =>
        have hmore := hp.more (by rw [hwaits]; rfl)
        simp only [Option.toList_some, List.length_cons, List.length_nil]
        omega
  have hunder : s.offers.length ≤ (waiting ps).countP (fun n => ¬ n ∈ s.accepted) := by
    have hsub : s.offers.map (·.number) ⊆ (waiting ps).filter fun n => ¬ n ∈ s.accepted := by
      intro n hn
      obtain ⟨k, hk, rfl⟩ := List.mem_map.mp hn
      exact List.mem_filter.mpr ⟨h.awaited k hk, by simpa using not_accepted told hk⟩
    have hlength := (numbers_of_raced hs).length_le_of_subset hsub
    rwa [List.length_map, ← List.countP_eq_length_filter] at hlength
  have hsplit := (waiting ps).length_eq_countP_add_countP (· ∈ s.accepted)
  rw [← h.accepted]
  have hnot : (waiting ps).countP (fun n => ¬ n ∈ s.accepted) =
      (waiting ps).countP fun n => ¬ (decide (n ∈ s.accepted) = true) := by
    simp
  omega

end Manned

end Simulation
end AdaptiveBatch
