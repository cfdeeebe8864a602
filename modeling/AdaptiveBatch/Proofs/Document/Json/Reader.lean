import AdaptiveBatch.Decimal.Instance
import AdaptiveBatch.Document.Json.Writer
import AdaptiveBatch.Proofs.Document.Json.Number
import AdaptiveBatch.Proofs.Document.Json.Quoted

/-!
# JSON read again

The text of a document is read value by value, whatever follows it and however it is
broken into lines.  A fuel of twice its length is enough: a table takes one more than its
members, and a member one more than its value and than the members behind it.
-/

namespace AdaptiveBatch
namespace Json

open Decimal

/-! ## Blanks -/

theorem skipBlank_append {b : List Char} (hb : ∀ c ∈ b, isBlank c = true) (cs : List Char) :
    skipBlank (b ++ cs) = skipBlank cs := List.dropWhile_append_of_pos hb

theorem skipBlank_cons {c : Char} (hc : isBlank c = false) (cs : List Char) :
    skipBlank (c :: cs) = c :: cs :=
  List.dropWhile_cons_of_neg (by rw [hc]; exact Bool.false_ne_true)

theorem isBlank_lineBreak (depth : Nat) : ∀ c ∈ lineBreak depth, isBlank c = true := by
  intro c hc
  rcases List.mem_cons.mp hc with rfl | hc
  · rfl
  · rw [List.eq_of_mem_replicate hc]
    rfl

theorem skipBlank_lineBreak (depth : Nat) {c : Char} (hc : isBlank c = false) (cs : List Char) :
    skipBlank (lineBreak depth ++ c :: cs) = c :: cs := by
  rw [skipBlank_append (isBlank_lineBreak depth), skipBlank_cons hc]

/-- Blanks in front make no difference to a value, nor to the members of a table. -/
theorem value?_congr {cs cs' : List Char} (h : skipBlank cs = skipBlank cs') (fuel : Nat) :
    value? fuel cs = value? fuel cs' := by
  cases fuel with
  | zero => rw [value?, value?]
  | succ fuel =>
    rw [value?.eq_def, value?.eq_def]
    dsimp only
    rw [h]

theorem members?_congr {cs cs' : List Char} (h : skipBlank cs = skipBlank cs') (fuel : Nat) :
    members? fuel cs = members? fuel cs' := by
  cases fuel with
  | zero => rw [members?, members?]
  | succ fuel =>
    rw [members?.eq_def, members?.eq_def]
    dsimp only
    rw [h]

/-! ## Scalars -/

/-- Whether a text is read as a document, whatever follows. -/
structure Reads (t : List Char) (d : Document) : Prop where
  nonempty : 0 < t.length
  value : ∀ fuel r, 2 * t.length ≤ fuel → Stops r → value? fuel (t ++ r) = some (d, r)

/-- A text that begins like a number is one. -/
theorem value?_number {c : Char} (hc : isDigit c = true ∨ c = '-') (fuel : Nat) (cs : List Char) :
    value? (fuel + 1) (c :: cs) = number? (c :: cs) := by
  have hother : ∀ d, isDigit d = false → d ≠ '-' → c ≠ d := by
    rintro d hd hminus rfl
    rcases hc with hc | hc
    · rw [hd] at hc
      exact Bool.false_ne_true hc
    · exact hminus hc
  have hblank : isBlank c = false := by
    simp only [isBlank, Bool.or_eq_false_iff, decide_eq_false_iff_not]
    exact ⟨⟨⟨hother _ (by decide) (by decide), hother _ (by decide) (by decide)⟩,
      hother _ (by decide) (by decide)⟩, hother _ (by decide) (by decide)⟩
  rw [value?, skipBlank_cons hblank]
  split
  all_goals first
    | rfl
    | rename_i h
      exact absurd (List.cons.inj h).1 (hother _ (by decide) (by decide))

theorem stops_nil : Stops [] := fun c hc => absurd hc (Option.not_mem_none c)

theorem reads_null : Reads (scalarText .null) (.scalar .null) := by
  refine ⟨by decide, fun fuel r hfuel _ => ?_⟩
  obtain ⟨f, rfl⟩ : ∃ f, fuel = f + 1 := ⟨fuel - 1, by have : 8 ≤ fuel := hfuel; omega⟩
  rfl

theorem reads_text (s : String) : Reads (scalarText (.text s)) (.scalar (.text s)) := by
  refine ⟨Nat.succ_pos _, fun fuel r hfuel _ => ?_⟩
  obtain ⟨ps, hps, hjoin⟩ := pieces_escape s.toList r
  have hlen : 0 < 2 * (scalarText (.text s)).length := by
    unfold scalarText quote
    rw [List.length_cons]
    omega
  obtain ⟨f, rfl⟩ : ∃ f, fuel = f + 1 := ⟨fuel - 1, by omega⟩
  have htext : scalarText (.text s) ++ r = '"' :: (s.toList.flatMap escape ++ '"' :: r) := by
    unfold scalarText quote
    rw [List.cons_append, List.append_assoc, List.singleton_append]
  rw [htext, value?, skipBlank_cons rfl]
  show (pieces _).map _ = _
  rw [hps]
  unfold textDocument
  simp only [Option.map_some, hjoin, String.ofList_toList]

/-- A text that is read as a number is read as a value. -/
theorem reads_of_number? {t : List Char} {d : Document}
    (h : ∀ r, Stops r → number? (t ++ r) = some (d, r)) : Reads t d := by
  have hnonempty : 0 < t.length := by
    obtain ⟨c, rest, hcons, -⟩ := head_of_number? (h [] stops_nil)
    rw [List.append_nil] at hcons
    rw [hcons]
    exact Nat.succ_pos _
  refine ⟨hnonempty, fun fuel r hfuel hr => ?_⟩
  obtain ⟨f, rfl⟩ : ∃ f, fuel = f + 1 := ⟨fuel - 1, by omega⟩
  obtain ⟨c, rest, hcons, hhead⟩ := head_of_number? (h r hr)
  rw [hcons, value?_number hhead, ← hcons, h r hr]

theorem reads_natural {n : Nat} (hn : n < wordCount) :
    Reads (scalarText (.integer n)) (.scalar (.integer n)) := by
  have htext : scalarText (.integer n) = digits n := by
    show (intText n).toList = digits n
    unfold intText natText
    rw [if_neg (by omega), Int.natAbs_natCast, String.toList_ofList]
  rw [htext]
  exact reads_of_number? fun r hr => number?_natural hn hr

/-- A finite number is read as a pattern near its own, with its sign. -/
theorem reads_real {negative : Bool} {n k : Nat} (finite : n < infinity) (h : Rereads n k) :
    Reads (scalarText (.real (number negative n))) (.scalar (.real (number negative k))) := by
  obtain ⟨m, hm⟩ : ∃ m, m = shortest .even (binary false n) := ⟨_, rfl⟩
  have htext : scalarText (.real (number negative n)) = prefixed negative (numberForm.finite m) := by
    show realText (number negative n) = _
    unfold realText Form.write
    rw [isFinite_number _ finite, if_pos rfl, ofFloat?_number finite, hm,
      ← shortest_sign .even negative n]
    rfl
  have hdocument : realDocument negative (decimalOf m) = .scalar (.real (number negative k)) := by
    have hreads := h.reads
    unfold decimal at hreads
    unfold realDocument assemble?
    rw [hm, hreads, Option.map_some, Option.map_some, Option.getD_some, signed_number h.finite]
  have hbounds : m.coefficient ≤ 10 ^ 17 ∧ -324 ≤ m.exponent ∧ m.exponent ≤ 308 := by
    by_cases hn : 0 < n
    · have hlength := shortest_length false hn .even
      have hexponent := Magnitude.exponent_le hn finite (shortest_roundsTo false hn .even)
      rw [hm]
      exact ⟨hlength.1, hlength.2, hexponent⟩
    · obtain rfl : n = 0 := Nat.eq_zero_of_not_pos hn
      have hzero : m = ⟨0, 0⟩ := hm
      rw [hzero]
      decide
  rw [htext]
  refine reads_of_number? fun r hr => ?_
  have hjoin : prefixed negative (numberForm.finite m) ++ r =
      prefixed negative (numberForm.finite m ++ r) := by cases negative <;> rfl
  rw [hjoin, number?_numberForm hbounds.1 hbounds.2.1 hbounds.2.2 hr, hdocument]

/-- What becomes of a finite number that is written and read again. -/
structure Reread (x y : Float) : Prop where
  reads : Reads (scalarText (.real x)) (.scalar (.real y))
  near : Nearby x y
  cost : Number.isCost y = Number.isCost x
  positive : Number.less (Number.ofCount 0) y = Number.less (Number.ofCount 0) x
  finite : y.isFinite = true

theorem reread_of_rereads {negative : Bool} {n k : Nat} (hn : n < infinity) (hk : Rereads n k) :
    Reread (number negative n) (number negative k) := by
  have hpos : decide (0 < k) = decide (0 < n) := by
    have hzero := hk.zero
    exact decide_eq_decide.mpr (by omega)
  have hfinite := isFinite_number negative hk.finite
  refine ⟨reads_real hn hk, nearby_of_rereads hn hk, ?_, ?_, hfinite⟩
  · show (_ && !decide (_ < Float.ofNat 0)) = (_ && !decide (_ < Float.ofNat 0))
    rw [number_lt_zero hk.finite, number_lt_zero hn, hpos]
    exact congrArg (· && _) (hfinite.trans (isFinite_number negative hn).symm)
  · show decide (Float.ofNat 0 < _) = decide (Float.ofNat 0 < _)
    rw [zero_lt_number hk.finite, zero_lt_number hn, hpos]

theorem exists_reread {x : Float} (hx : x.isFinite = true) : ∃ y, Reread x y := by
  obtain ⟨negative, n, hn, rfl⟩ := exists_number hx
  obtain ⟨k, hk⟩ := exists_rereads hn
  exact ⟨number negative k, reread_of_rereads hn hk⟩

theorem reread_self {x : Float} (hx : x.isFinite = true) (hshort : isShort x = true) :
    Reread x x := by
  obtain ⟨y, hy⟩ := exists_reread hx
  rwa [hy.near.exact hshort] at hy

/-! ## Tables -/

theorem stops_writeMembers (depth : Nat) (ms : List (String × Document)) (r : List Char) :
    Stops (writeMembers depth ms ++ r) := by
  intro c hc
  cases ms with
  | nil =>
    cases hc
    decide
  | cons m ms =>
    cases hc
    decide

/-- The text of a member and of those behind it. -/
def memberLines (depth : Nat) (m : String × Document) (ms : List (String × Document)) :
    List Char :=
  lineBreak (depth + 1) ++ quote m.1 ++ [':', ' '] ++ write (depth + 1) m.2 ++ writeMembers depth ms

/-- Whether a member is read under its own name, with the value it is written as. -/
structure MemberReads (depth : Nat) (m m' : String × Document) : Prop where
  name : m'.1 = m.1
  value : Reads (write (depth + 1) m.2) m'.2

theorem memberReads_scalar (depth : Nat) (name : String) {s s' : Scalar}
    (h : Reads (scalarText s) (.scalar s')) :
    MemberReads depth (name, .scalar s) (name, .scalar s') := by
  refine ⟨rfl, ?_⟩
  rw [write]
  exact h

/-- One member, up to what follows its value. -/
theorem members?_member {depth : Nat} {m m' : String × Document} (hm : MemberReads depth m m')
    {tail : List Char} (htail : Stops tail) (fuel : Nat)
    (hfuel : 2 * (write (depth + 1) m.2).length ≤ fuel) :
    ∃ name, join? name = some m'.1.toList ∧
      members? (fuel + 1) (lineBreak (depth + 1) ++ quote m.1 ++ [':', ' '] ++
        write (depth + 1) m.2 ++ tail) =
      match skipBlank tail with
      | ',' :: r => do
        let (ms, r) ← members? fuel r
        return ((name, m'.2) :: ms, r)
      | '\x7d' :: r => some ([(name, m'.2)], r)
      | _ => none := by
  obtain ⟨name, hname, hjoin⟩ :=
    pieces_escape m.1.toList (':' :: ' ' :: (write (depth + 1) m.2 ++ tail))
  refine ⟨name, by rw [hm.name, hjoin], ?_⟩
  have htext : lineBreak (depth + 1) ++ quote m.1 ++ [':', ' '] ++ write (depth + 1) m.2 ++ tail =
      lineBreak (depth + 1) ++ '"' :: (m.1.toList.flatMap escape ++
        '"' :: ':' :: ' ' :: (write (depth + 1) m.2 ++ tail)) := by
    unfold quote
    simp only [List.append_assoc, List.cons_append, List.nil_append]
  have hvalue : value? fuel (' ' :: (write (depth + 1) m.2 ++ tail)) = some (m'.2, tail) :=
    (value?_congr (skipBlank_append (b := [' ']) (List.forall_mem_singleton.mpr rfl) _) fuel).trans
      (hm.value.value fuel tail hfuel htail)
  rw [htext, members?, skipBlank_lineBreak _ rfl]
  show (pieces _ >>= _) = _
  rw [hname]
  simp only [Option.bind_eq_bind, Option.bind_some, skipBlank_cons (show isBlank ':' = false from rfl),
    hvalue]
  rfl

/-- Names and values of members that have been read. -/
def named? (ms : List (List Piece × Document)) : Option (List (String × Document)) :=
  ms.mapM fun (ps, d) => (join? ps).map fun cs => (String.ofList cs, d)

theorem tableDocument_of_named? {ms : List (List Piece × Document)}
    {ms' : List (String × Document)} (h : named? ms = some ms') :
    tableDocument ms = .table ms' := by
  unfold named? at h
  unfold tableDocument
  rw [h]

theorem named?_cons {name : List Piece} {m : String × Document} (hname : join? name = some m.1.toList)
    {ms : List (List Piece × Document)} {ms' : List (String × Document)}
    (h : named? ms = some ms') : named? ((name, m.2) :: ms) = some (m :: ms') := by
  unfold named? at *
  rw [List.mapM_cons, h]
  dsimp only
  rw [hname, Option.map_some, String.ofList_toList]
  rfl

theorem members?_memberLines {depth : Nat} {m m' : String × Document}
    {ms ms' : List (String × Document)} (hm : MemberReads depth m m')
    (hms : List.Forall₂ (MemberReads depth) ms ms') (fuel : Nat) (r : List Char)
    (hfuel : 2 * (memberLines depth m ms).length + 1 ≤ fuel) :
    ∃ read, members? fuel (memberLines depth m ms ++ r) = some (read, r) ∧
      named? read = some (m' :: ms') := by
  have hlength : ∀ m : String × Document, ∀ ms, (write (depth + 1) m.2).length <
      (memberLines depth m ms).length ∧
        (writeMembers depth ms).length < (memberLines depth m ms).length := by
    intro m ms
    unfold memberLines
    simp only [List.length_append, List.length_cons, List.length_nil]
    omega
  induction hms generalizing m m' fuel with
  | nil =>
    have hlen := hlength m []
    obtain ⟨f, rfl⟩ : ∃ f, fuel = f + 1 := ⟨fuel - 1, by omega⟩
    obtain ⟨name, hname, hread⟩ :=
      members?_member hm (stops_writeMembers depth [] r) f (by omega)
    refine ⟨[(name, m'.2)], ?_, named?_cons hname rfl⟩
    unfold memberLines
    rw [List.append_assoc _ _ r, hread, writeMembers, List.append_assoc, List.singleton_append,
      skipBlank_lineBreak _ rfl]
    rfl
  | @cons next next' rest rest' hnext hrest ih =>
    have hlen := hlength m (next :: rest)
    obtain ⟨f, rfl⟩ : ∃ f, fuel = f + 1 := ⟨fuel - 1, by omega⟩
    have htext : writeMembers depth (next :: rest) = ',' :: memberLines depth next rest := by
      unfold memberLines
      rw [writeMembers]
    have hlenRest := congrArg List.length htext
    rw [List.length_cons] at hlenRest
    obtain ⟨name, hname, hread⟩ :=
      members?_member hm (stops_writeMembers depth (next :: rest) r) f (by omega)
    obtain ⟨read, hreads, hnamed⟩ := ih hnext f (by omega)
    refine ⟨(name, m'.2) :: read, ?_, named?_cons hname hnamed⟩
    rw [memberLines, List.append_assoc _ _ r, hread, htext, List.cons_append, skipBlank_cons rfl]
    show (members? f (memberLines depth next rest ++ r) >>= _) = _
    rw [hreads]
    rfl

/-- A table that has members. -/
theorem reads_table {depth : Nat} {m m' : String × Document} {ms ms' : List (String × Document)}
    (hm : MemberReads depth m m') (hms : List.Forall₂ (MemberReads depth) ms ms') :
    Reads (write depth (.table (m :: ms))) (.table (m' :: ms')) := by
  have htext : write depth (.table (m :: ms)) = '\x7b' :: memberLines depth m ms := by
    unfold memberLines
    rw [write]
  rw [htext]
  refine ⟨Nat.succ_pos _, fun fuel r hfuel _ => ?_⟩
  rw [List.length_cons] at hfuel
  obtain ⟨f, rfl⟩ : ∃ f, fuel = f + 1 := ⟨fuel - 1, by omega⟩
  obtain ⟨ps, hps, hjoin⟩ := members?_memberLines hm hms f r (by omega)
  obtain ⟨rest, hrest⟩ : ∃ rest, skipBlank (memberLines depth m ms ++ r) = '"' :: rest := by
    unfold memberLines quote
    simp only [List.append_assoc, List.cons_append]
    exact ⟨_, skipBlank_lineBreak _ rfl _⟩
  rw [List.cons_append, value?, skipBlank_cons rfl]
  simp only [hrest]
  show (members? f ('"' :: rest)).map _ = _
  have hskip : skipBlank ('"' :: rest) = skipBlank (memberLines depth m ms ++ r) := by
    rw [hrest, skipBlank_cons rfl]
  rw [members?_congr hskip, hps]
  show some (tableDocument ps, r) = _
  rw [tableDocument_of_named? hjoin]

/-- A document that is read as another one, from its whole text. -/
theorem read?_render {d d' : Document} (h : Reads (write 0 d) d') : read? (render d) = some d' := by
  have hvalue := h.value (2 * (write 0 d).length + 2) [] (by omega) stops_nil
  rw [List.append_nil] at hvalue
  unfold read? render
  dsimp only
  rw [String.toList_ofList, hvalue]
  rfl

end Json
end AdaptiveBatch
