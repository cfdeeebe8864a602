import Mathlib.Data.List.TakeWhile
import AdaptiveBatch.Document.Toml.Scalar
import AdaptiveBatch.Proofs.Decimal.Text

/-!
# Numbers in TOML, read again

Numbers are written with digits, at most one point and a sign in front, which no word,
no moment and no number to another base is made of.
-/

namespace AdaptiveBatch
namespace Toml

open Decimal

/-! ## Grouped digits -/

theorem ungroup?_of_digits {ds : List Char} (hds : ∀ c ∈ ds, isDigit c = true) (hne : ds ≠ []) :
    ungroup? isDigit ds = some ds := by
  induction ds with
  | nil => exact absurd rfl hne
  | cons c ds ih =>
    have hc := hds c List.mem_cons_self
    cases ds with
    | nil => simp [ungroup?, hc]
    | cons d ds =>
      have hd : d ≠ '_' := by
        intro h
        have hdigit := hds d (by simp)
        rw [h] at hdigit
        exact absurd hdigit (by decide)
      have hrest := ih (fun x hx => hds x (List.mem_cons_of_mem _ hx)) (List.cons_ne_nil _ _)
      rw [ungroup?, if_pos hc, hrest]
      · rfl
      · exact fun h => List.cons_ne_nil _ _ h
      · exact fun r hr => hd (List.cons.inj hr).1

/-- Nothing but digits and underscores groups digits. -/
theorem ungroup?_of_other {cs : List Char} {c : Char} (hc : c ∈ cs) (other : isDigit c = false)
    (plain : c ≠ '_') : ungroup? isDigit cs = none := by
  fun_induction ungroup? isDigit cs with
  | case1 => rfl
  | case2 d hd =>
    rw [List.mem_singleton] at hc
    rw [hc, hd] at other
    cases other
  | case3 => rfl
  | case4 d r hd ih =>
    rw [List.mem_cons, List.mem_cons] at hc
    rcases hc with rfl | rfl | hc
    · rw [hd] at other
      cases other
    · exact absurd rfl plain
    · rw [ih hc]
      rfl
  | case5 => rfl
  | case6 d r hd hr hx ih =>
    rw [List.mem_cons] at hc
    rcases hc with rfl | hc
    · rw [hx] at other
      cases other
    · rw [ih hc]
      rfl
  | case7 => rfl

theorem wholeDigits?_of_wholeDigits {ds : List Char} (h : WholeDigits ds) :
    wholeDigits? ds = some ds := by
  unfold wholeDigits?
  rw [ungroup?_of_digits h.digits h.nonempty]
  split
  · rename_i heq
    have := h.leading _ (Option.some.inj heq)
    cases this
  · rfl

/-! ## Words and moments are something else -/

theorem field?_rest {count least greatest n : Nat} {cs r : List Char}
    (h : field? count least greatest cs = some (n, r)) : r = cs.drop count := by
  unfold field? at h
  dsimp only at h
  split at h
  · exact (Prod.mk.inj (Option.some.inj h)).2.symm
  · cases h

theorem after?_of_not_mem {c : Char} {cs : List Char} (h : c ∉ cs) : after? c cs = none := by
  cases cs with
  | nil => rfl
  | cons d cs => exact if_neg fun hd : d = c => h (hd ▸ List.mem_cons_self)

theorem afterDate?_eq_none {cs : List Char} (hcs : '-' ∉ cs.drop 4) : afterDate? cs = none := by
  unfold afterDate?
  cases hyear : field? 4 0 9999 cs with
  | none => rfl
  | some y =>
    obtain ⟨year, r⟩ := y
    obtain rfl := field?_rest hyear
    simp only [Option.bind_eq_bind, Option.bind_some, after?_of_not_mem hcs, Option.bind_none]

theorem afterTime?_eq_none {cs : List Char} (hcs : ':' ∉ cs.drop 2) : afterTime? cs = none := by
  unfold afterTime?
  cases hhour : field? 2 0 23 cs with
  | none => rfl
  | some h =>
    obtain ⟨hour, r⟩ := h
    obtain rfl := field?_rest hhour
    simp only [Option.bind_eq_bind, Option.bind_some, after?_of_not_mem hcs, Option.bind_none]

/-- A character of a number as it is written. -/
def isNumeric (c : Char) : Bool := isDigit c || c = '.' || c = '-'

theorem isNumeric_of_isDigit {c : Char} (hc : isDigit c = true) : isNumeric c = true := by
  simp [isNumeric, hc]

/-- A text of a number: digits and points behind at most one minus. -/
structure Numeric (cs : List Char) : Prop where
  chars : ∀ c ∈ cs, isNumeric c = true
  sign : '-' ∉ cs.drop 1
  nonempty : cs ≠ []

namespace Numeric

variable {cs : List Char}

theorem not_mem (h : Numeric cs) {c : Char} (hc : isNumeric c = false) : c ∉ cs := fun hmem => by
  rw [h.chars c hmem] at hc
  cases hc

theorem isMoment_eq_false (h : Numeric cs) : isMoment cs = false := by
  have hdate : '-' ∉ cs.drop 4 := fun hmem => h.sign (by
    rw [← List.drop_drop (i := 3) (j := 1)] at hmem
    exact List.mem_of_mem_drop hmem)
  have htime : ':' ∉ cs.drop 2 := fun hmem =>
    h.not_mem (by decide) (List.mem_of_mem_drop hmem)
  unfold isMoment
  rw [afterDate?_eq_none hdate, afterTime?_eq_none htime]
  rfl

theorem ne_of_mem (h : Numeric cs) {word : List Char} {c : Char} (hc : c ∈ word)
    (other : isNumeric c = false) : cs ≠ word := fun heq => h.not_mem other (heq ▸ hc)

theorem bare?_eq (h : Numeric cs) :
    bare? cs = unsigned? (takeSign cs).1 (takeSign cs).2 := by
  unfold bare?
  rw [if_neg (h.ne_of_mem (c := 't') (by decide) (by decide)),
    if_neg (h.ne_of_mem (c := 'f') (by decide) (by decide)), h.isMoment_eq_false]
  rw [if_neg Bool.false_ne_true]
  split
  · exact absurd (by simp) (h.not_mem (c := 'x') (by decide))
  · exact absurd (by simp) (h.not_mem (c := 'o') (by decide))
  · exact absurd (by simp) (h.not_mem (c := 'b') (by decide))
  · rfl

end Numeric

theorem isScalarChar_of_isNumeric {c : Char} (hc : isNumeric c = true) :
    isScalarChar c = true := by
  simp only [isNumeric, Bool.or_eq_true, decide_eq_true_eq] at hc
  rcases hc with (hc | rfl) | rfl
  · have halnum : c.isAlphanum = true := by
      simp only [isDigit, Bool.and_eq_true, decide_eq_true_eq] at hc
      simp only [Char.isAlphanum, Char.isDigit, Bool.or_eq_true, Bool.and_eq_true,
        decide_eq_true_eq]
      exact Or.inr hc
    simp [isScalarChar, halnum]
  · decide
  · decide

theorem span_of_all {p : Char → Bool} (cs : List Char) (hcs : ∀ c ∈ cs, p c = true) {d : Char}
    (hd : p d = false) (r : List Char) : (cs ++ d :: r).span p = (cs, d :: r) := by
  rw [List.span_eq_takeWhile_dropWhile, List.takeWhile_append_of_pos hcs,
    List.dropWhile_append_of_pos hcs, List.takeWhile_cons_of_neg (by simp [hd]),
    List.dropWhile_cons_of_neg (by simp [hd]), List.append_nil]

/-- A scalar without quotes at the head of a line. -/
theorem scalar?_of_chars {cs : List Char} (hcs : ∀ c ∈ cs, isScalarChar c = true) (r : List Char) :
    scalar? (cs ++ '\n' :: r) = (bare? cs).map (·, '\n' :: r) := by
  have hspan := span_of_all cs hcs (show isScalarChar '\n' = false by decide) r
  have hbare : takeBare (cs ++ '\n' :: r) = (cs, '\n' :: r) := by
    unfold takeBare
    rw [hspan]
    dsimp only
    split
    · rename_i heq
      exact absurd (List.cons.inj heq).1 (by decide)
    · rfl
  have hhead : ∀ q x, isScalarChar q = false → q ≠ '\n' → cs ++ '\n' :: r ≠ q :: x := by
    intro q x hq hn h
    cases cs with
    | nil => exact hn (List.cons.inj h).1.symm
    | cons c cs =>
      have hc := hcs c List.mem_cons_self
      rw [(List.cons.inj h).1, hq] at hc
      cases hc
  unfold scalar?
  split
  · exact absurd ‹_› (hhead '"' _ (by decide) (by decide))
  · exact absurd ‹_› (hhead '\'' _ (by decide) (by decide))
  · rw [hbare]

theorem scalar?_of_numeric {cs : List Char} (h : Numeric cs) (r : List Char) :
    scalar? (cs ++ '\n' :: r) =
      (unsigned? (takeSign cs).1 (takeSign cs).2).map (·, '\n' :: r) := by
  rw [scalar?_of_chars fun c hc => isScalarChar_of_isNumeric (h.chars c hc), h.bare?_eq]

/-! ## Numbers -/

theorem takeSign_of_isDigit {c : Char} (hc : isDigit c = true) (cs : List Char) :
    takeSign (c :: cs) = (false, c :: cs) := by
  unfold takeSign
  split
  · rename_i heq
    rw [(List.cons.inj heq).1] at hc
    exact absurd hc (by decide)
  · rename_i heq
    rw [(List.cons.inj heq).1] at hc
    exact absurd hc (by decide)
  · rfl

theorem ne_word_of_isNumeric {cs word : List Char} (hcs : ∀ c ∈ cs, isNumeric c = true) {c : Char}
    (hc : c ∈ word) (other : isNumeric c = false) : cs ≠ word := by
  rintro rfl
  rw [hcs c hc] at other
  cases other

theorem unsigned?_of_wholeDigits {ds : List Char} (h : WholeDigits ds) (negative : Bool) :
    unsigned? negative ds = integer? (if negative then -(value ds : Int) else value ds) := by
  have hnumeric : ∀ c ∈ ds, isNumeric c = true := fun c hc => isNumeric_of_isDigit (h.digits c hc)
  unfold unsigned?
  rw [if_neg (ne_word_of_isNumeric hnumeric (c := 'i') (by decide) (by decide)),
    if_neg (ne_word_of_isNumeric hnumeric (c := 'n') (by decide) (by decide)),
    wholeDigits?_of_wholeDigits h]

theorem chars_of_point {whole fraction : List Char} (hwhole : WholeDigits whole)
    (hfraction : ∀ c ∈ fraction, isDigit c = true) :
    ∀ c ∈ whole ++ '.' :: fraction, isNumeric c = true ∧ c ≠ '-' := by
  have hdigit : ∀ c, isDigit c = true → isNumeric c = true ∧ c ≠ '-' := fun c hc =>
    ⟨isNumeric_of_isDigit hc, fun h => absurd (h ▸ hc) (by decide)⟩
  intro c hc
  rw [List.mem_append, List.mem_cons] at hc
  rcases hc with hc | rfl | hc
  · exact hdigit c (hwhole.digits c hc)
  · decide
  · exact hdigit c (hfraction c hc)

theorem unsigned?_of_point {negative : Bool} {whole fraction : List Char}
    (hwhole : WholeDigits whole) (hfraction : ∀ c ∈ fraction, isDigit c = true)
    (hne : fraction ≠ []) (finite : (Numeral.toFloat negative ⟨whole, fraction, 0⟩).isInf = false) :
    unsigned? negative (whole ++ '.' :: fraction) =
      some (.scalar (.real (Numeral.toFloat negative ⟨whole, fraction, 0⟩))) := by
  have hnumeric : ∀ c ∈ whole ++ '.' :: fraction, isNumeric c = true :=
    fun c hc => (chars_of_point hwhole hfraction c hc).1
  have hnone : wholeDigits? (whole ++ '.' :: fraction) = none := by
    unfold wholeDigits?
    rw [ungroup?_of_other (c := '.') (by simp) (by decide) (by decide)]
  have hmark : ∀ c, isDigit c = true → c ≠ '.' ∧ isExponentMark c = false := by
    intro c hc
    refine ⟨?_, ?_⟩
    · rintro rfl
      exact absurd hc (by decide)
    · rw [isExponentMark, Bool.or_eq_false_iff, decide_eq_false_iff_not, decide_eq_false_iff_not]
      constructor <;> rintro rfl <;> exact absurd hc (by decide)
  have hspan : (whole ++ '.' :: fraction).span (fun c => c ≠ '.' && !isExponentMark c) =
      (whole, '.' :: fraction) := by
    refine span_of_all _ (fun c hc => ?_) rfl fraction
    have := hmark c (hwhole.digits c hc)
    simp [this]
  have hrest : fraction.span (fun c => !isExponentMark c) = (fraction, []) := by
    have hall : ∀ c ∈ fraction, (!isExponentMark c) = true := fun c hc => by
      rw [(hmark c (hfraction c hc)).2]
      rfl
    rw [List.span_eq_takeWhile_dropWhile, List.takeWhile_eq_self_iff.mpr hall,
      List.dropWhile_eq_nil_iff.mpr hall]
  unfold unsigned?
  rw [if_neg (ne_word_of_isNumeric hnumeric (c := 'i') (by decide) (by decide)),
    if_neg (ne_word_of_isNumeric hnumeric (c := 'n') (by decide) (by decide)), hnone]
  dsimp only
  unfold real?
  rw [hspan]
  simp only [wholeDigits?_of_wholeDigits hwhole, hrest, ungroup?_of_digits hfraction hne,
    Option.bind_eq_bind, Option.bind_some, Option.map_some, finite]
  rfl

/-- A natural number below `2 ^ 64`. -/
theorem scalar?_natural {n : Nat} (hn : n < 2 ^ 64) (r : List Char) :
    scalar? (digits n ++ '\n' :: r) = some (.scalar (.integer n), '\n' :: r) := by
  have hwhole := wholeDigits_digits n
  have hnumeric : Numeric (digits n) := by
    refine ⟨fun c hc => isNumeric_of_isDigit (hwhole.digits c hc), fun hmem => ?_, hwhole.nonempty⟩
    exact absurd (hwhole.digits _ (List.mem_of_mem_drop hmem)) (by decide)
  obtain ⟨c, cs, hcs⟩ := List.exists_cons_of_ne_nil hwhole.nonempty
  have hsign : takeSign (digits n) = (false, digits n) := by
    rw [hcs]
    exact takeSign_of_isDigit (hwhole.digits c (by rw [hcs]; exact List.mem_cons_self)) cs
  rw [scalar?_of_numeric hnumeric, hsign, unsigned?_of_wholeDigits hwhole, value_digits]
  have hbound : -(twoPow 63 : Int) ≤ (n : Int) ∧ (n : Int) < twoPow 64 := by
    rw [twoPow_eq, twoPow_eq]
    omega
  rw [integer?, if_neg Bool.false_ne_true, if_pos hbound]
  rfl

/-- A finite number is read as itself, a zero with its sign. -/
theorem scalar?_number {x : Float} (hx : x.isFinite = true) (r : List Char) :
    scalar? (realForm.write x ++ '\n' :: r) = some (.scalar (.real x), '\n' :: r) := by
  obtain ⟨negative, n, finite, rfl⟩ := exists_number hx
  obtain ⟨whole, fraction, hpointed, hne, hwrites⟩ :=
    pointedAs (shortest .up (binary negative n))
  have htoFloat := toFloat_of_writes finite hwrites
  have hwhole : WholeDigits whole := hwrites.whole
  have hchars := chars_of_point hwhole hwrites.fraction
  have hread : unsigned? negative (whole ++ '.' :: fraction) =
      some (.scalar (.real (number negative n))) := by
    rw [← htoFloat]
    refine unsigned?_of_point hwhole hwrites.fraction hne ?_
    rw [htoFloat]
    exact isInf_number finite
  obtain ⟨d, ds, hd⟩ := List.exists_cons_of_ne_nil hwhole.nonempty
  have hdigit : isDigit d = true := hwhole.digits d (hd ▸ List.mem_cons_self)
  have hwrite : realForm.write (number negative n) =
      if negative then '-' :: (whole ++ '.' :: fraction) else whole ++ '.' :: fraction := by
    unfold Form.write
    rw [ofFloat?_number finite, ← hpointed]
    rfl
  rw [hwrite]
  cases negative with
  | true =>
    have hnumeric : Numeric ('-' :: (whole ++ '.' :: fraction)) := by
      refine ⟨fun c hc => ?_, fun hmem => (hchars _ hmem).2 rfl, List.cons_ne_nil _ _⟩
      rcases List.mem_cons.mp hc with rfl | hc
      · decide
      · exact (hchars c hc).1
    rw [if_pos rfl, scalar?_of_numeric hnumeric]
    show (unsigned? true (whole ++ '.' :: fraction)).map _ = _
    rw [hread]
    rfl
  | false =>
    have hnumeric : Numeric (whole ++ '.' :: fraction) :=
      ⟨fun c hc => (hchars c hc).1, fun hmem => (hchars _ (List.mem_of_mem_drop hmem)).2 rfl,
        List.append_ne_nil_of_left_ne_nil hwhole.nonempty _⟩
    have hsign : takeSign (whole ++ '.' :: fraction) = (false, whole ++ '.' :: fraction) := by
      rw [hd]
      exact takeSign_of_isDigit hdigit _
    rw [if_neg Bool.false_ne_true, scalar?_of_numeric hnumeric, hsign, hread]
    rfl

end Toml
end AdaptiveBatch
