import AdaptiveBatch.Document.Json.Reader
import AdaptiveBatch.Proofs.Decimal.Text
import AdaptiveBatch.Proofs.Document.Json.Scale

/-!
# Numbers in JSON, read again

The reader finds the literal that a number was written as and collects all of its digits.
What they are scaled to is at most two patterns away from the number, and the number
itself if the literal is short.
-/

namespace AdaptiveBatch
namespace Json

open Decimal

/-! ## Literals -/

section Literal

variable {ds r : List Char}

theorem takeWhole?_append (hds : WholeDigits ds) (hr : ∀ c ∈ r.head?, isDigit c = false) :
    takeWhole? (ds ++ r) = some (ds, r) := by
  unfold takeWhole?
  rw [takeDigits_append hds.digits hr]
  split
  · rename_i h
    exact absurd (congrArg Prod.fst h) hds.nonempty
  · rename_i d ds' r' h
    have hzero : ds = '0' :: d :: ds' := congrArg Prod.fst h
    exact absurd (hds.leading _ hzero) (List.cons_ne_nil _ _)
  · rename_i h
    exact congrArg some h.symm

theorem takeFraction?_point (hds : ∀ c ∈ ds, isDigit c = true) (hne : ds ≠ [])
    (hr : ∀ c ∈ r.head?, isDigit c = false) :
    takeFraction? ('.' :: (ds ++ r)) = some (some ds, r) := by
  rw [takeFraction?, takeDigits_append hds hr]
  cases ds with
  | nil => exact absurd rfl hne
  | cons d ds => rfl

theorem takeFraction?_none (hr : ∀ c ∈ r.head?, c ≠ '.') : takeFraction? r = some (none, r) := by
  unfold takeFraction?
  split
  · exact absurd rfl (hr '.' rfl)
  · rfl

theorem takeExponent?_none (hr : ∀ c ∈ r.head?, c ≠ 'e' ∧ c ≠ 'E') :
    takeExponent? r = some (none, r) := by
  cases r with
  | nil => rfl
  | cons c r =>
    obtain ⟨he, hE⟩ := hr c rfl
    exact if_neg (not_or.mpr ⟨he, hE⟩)

theorem takeExponentDigits?_append {negative : Bool} (hds : ∀ c ∈ ds, isDigit c = true)
    (hne : ds ≠ []) (hr : ∀ c ∈ r.head?, isDigit c = false) :
    takeExponentDigits? negative (ds ++ r) = some (some (negative, ds), r) := by
  unfold takeExponentDigits?
  rw [takeDigits_append hds hr]
  cases ds with
  | nil => exact absurd rfl hne
  | cons d ds => rfl

theorem takeExponent?_signed {negative : Bool} (hds : ∀ c ∈ ds, isDigit c = true)
    (hne : ds ≠ []) (hr : ∀ c ∈ r.head?, isDigit c = false) :
    takeExponent? ('e' :: (if negative then '-' else '+') :: (ds ++ r)) =
      some (some (negative, ds), r) := by
  rw [← takeExponentDigits?_append hds hne hr]
  cases negative <;> rfl

/-- A sign in front of a text. -/
def prefixed (negative : Bool) (cs : List Char) : List Char := if negative then '-' :: cs else cs

theorem literal?_prefixed (negative : Bool) {whole rest r₁ r₂ : List Char}
    {fraction : Option (List Char)} {exponent : Option (Bool × List Char)}
    (hwhole : WholeDigits whole) (hrest : ∀ c ∈ rest.head?, isDigit c = false)
    (hfraction : takeFraction? rest = some (fraction, r₁))
    (hexponent : takeExponent? r₁ = some (exponent, r₂)) :
    literal? (prefixed negative (whole ++ rest)) =
      some (⟨negative, whole, fraction, exponent⟩, r₂) := by
  unfold literal?
  split
  rename_i sign r hmatch
  have hsign : sign = negative ∧ r = whole ++ rest := by
    cases negative with
    | true =>
      cases hmatch
      exact ⟨rfl, rfl⟩
    | false =>
      obtain ⟨d, ds, hd⟩ := List.exists_cons_of_ne_nil hwhole.nonempty
      have hdigit : isDigit d = true := hwhole.digits d (hd ▸ List.mem_cons_self)
      have hne : d ≠ '-' := by
        rintro rfl
        exact absurd hdigit (by decide)
      have hself : prefixed false (whole ++ rest) = d :: (ds ++ rest) := by rw [hd]; rfl
      rw [hself] at hmatch
      rw [hd]
      split at hmatch
      · rename_i h
        exact absurd (List.cons.inj h).1 hne
      · cases hmatch
        exact ⟨rfl, rfl⟩
  rw [hsign.1, hsign.2, takeWhole?_append hwhole hrest]
  show (takeFraction? rest >>= _) = _
  rw [hfraction]
  show (takeExponent? r₁ >>= _) = _
  rw [hexponent]
  rfl

end Literal

/-- Whatever is read as a number begins with a digit or a minus. -/
theorem head_of_number? {cs : List Char} {x : Document × List Char} (h : number? cs = some x) :
    ∃ c r, cs = c :: r ∧ (isDigit c = true ∨ c = '-') := by
  cases cs with
  | nil => cases h
  | cons c r =>
    refine ⟨c, r, rfl, ?_⟩
    by_contra hneither
    obtain ⟨hdigit, hminus⟩ := not_or.mp hneither
    have hnone : takeWhole? (c :: r) = none := by
      unfold takeWhole? takeDigits
      rw [List.takeWhile_cons_of_neg hdigit]
    unfold number? literal? at h
    split at h
    rename_i hmatch
    split at hmatch
    · rename_i hcons
      exact hminus (List.cons.inj hcons).1
    · cases hmatch
      rw [hnone] at h
      cases h

/-! ## Values -/

theorem le_foldl (n : Nat) (ds : List Char) :
    n ≤ ds.foldl (fun n c => n * 10 + digitValue c) n := by
  induction ds generalizing n with
  | nil => exact le_rfl
  | cons d ds ih => exact (by omega : n ≤ n * 10 + digitValue d).trans (ih _)

/-- Digits that fit are all collected. -/
theorem collect_eq {n : Nat} {ds : List Char}
    (fits : ds.foldl (fun n c => n * 10 + digitValue c) n < wordCount) :
    collect n ds = (ds.foldl (fun n c => n * 10 + digitValue c) n, 0) := by
  induction ds generalizing n with
  | nil => rfl
  | cons d ds ih =>
    have hnext : n * 10 + digitValue d < wordCount := (le_foldl _ ds).trans_lt fits
    rw [collect, if_pos hnext]
    exact ih fits

/-- The power of ten of a literal without its point. -/
def Literal.power (l : Literal) : Int :=
  match l.exponent with
  | none => 0
  | some (negative, ds) => if negative then -(value ds : Int) else value ds

theorem real?_eq {l : Literal} (fits : value (l.whole ++ l.fraction.getD []) < wordCount)
    (near : ∀ negative ds, l.exponent = some (negative, ds) → value ds < 2 ^ 31) :
    l.real? = assemble? l.negative (value (l.whole ++ l.fraction.getD []))
      (l.power - (l.fraction.getD []).length) := by
  have hsplit : value (l.whole ++ l.fraction.getD []) =
      (l.fraction.getD []).foldl (fun n c => n * 10 + digitValue c) (value l.whole) :=
    List.foldl_append ..
  have hwhole : collect 0 l.whole = (value l.whole, 0) := by
    refine collect_eq (lt_of_le_of_lt ?_ fits)
    rw [hsplit]
    exact le_foldl _ _
  have hfraction : collect (value l.whole) (l.fraction.getD []) =
      (value (l.whole ++ l.fraction.getD []), 0) := by
    rw [hsplit] at fits ⊢
    exact collect_eq fits
  unfold Literal.real? Literal.power
  rw [hwhole]
  dsimp only
  rw [hfraction]
  dsimp only
  cases hexponent : l.exponent with
  | none =>
    dsimp only
    congr 1
  | some e =>
    obtain ⟨negative, ds⟩ := e
    have hsmall : smallExponent? negative ds =
        some (if negative then -(value ds : Int) else value ds) := by
      unfold smallExponent?
      dsimp only
      rw [twoPow_eq, if_pos (near negative ds hexponent)]
    dsimp only
    rw [hsmall]
    dsimp only
    congr 1
    omega

/-! ## Integers and decimals -/

/-- Whether a text does not go on with a number. -/
def Stops (r : List Char) : Prop :=
  ∀ c ∈ r.head?, isDigit c = false ∧ c ≠ '.' ∧ c ≠ 'e' ∧ c ≠ 'E'

/-- What a decimal is read as. -/
def realDocument (negative : Bool) (m : Magnitude) : Document :=
  ((assemble? negative m.coefficient m.exponent).map fun x => .scalar (.real x)).getD .broken

theorem number?_natural {n : Nat} (hn : n < wordCount) {r : List Char} (hr : Stops r) :
    number? (digits n ++ r) = some (.scalar (.integer n), r) := by
  have hliteral : literal? (prefixed false (digits n ++ r)) = some (⟨false, digits n, none, none⟩, r) :=
    literal?_prefixed false (wholeDigits_digits n) (fun c hc => (hr c hc).1)
      (takeFraction?_none fun c hc => (hr c hc).2.1)
      (takeExponent?_none fun c hc => (hr c hc).2.2)
  have hvalue : Literal.value? ⟨false, digits n, none, none⟩ = some (.integer n) := by
    unfold Literal.value?
    dsimp only
    rw [value_digits, if_pos ⟨rfl, hn⟩]
  unfold number?
  rw [show digits n ++ r = prefixed false (digits n ++ r) from rfl, hliteral]
  show some ((Option.map Document.scalar (Literal.value? _)).getD .broken, r) = _
  rw [hvalue]
  rfl

/-- A literal that is not just a whole number. -/
theorem number?_real {negative : Bool} {text r : List Char} {l : Literal}
    (hliteral : literal? (prefixed negative (text ++ r)) = some (l, r))
    (hreal : l.fraction ≠ none ∨ l.exponent ≠ none) {m : Magnitude}
    (hvalue : l.real? = assemble? negative m.coefficient m.exponent) :
    number? (prefixed negative (text ++ r)) = some (realDocument negative m, r) := by
  have hreal' : l.value? = l.real?.map .real := by
    unfold Literal.value?
    split
    · rename_i hf he
      exact absurd hreal (not_or.mpr ⟨not_not.mpr hf, not_not.mpr he⟩)
    · rfl
  unfold number? realDocument
  rw [hliteral]
  show some ((Option.map Document.scalar l.value?).getD .broken, r) = _
  rw [hreal', hvalue, Option.map_map]
  rfl

theorem number?_pointed {negative : Bool} {m : Magnitude} (fits : m.written.coefficient < wordCount)
    {r : List Char} (hr : Stops r) :
    number? (prefixed negative (m.pointed ++ r)) = some (realDocument negative m.written, r) := by
  obtain ⟨whole, fraction, htext, hne, hwrites⟩ := pointedAs m
  have hpoint : ∀ c ∈ ('.' :: (fraction ++ r)).head?, isDigit c = false := by
    intro c hc
    cases hc
    decide
  have hliteral := literal?_prefixed negative hwrites.whole hpoint
    (takeFraction?_point hwrites.fraction hne fun c hc => (hr c hc).1)
    (takeExponent?_none fun c hc => (hr c hc).2.2)
  have hjoin : m.pointed ++ r = whole ++ '.' :: (fraction ++ r) := by
    rw [htext, List.append_assoc, List.cons_append]
  rw [← hjoin] at hliteral
  have hwritten := hwrites.written
  rw [hwritten] at fits ⊢
  refine number?_real hliteral (Or.inl (Option.some_ne_none _)) ?_
  exact real?_eq fits fun _ _ h => absurd h.symm (Option.some_ne_none _)

/-! ## Exponents -/

/-- The exponent of a decimal as it is written, with its sign. -/
def exponentText (m : Magnitude) : List Char :=
  (if decide (m.leading < 0) then '-' else '+') :: digits m.leading.natAbs

theorem takeExponent?_leading (m : Magnitude) {r : List Char}
    (hr : ∀ c ∈ r.head?, isDigit c = false) :
    takeExponent? ('e' :: (exponentText m ++ r)) =
      some (some (decide (m.leading < 0), digits m.leading.natAbs), r) :=
  takeExponent?_signed isDigit_digits (digits_ne_nil _) hr

/-- The digits behind the first one.  There is no point without any. -/
def placesText : List Char → List Char
  | [] => []
  | ds => '.' :: ds

def places? : List Char → Option (List Char)
  | [] => none
  | ds => some ds

theorem places?_getD (ds : List Char) : (places? ds).getD [] = ds := by
  cases ds <;> rfl

theorem scientific_eq {m : Magnitude} {d : Char} {ds : List Char}
    (hdigits : digits m.coefficient = d :: ds) :
    m.scientific = [d] ++ (placesText ds ++ 'e' :: exponentText m) := by
  unfold Magnitude.scientific exponentText Magnitude.leading
  rw [hdigits]
  cases ds <;> simp [placesText]

theorem head_places {ds r : List Char} :
    ∀ c ∈ (placesText ds ++ 'e' :: r).head?, isDigit c = false := by
  intro c hc
  cases ds <;> cases hc <;> decide

theorem takeFraction?_places {ds r : List Char} (hds : ∀ c ∈ ds, isDigit c = true) :
    takeFraction? (placesText ds ++ 'e' :: r) = some (places? ds, 'e' :: r) := by
  have he : ∀ c ∈ ('e' :: r).head?, isDigit c = false ∧ c ≠ '.' := by
    intro c hc
    cases hc
    decide
  cases ds with
  | nil => exact takeFraction?_none fun c hc => (he c hc).2
  | cons d ds => exact takeFraction?_point hds (List.cons_ne_nil _ _) fun c hc => (he c hc).1

theorem power_leading (m : Magnitude) (negative : Bool) (whole : List Char)
    (fraction : Option (List Char)) :
    Literal.power ⟨negative, whole, fraction,
      some (decide (m.leading < 0), digits m.leading.natAbs)⟩ = m.leading := by
  unfold Literal.power
  dsimp only
  rw [value_digits]
  by_cases hneg : m.leading < 0
  · rw [if_pos (decide_eq_true hneg)]
    omega
  · rw [if_neg (by rw [decide_eq_false hneg]; exact Bool.false_ne_true)]
    omega

theorem number?_scientific {negative : Bool} {m : Magnitude} (fits : m.coefficient < wordCount)
    (near : m.leading.natAbs < 2 ^ 31) {r : List Char} (hr : Stops r) :
    number? (prefixed negative (m.scientific ++ r)) = some (realDocument negative m, r) := by
  obtain ⟨d, ds, hdigits⟩ := List.exists_cons_of_ne_nil (digits_ne_nil m.coefficient)
  have hall : ∀ c ∈ d :: ds, isDigit c = true := hdigits ▸ isDigit_digits
  have hwhole : WholeDigits [d] := by
    refine ⟨fun c hc => ?_, List.cons_ne_nil _ _, fun ds h => (List.cons.inj h).2.symm⟩
    rw [List.mem_singleton.mp hc]
    exact hall d List.mem_cons_self
  have hliteral := literal?_prefixed negative hwhole head_places
    (takeFraction?_places fun c hc => hall c (List.mem_cons_of_mem _ hc))
    (takeExponent?_leading m fun c hc => (hr c hc).1)
  have hjoin : m.scientific ++ r = [d] ++ (placesText ds ++ 'e' :: (exponentText m ++ r)) := by
    rw [scientific_eq hdigits, List.append_assoc, List.append_assoc]
    rfl
  rw [← hjoin] at hliteral
  have hvalue : value ([d] ++ (places? ds).getD []) = m.coefficient := by
    rw [places?_getD, List.singleton_append, ← hdigits, value_digits]
  have hlength : m.leading - ((places? ds).getD []).length = m.exponent := by
    rw [places?_getD, Magnitude.leading, hdigits, List.length_cons]
    omega
  refine number?_real hliteral (Or.inr (Option.some_ne_none _)) ?_
  rw [real?_eq (by rwa [hvalue]) fun _ _ h => ?_, power_leading, hvalue, hlength]
  cases h
  rwa [value_digits]

/-! ## Numbers -/

/-- A decimal by the digits of its text. -/
def decimalOf (m : Magnitude) : Magnitude :=
  if -5 ≤ m.leading ∧ m.leading ≤ 15 then m.written else m

theorem value_decimalOf (m : Magnitude) : (decimalOf m).value = m.value := by
  unfold decimalOf
  split
  · exact m.value_written
  · rfl

section Decimal

variable {m : Magnitude} (hc : m.coefficient ≤ 10 ^ 17)
include hc

/-- Also with a zero behind the point there are at most seventeen digits. -/
theorem coefficient_decimalOf_le : (decimalOf m).coefficient ≤ 10 ^ 17 := by
  unfold decimalOf Magnitude.written
  split
  · rename_i hleading
    split
    · rename_i he
      have hlt := lt_pow_digits_length m.coefficient
      unfold Magnitude.leading at hleading
      obtain ⟨e, he'⟩ := Int.eq_ofNat_of_zero_le he
      have hexponent : m.exponent.toNat + (digits m.coefficient).length ≤ 16 := by omega
      calc m.coefficient * 10 ^ m.exponent.toNat * 10
          ≤ 10 ^ (digits m.coefficient).length * 10 ^ m.exponent.toNat * 10 :=
            Nat.mul_le_mul_right _ (Nat.mul_le_mul_right _ hlt.le)
        _ = 10 ^ (m.exponent.toNat + (digits m.coefficient).length + 1) := by ring
        _ ≤ 10 ^ 17 := Nat.pow_le_pow_right (by decide) (by omega)
    · exact hc
  · exact hc

theorem number?_numberForm {negative : Bool} (low : -324 ≤ m.exponent) (high : m.exponent ≤ 308)
    {r : List Char} (hr : Stops r) :
    number? (prefixed negative (numberForm.finite m ++ r)) =
      some (realDocument negative (decimalOf m), r) := by
  have hword : 10 ^ 17 < wordCount := by decide
  have hdecimal := coefficient_decimalOf_le hc
  unfold numberForm decimalOf at *
  dsimp only
  split
  · rename_i hleading
    rw [if_pos hleading] at hdecimal
    exact number?_pointed (hdecimal.trans_lt hword) hr
  · refine number?_scientific (hc.trans_lt hword) ?_ hr
    have hdigits : (digits m.coefficient).length ≤ 18 := by
      by_contra hlong
      have hpos : 0 < m.coefficient := by
        by_contra hzero
        obtain h0 : m.coefficient = 0 := by omega
        rw [h0, digits_of_lt (by decide), List.length_singleton] at hlong
        omega
      have hlow := pow_digits_length_le hpos
      have hpow : 10 ^ 18 ≤ 10 ^ ((digits m.coefficient).length - 1) :=
        Nat.pow_le_pow_right (by decide) (by omega)
      omega
    unfold Magnitude.leading
    omega

end Decimal

/-- The decimal that is written for a pattern. -/
def decimal (n : Nat) : Magnitude := decimalOf (shortest .even (binary false n))

/-- Whether the text of a pattern is read as the pattern `k`, and how far that is from it. -/
structure Rereads (n k : Nat) : Prop where
  reads : scale? (nearest (decimal n).coefficient 1) (decimal n).exponent = some (number false k)
  finite : k < infinity
  above : k ≤ n + 2
  below : n ≤ k + 2
  zero : k = 0 ↔ n = 0
  exact : (decimal n).coefficient ≤ 2 ^ 53 → (decimal n).exponent.natAbs ≤ 22 → k = n

theorem rereads_self {n : Nat} (finite : n < infinity)
    (h : scale? (nearest (decimal n).coefficient 1) (decimal n).exponent = some (number false n)) :
    Rereads n n :=
  ⟨h, finite, Nat.le_add_right _ _, Nat.le_add_right _ _, Iff.rfl, fun _ _ => rfl⟩

theorem rereads_zero : Rereads 0 0 := by
  have hdecimal : decimal 0 = ⟨0, -1⟩ := by decide +kernel
  refine rereads_self (by decide) ?_
  rw [hdecimal]
  refine (scale?_down (e := 1) (by decide) (by decide)).trans ?_
  exact congrArg some (eq_of_toBits (by decide +kernel))

/-- The least positive numbers are divided twice. -/
theorem rereads_least {n : Nat} (hn : n = 1 ∨ n = 2) : Rereads n n := by
  have hfar : ∀ s e, (nearest s 1 == 0.0) = false → 0 < e → e ≤ 308 →
      scale? (nearest s 1) (-((308 + e : Nat) : Int)) =
        some (nearest s 1 / powerOfTen 308 / powerOfTen e) :=
    fun s e hs hpos he => (scale?_far hs hpos).trans (scale?_down hpos he)
  rcases hn with rfl | rfl
  · have hdecimal : decimal 1 = ⟨5, -324⟩ := by decide +kernel
    refine rereads_self (by decide) ?_
    rw [hdecimal]
    refine (hfar 5 16 (by decide +kernel) (by decide) (by decide)).trans ?_
    exact congrArg some (eq_of_toBits (by decide +kernel))
  · have hdecimal : decimal 2 = ⟨1, -323⟩ := by decide +kernel
    refine rereads_self (by decide) ?_
    rw [hdecimal]
    refine (hfar 1 15 (by decide +kernel) (by decide) (by decide)).trans ?_
    exact congrArg some (eq_of_toBits (by decide +kernel))

/-- The largest finite numbers do not become infinite. -/
theorem rereads_last {n : Nat} (hn : n = infinity - 1 ∨ n = infinity - 2) :
    Rereads n (infinity - 1) := by
  have hup : ∀ s, (nearest s 1 * powerOfTen 292).isInf = false →
      scale? (nearest s 1) ((292 : Nat) : Int) = some (nearest s 1 * powerOfTen 292) :=
    fun s hs => scale?_up (by decide) hs
  rcases hn with rfl | rfl
  · have hdecimal : decimal (infinity - 1) = ⟨17976931348623157, 292⟩ := by decide +kernel
    refine rereads_self (by decide) ?_
    rw [hdecimal]
    refine (hup _ (by decide +kernel)).trans ?_
    exact congrArg some (eq_of_toBits (by decide +kernel))
  · have hdecimal : decimal (infinity - 2) = ⟨17976931348623155, 292⟩ := by decide +kernel
    refine ⟨?_, by decide, by decide, by decide, by decide, ?_⟩
    · rw [hdecimal]
      refine (hup _ (by decide +kernel)).trans ?_
      exact congrArg some (eq_of_toBits (by decide +kernel))
    · rw [hdecimal]
      intro hshort
      exact absurd hshort (by decide)

theorem exponent_decimal_ge {n : Nat} (hn : 0 < n) : -330 ≤ (decimal n).exponent := by
  have hexponent := (shortest_length false hn .even).2
  unfold decimal decimalOf Magnitude.written
  generalize shortest _ _ = m at *
  split
  · split
    · exact (by decide : (-330 : Int) ≤ -1)
    · omega
  · omega

theorem exists_rereads_inside {n : Nat} (low : 2 < n) (high : n + 2 < infinity) :
    ∃ k, Rereads n k := by
  have hn : 0 < n := by omega
  have hrounds := (shortest_roundsTo false hn .even).congr (value_decimalOf _)
  have hcoefficient := (shortest_length false hn .even).1
  obtain ⟨k, hk⟩ := exists_readAs (Magnitude.coefficient_pos hn hrounds)
    (coefficient_decimalOf_le hcoefficient) (exponent_decimal_ge hn)
    (Magnitude.exponent_le hn (by omega) hrounds) hrounds high
  have hzero : k = 0 ↔ n = 0 := by
    have hbelow := hk.below
    omega
  exact ⟨k, hk.reads, hk.finite, hk.above, hk.below, hzero, hk.exact⟩

theorem exists_rereads {n : Nat} (finite : n < infinity) : ∃ k, Rereads n k := by
  by_cases hzero : n = 0
  · exact ⟨0, hzero ▸ rereads_zero⟩
  by_cases hleast : n = 1 ∨ n = 2
  · exact ⟨n, rereads_least hleast⟩
  by_cases hlast : n = infinity - 1 ∨ n = infinity - 2
  · exact ⟨_, rereads_last hlast⟩
  · exact exists_rereads_inside (by omega) (by omega)

/-- Whether the text of a number is short: its digits make a whole number of at most 53
binary digits, and its power of ten is one that is a number itself. -/
def isShort (x : Float) : Bool :=
  match Binary.ofFloat? x with
  | some b =>
    let m := decimalOf (shortest .even b)
    m.coefficient ≤ 2 ^ 53 && m.exponent.natAbs ≤ 22
  | none => false

/-- Whether a number is at most two units in the last place away from another one, and the
same number if that has a short text. -/
structure Nearby (x y : Float) : Prop where
  sign : Binary.signBit y = Binary.signBit x
  above : y.toBits.toNat ≤ x.toBits.toNat + 2
  below : x.toBits.toNat ≤ y.toBits.toNat + 2
  exact : isShort x = true → y = x

theorem nearby_of_rereads {negative : Bool} {n k : Nat} (finite : n < infinity)
    (h : Rereads n k) : Nearby (number negative n) (number negative k) := by
  have hx := toNat_toBits_number negative finite
  have hy := toNat_toBits_number negative h.finite
  have habove := h.above
  have hbelow := h.below
  refine ⟨by rw [signBit_number _ finite, signBit_number _ h.finite], by omega, by omega, ?_⟩
  intro hshort
  unfold isShort at hshort
  rw [ofFloat?_number finite] at hshort
  have hdecimal : decimalOf (shortest .even (binary negative n)) = decimal n := by
    unfold decimal
    rw [shortest_sign]
  have hboth : decide ((decimal n).coefficient ≤ 2 ^ 53) = true ∧
      decide ((decimal n).exponent.natAbs ≤ 22) = true := by
    rw [← hdecimal]
    exact Bool.and_eq_true_iff.mp hshort
  rw [h.exact (of_decide_eq_true hboth.1) (of_decide_eq_true hboth.2)]

end Json
end AdaptiveBatch
