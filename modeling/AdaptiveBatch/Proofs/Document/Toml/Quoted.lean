import AdaptiveBatch.Document.Toml.Quoted
import AdaptiveBatch.Proofs.Text.Hex

/-!
# Quoted text in TOML, read again

Between whatever quotes a text is written, the reader finds the text and stops behind
them.  Between basic quotes that is so for each character, since those that may not
stand there are escaped.  Quotes at the end of a text of many lines run into those
that close it, and are told from them by their number.
-/

namespace AdaptiveBatch
namespace Toml

/-! ## Escapes -/

theorem isControl_lt {c : Char} (hc : isControl c = true) : c.toNat < 128 := by
  simp only [isControl, Bool.or_eq_true, Bool.and_eq_true, decide_eq_true_eq] at hc
  rcases hc with ⟨hc, -⟩ | rfl
  · have : c.toNat < 32 := hc
    omega
  · decide

theorem charOf?_toNat (c : Char) : charOf? c.toNat = some c := by
  unfold charOf?
  rw [if_pos (show c.toNat.isValidChar from c.valid), Char.ofNat_toNat]

theorem escape?_hex4 {c : Char} (hc : c.toNat < 65536) (r : List Char) :
    escape? 'u' (Text.hex4 Text.upperHex c.toNat ++ r) = some c := by
  have hcount : hexCount 'u' = 4 := rfl
  unfold escape?
  rw [hcount, if_neg (by decide), Text.takeHex?_hex4 Text.hexDigit?_upperHex hc]
  exact charOf?_toNat c

/-- What may stand for a character between basic quotes: an escape, or the character
itself. -/
inductive Stands (c : Char) : List Char → Prop
  | escape {e : Char} {d : List Char} (visible : isSpace e = false ∧ e ≠ '\n' ∧ e ≠ '\x0d')
    (reads : ∀ r, escape? e (d ++ r) = some c ∧ (d ++ r).drop (hexCount e) = r) :
    Stands c ('\\' :: e :: d)
  | plain (printable : isControl c = false) (other : c ≠ '\\') (unquoted : c ≠ '"') : Stands c [c]

theorem stands_short {e c : Char} (visible : isSpace e = false ∧ e ≠ '\n' ∧ e ≠ '\x0d')
    (short : hexCount e = 0) (reads : escaped? e = some c) : Stands c ['\\', e] := by
  refine .escape visible fun r => ⟨?_, ?_⟩
  · rw [escape?, if_pos short, reads]
  · rw [short]
    rfl

theorem stands_escapeControl {c : Char} (hc : c ≠ '"') : Stands c (escapeControl c) := by
  have hshort : ∀ e, shortEscape? c = some e → Stands c ['\\', e] := by
    intro e he
    unfold shortEscape? at he
    split at he <;> cases he <;> exact stands_short (by decide) rfl rfl
  unfold escapeControl
  split
  · exact hshort _ ‹_›
  · rename_i hnone
    split
    · rename_i hcontrol
      have hlt := isControl_lt hcontrol
      exact .escape (by decide) fun r => ⟨escape?_hex4 (by omega) r, rfl⟩
    · rename_i hcontrol
      refine .plain (Bool.eq_false_iff.mpr hcontrol) ?_ hc
      rintro rfl
      cases hnone

theorem stands_escape (c : Char) : Stands c (escape c) := by
  unfold escape
  split
  · rename_i hc
    rw [hc]
    exact stands_short (by decide) rfl rfl
  · split
    · rename_i hc
      rw [hc]
      exact stands_short (by decide) rfl rfl
    · exact stands_escapeControl ‹_›

/-! ## One line -/

theorem basic?_of_stands {c : Char} {t : List Char} (h : Stands c t) {cs r r' : List Char}
    (hrest : basic? r = some (cs, r')) : basic? (t ++ r) = some (c :: cs, r') := by
  cases h with
  | escape visible reads =>
    rename_i e d
    rw [List.cons_append, List.cons_append, basic?, (reads r).1, (reads r).2, hrest]
    rfl
  | plain printable other unquoted =>
    have hneither : ¬ (isControl c = true ∨ c = '\\') := by
      rw [printable]
      exact not_or.mpr ⟨Bool.false_ne_true, other⟩
    rw [List.singleton_append, basic?, if_neg hneither, hrest]
    · rfl
    · exact unquoted
    · exact fun e r' h _ => other h

theorem basic?_escape (cs r : List Char) :
    basic? (cs.flatMap escape ++ '"' :: r) = some (cs, r) := by
  induction cs with
  | nil => rw [List.flatMap_nil, List.nil_append, basic?]
  | cons c cs ih =>
    rw [List.flatMap_cons, List.append_assoc]
    exact basic?_of_stands (stands_escape c) ih

theorem literal?_of_plain {cs : List Char} (quotes : '\'' ∉ cs)
    (controls : ∀ c ∈ cs, isControl c = false) (r : List Char) :
    literal? (cs ++ '\'' :: r) = some (cs, r) := by
  induction cs with
  | nil => rw [List.nil_append, literal?]
  | cons c cs ih =>
    have hrest := ih (fun h => quotes (List.mem_cons_of_mem _ h))
      fun d hd => controls d (List.mem_cons_of_mem _ hd)
    have hc := controls c List.mem_cons_self
    rw [List.cons_append, literal?, if_neg (by rw [hc]; exact Bool.false_ne_true), hrest]
    · rfl
    · exact fun h => quotes (h ▸ List.mem_cons_self)

/-! ## Many lines -/

/-- Whether a text does not begin with a quote. -/
def NoQuote (q : Char) (r : List Char) : Prop := ∀ c ∈ r.head?, c ≠ q

/-- Quotes that belong to the text in front of the three that close it. -/
theorem closing_of_noQuote {q : Char} {r : List Char} (hr : NoQuote q r) {k : Nat} (hk : k ≤ 2) :
    closing q (List.replicate k q ++ r) = (List.replicate k q, r) := by
  obtain rfl | rfl | rfl : k = 0 ∨ k = 1 ∨ k = 2 := by omega
  · cases r with
    | nil => rfl
    | cons a r =>
      have ha : a ≠ q := hr a rfl
      cases r with
      | nil => simp [closing, ha]
      | cons b r => simp [closing, ha]
  · cases r with
    | nil => simp [closing]
    | cons a r =>
      have ha : a ≠ q := hr a rfl
      simp [closing, ha]
  · simp [closing]

section Multi

variable {r : List Char}

theorem multiBasic?_closing (hr : NoQuote '"' r) {k : Nat} (hk : k ≤ 2) :
    multiBasic? (List.replicate k '"' ++ '"' :: '"' :: '"' :: r) =
      some (List.replicate k '"', r) := by
  have hswap : List.replicate k '"' ++ '"' :: '"' :: '"' :: r =
      '"' :: '"' :: '"' :: (List.replicate k '"' ++ r) := by
    obtain rfl | rfl | rfl : k = 0 ∨ k = 1 ∨ k = 2 := by omega
    all_goals rfl
  rw [hswap, multiBasic?, closing_of_noQuote hr hk]

/-- What stands for a character other than a quote. -/
theorem multiBasic?_of_stands {c : Char} {t : List Char} (h : Stands c t) {cs r r' : List Char}
    (hrest : multiBasic? r = some (cs, r')) : multiBasic? (t ++ r) = some (c :: cs, r') := by
  cases h with
  | escape visible reads =>
    rename_i e d
    have hends : endsLine (e :: (d ++ r)) = false := by
      unfold endsLine skipSpace
      rw [List.dropWhile_cons_of_neg (by rw [visible.1]; exact Bool.false_ne_true)]
      split
      · rename_i heq
        exact absurd (List.cons.inj heq).1 visible.2.1
      · rename_i heq
        exact absurd (List.cons.inj heq).1 visible.2.2
      · rfl
    rw [List.cons_append, List.cons_append, multiBasic?, hends, if_neg Bool.false_ne_true,
      (reads r).1, (reads r).2, hrest]
    rfl
  | plain printable other unquoted =>
    have hneither : ¬ ((isControl c = true ∧ c ≠ '\n') ∨ c = '\\') := by
      rw [printable]
      exact not_or.mpr ⟨fun h => Bool.false_ne_true h.1, other⟩
    rw [List.singleton_append, multiBasic?, if_neg hneither, hrest]
    · rfl
    · exact fun r' h _ => unquoted h
    · exact fun e r' h _ => other h
    · intro r' h _
      rw [h] at printable
      exact absurd printable (by decide)

/-- A quote that does not begin the three that close the text. -/
theorem multiBasic?_quote {r r' cs : List Char} (open? : ∀ x, r ≠ '"' :: '"' :: x)
    (hrest : multiBasic? r = some (cs, r')) : multiBasic? ('"' :: r) = some ('"' :: cs, r') := by
  rw [multiBasic?, if_neg (by decide), hrest]
  · rfl
  · exact fun x _ h => open? x h
  · exact fun e x h _ => absurd h (by decide)
  · exact fun x h _ => absurd h (by decide)

theorem multiBasic?_lineEnd {r r' cs : List Char} (hrest : multiBasic? r = some (cs, r')) :
    multiBasic? ('\n' :: r) = some ('\n' :: cs, r') := by
  rw [multiBasic?, if_neg (by decide), hrest]
  · rfl
  · exact fun x h _ => absurd h (by decide)
  · exact fun e x h _ => absurd h (by decide)
  · exact fun x h _ => absurd h (by decide)

theorem escapeMulti_other {c : Char} (hc : c ≠ '"') (run : Nat) (cs : List Char) :
    ∃ t, escapeMulti run (c :: cs) = t ++ escapeMulti 0 cs ∧ (c = '\n' ∧ t = ['\n'] ∨ Stands c t) := by
  rw [escapeMulti, if_neg hc]
  by_cases hn : c = '\n'
  · rw [if_pos hn]
    exact ⟨['\n'], rfl, Or.inl ⟨hn, rfl⟩⟩
  · rw [if_neg hn]
    exact ⟨escapeControl c, rfl, Or.inr (stands_escapeControl hc)⟩

theorem escapeMulti_noQuote {c : Char} (hc : c ≠ '"') (run : Nat) (cs r : List Char) (x : List Char) :
    escapeMulti run (c :: cs) ++ r ≠ '"' :: x := by
  obtain ⟨t, ht, hc'⟩ := escapeMulti_other hc run cs
  rw [ht]
  rcases hc' with ⟨-, rfl⟩ | hstands
  · exact fun h => absurd (List.cons.inj h).1 (by decide)
  · cases hstands with
    | escape => exact fun h => absurd (List.cons.inj h).1 (by decide)
    | plain => exact fun h => hc (List.cons.inj h).1

theorem multiBasic?_escapeMulti_other {c : Char} (hc : c ≠ '"') (run : Nat) {cs r r' : List Char}
    (hrest : multiBasic? (escapeMulti 0 cs ++ r) = some (cs, r')) :
    multiBasic? (escapeMulti run (c :: cs) ++ r) = some (c :: cs, r') := by
  obtain ⟨t, ht, hc'⟩ := escapeMulti_other hc run cs
  rw [ht, List.append_assoc]
  rcases hc' with ⟨rfl, rfl⟩ | hstands
  · exact multiBasic?_lineEnd hrest
  · exact multiBasic?_of_stands hstands hrest

/-- A text of many lines.  The cases are how many quotes it begins with: up to two stand
as they are or belong to the end, and a third one is escaped. -/
theorem multiBasic?_escapeMulti (hr : NoQuote '"' r) : ∀ cs : List Char,
    multiBasic? (escapeMulti 0 cs ++ '"' :: '"' :: '"' :: r) = some (cs, r)
  | [] => multiBasic?_closing hr (k := 0) (by decide)
  | c :: cs => by
    by_cases hc : c = '"'
    · subst hc
      have hone : ∀ cs, escapeMulti 0 ('"' :: cs) = '"' :: escapeMulti 1 cs := fun cs => rfl
      have htwo : ∀ cs, escapeMulti 1 ('"' :: cs) = '"' :: escapeMulti 2 cs := fun cs => rfl
      have hthree : ∀ cs, escapeMulti 2 ('"' :: cs) = '\\' :: '"' :: escapeMulti 0 cs := fun cs => rfl
      match cs with
      | [] => exact multiBasic?_closing hr (k := 1) (by decide)
      | d :: cs =>
        by_cases hd : d = '"'
        · subst hd
          match cs with
          | [] => exact multiBasic?_closing hr (k := 2) (by decide)
          | e :: cs =>
            have hrest := multiBasic?_escapeMulti hr cs
            rw [hone, htwo]
            by_cases he : e = '"'
            · subst he
              rw [hthree]
              refine multiBasic?_quote ?_ (multiBasic?_quote ?_
                (multiBasic?_of_stands (stands_short (by decide) rfl rfl) hrest))
              · exact fun x h => absurd (List.cons.inj (List.cons.inj h).2).1 (by decide)
              · exact fun x h => absurd (List.cons.inj h).1 (by decide)
            · refine multiBasic?_quote ?_ (multiBasic?_quote ?_
                (multiBasic?_escapeMulti_other he 2 hrest))
              · exact fun x h => escapeMulti_noQuote he 2 cs _ x (List.cons.inj h).2
              · exact fun x h => escapeMulti_noQuote he 2 cs _ _ h
        · have hrest := multiBasic?_escapeMulti hr cs
          rw [hone]
          refine multiBasic?_quote ?_ (multiBasic?_escapeMulti_other hd 1 hrest)
          exact fun x h => escapeMulti_noQuote hd 1 cs _ _ h
    · exact multiBasic?_escapeMulti_other hc 0 (multiBasic?_escapeMulti hr cs)
  termination_by cs => cs.length

/-! ### Without escapes -/

theorem multiLiteral?_closing (hr : NoQuote '\'' r) {k : Nat} (hk : k ≤ 2) :
    multiLiteral? (List.replicate k '\'' ++ '\'' :: '\'' :: '\'' :: r) =
      some (List.replicate k '\'', r) := by
  have hswap : List.replicate k '\'' ++ '\'' :: '\'' :: '\'' :: r =
      '\'' :: '\'' :: '\'' :: (List.replicate k '\'' ++ r) := by
    obtain rfl | rfl | rfl : k = 0 ∨ k = 1 ∨ k = 2 := by omega
    all_goals rfl
  rw [hswap, multiLiteral?, closing_of_noQuote hr hk]

theorem multiLiteral?_char {c : Char} {cs r r' : List Char}
    (open? : ∀ x, c :: r ≠ '\'' :: '\'' :: '\'' :: x) (plain : isControl c = false ∨ c = '\n')
    (hrest : multiLiteral? r = some (cs, r')) : multiLiteral? (c :: r) = some (c :: cs, r') := by
  have hneither : ¬ (isControl c = true ∧ c ≠ '\n') := by
    rcases plain with h | h
    · exact fun hc => Bool.false_ne_true (h ▸ hc.1)
    · exact fun hc => hc.2 h
  rw [multiLiteral?, if_neg hneither, hrest]
  · rfl
  · intro x hc hx
    exact open? x (by rw [hc, hx])
  · intro x hc _
    rw [hc] at plain
    rcases plain with h | h
    · exact absurd h (by decide)
    · exact absurd h (by decide)

end Multi

section Runs

variable {q : Char}

/-- How the search for the longest run goes on after a character. -/
def runStep (q : Char) (s : Nat × Nat) (c : Char) : Nat × Nat :=
  if c = q then (max s.1 (s.2 + 1), s.2 + 1) else (s.1, 0)

theorem longestRun_eq (cs : List Char) : longestRun q cs = (cs.foldl (runStep q) (0, 0)).1 := rfl

theorem foldl_runStep_mono {s t : Nat × Nat} (hbest : s.1 ≤ t.1) (hrun : s.2 ≤ t.2)
    (cs : List Char) : (cs.foldl (runStep q) s).1 ≤ (cs.foldl (runStep q) t).1 := by
  induction cs generalizing s t with
  | nil => exact hbest
  | cons c cs ih =>
    rw [List.foldl_cons, List.foldl_cons]
    unfold runStep
    split
    · exact ih (by dsimp only; omega) (by dsimp only; omega)
    · exact ih hbest (Nat.le_refl _)

theorem le_foldl_runStep (s : Nat × Nat) (cs : List Char) : s.1 ≤ (cs.foldl (runStep q) s).1 := by
  induction cs generalizing s with
  | nil => exact Nat.le_refl _
  | cons c cs ih =>
    refine Nat.le_trans ?_ (ih (runStep q s c))
    unfold runStep
    split
    · exact Nat.le_max_left _ _
    · exact Nat.le_refl _

theorem longestRun_tail (c : Char) (cs : List Char) : longestRun q cs ≤ longestRun q (c :: cs) :=
  foldl_runStep_mono (Nat.zero_le _) (Nat.zero_le _) cs

theorem three_le_longestRun (cs : List Char) : 3 ≤ longestRun q (q :: q :: q :: cs) := by
  have hle := le_foldl_runStep (q := q) (3, 3) cs
  have hstart : longestRun q (q :: q :: q :: cs) = (cs.foldl (runStep q) (3, 3)).1 := by
    simp [longestRun_eq, runStep]
  rw [hstart]
  exact hle

theorem longestRun_pos {cs : List Char} (h : q ∈ cs) : 0 < longestRun q cs := by
  induction cs with
  | nil => cases h
  | cons c cs ih =>
    rcases List.mem_cons.mp h with rfl | h
    · have hle := le_foldl_runStep (q := q) (1, 1) cs
      have hstart : longestRun q (q :: cs) = (cs.foldl (runStep q) (1, 1)).1 := by
        simp [longestRun_eq, runStep]
      rw [hstart]
      exact hle
    · exact Nat.lt_of_lt_of_le (ih h) (longestRun_tail c cs)

end Runs

/-- A text of many lines without a run of quotes that would close it. -/
theorem multiLiteral?_plain {r : List Char} (hr : NoQuote '\'' r) : ∀ cs : List Char,
    longestRun '\'' cs ≤ 2 → (∀ c ∈ cs, isControl c = false ∨ c = '\n') →
      multiLiteral? (cs ++ '\'' :: '\'' :: '\'' :: r) = some (cs, r)
  | [], _, _ => multiLiteral?_closing hr (k := 0) (by decide)
  | c :: cs, hruns, hplain => by
    have hrest := multiLiteral?_plain hr cs (Nat.le_trans (longestRun_tail c cs) hruns)
      fun d hd => hplain d (List.mem_cons_of_mem _ hd)
    have hchar := hplain c List.mem_cons_self
    by_cases hc : c = '\''
    · subst hc
      match cs with
      | [] => exact multiLiteral?_closing hr (k := 1) (by decide)
      | d :: cs =>
        by_cases hd : d = '\''
        · subst hd
          match cs with
          | [] => exact multiLiteral?_closing hr (k := 2) (by decide)
          | e :: cs =>
            refine multiLiteral?_char (fun x h => ?_) hchar hrest
            have he := (List.cons.inj (List.cons.inj (List.cons.inj h).2).2).1
            have hthree := three_le_longestRun (q := '\'') cs
            rw [he] at hruns
            omega
        · exact multiLiteral?_char (fun x h => hd (List.cons.inj (List.cons.inj h).2).1) hchar hrest
    · exact multiLiteral?_char (fun x h => hc (List.cons.inj h).1) hchar hrest

/-! ## All kinds of quotes -/

theorem skipLineEnd_of_other {cs : List Char} (hn : ∀ r, cs ≠ '\n' :: r)
    (hr : ∀ r, cs ≠ '\x0d' :: r) : skipLineEnd cs = cs := by
  unfold skipLineEnd
  split
  · exact absurd rfl (hn _)
  · exact absurd rfl (hr _)
  · rfl

theorem Contents.of_literal {t : Contents} (h : t.quotes = .literal) :
    t.controls = false ∧ t.singleRun = 0 ∧ t.lineEnds = false := by
  unfold Contents.quotes at h
  split at h
  · cases h
  · split at h
    · rename_i hwhich
      simpa using hwhich
    · split at h
      · cases h
      · split at h
        · cases h
        · split at h <;> cases h

theorem Contents.of_multiLiteral {t : Contents} (h : t.quotes = .multiLiteral) :
    t.controls = false ∧ t.singleRun ≤ 2 := by
  unfold Contents.quotes at h
  split at h
  · cases h
  · split at h
    · cases h
    · split at h
      · cases h
      · split at h
        · rename_i hwhich
          simpa using hwhich
        · split at h <;> cases h

theorem isControl_of_controls {cs : List Char} (h : (Contents.of cs).controls = false) {c : Char}
    (hc : c ∈ cs) : isControl c = false ∨ c = '\n' := by
  have hnone := List.any_eq_false.mp h c hc
  by_cases hn : c = '\n'
  · exact Or.inr hn
  · left
    simpa [hn] using hnone

theorem not_mem_of_lineEnds {cs : List Char} (h : (Contents.of cs).lineEnds = false) :
    '\n' ∉ cs := by
  simpa [Contents.of] using h

/-- Behind the opening quotes of many lines stands a line end if the text has any, and
else nothing that would be taken for one. -/
theorem skipLineEnd_start {lineEnds : Bool} {cs : List Char}
    (hn : lineEnds = false → ∀ r, cs ≠ '\n' :: r) (hr : ∀ r, cs ≠ '\x0d' :: r) :
    skipLineEnd ((if lineEnds then ['\n'] else []) ++ cs) = cs := by
  cases lineEnds with
  | true => rfl
  | false => exact skipLineEnd_of_other (hn rfl) hr

theorem escapeMulti_head {cs r x : List Char} {c : Char} (hc : c = '\n' ∨ c = '\x0d')
    (h : escapeMulti 0 cs ++ '"' :: r = c :: x) : c = '\n' ∧ '\n' ∈ cs := by
  cases cs with
  | nil =>
    have hquote := (List.cons.inj h).1
    rw [← hquote] at hc
    exact absurd hc (by decide)
  | cons d cs =>
    by_cases hd : d = '"'
    · subst hd
      have hquote : '"' = c := (List.cons.inj h).1
      rw [← hquote] at hc
      exact absurd hc (by decide)
    · obtain ⟨t, ht, hstands⟩ := escapeMulti_other hd 0 cs
      rw [ht] at h
      rcases hstands with ⟨rfl, rfl⟩ | hstands
      · exact ⟨(List.cons.inj h).1.symm, List.mem_cons_self⟩
      · cases hstands with
        | escape =>
          have hslash := (List.cons.inj h).1
          rw [← hslash] at hc
          exact absurd hc (by decide)
        | plain printable =>
          have hself := (List.cons.inj h).1
          rw [hself] at printable
          rcases hc with rfl | rfl <;> exact absurd printable (by decide)

theorem quoted?_basic {cs : List Char} (single : ∀ x, cs ≠ '"' :: '"' :: x) :
    quoted? ('"' :: cs) = basic? cs := by
  rw [quoted?]
  exact fun x h => single x h

theorem quoted?_literal {cs : List Char} (single : ∀ x, cs ≠ '\'' :: '\'' :: x) :
    quoted? ('\'' :: cs) = literal? cs := by
  rw [quoted?]
  exact fun x h => single x h

theorem noQuote_cons {q c : Char} {r : List Char} (hr : NoQuote q (c :: r)) : c ≠ q := hr c rfl

theorem escape_append_ne {cs r : List Char} (hr : NoQuote '"' r) (x : List Char) :
    cs.flatMap escape ++ '"' :: r ≠ '"' :: '"' :: x := by
  cases cs with
  | nil =>
    intro h
    have hhead := (List.cons.inj h).2
    rw [hhead] at hr
    exact noQuote_cons hr rfl
  | cons c cs =>
    intro h
    rw [List.flatMap_cons, List.append_assoc] at h
    generalize List.flatMap escape cs ++ '"' :: r = rest at h
    have hstands := stands_escape c
    cases hstands' : escape c with
    | nil => rw [hstands'] at hstands; cases hstands
    | cons d t =>
      rw [hstands'] at h hstands
      have hd := (List.cons.inj h).1
      rw [hd] at hstands
      cases hstands with
      | plain _ _ unquoted => exact unquoted rfl

theorem literal_append_ne {cs r : List Char} (hnone : '\'' ∉ cs) (hr : NoQuote '\'' r)
    (x : List Char) : cs ++ '\'' :: r ≠ '\'' :: '\'' :: x := by
  intro h
  cases cs with
  | nil =>
    have hhead : r = '\'' :: x := (List.cons.inj h).2
    rw [hhead] at hr
    exact noQuote_cons hr rfl
  | cons c cs =>
    have hhead : c = '\'' := (List.cons.inj h).1
    exact hnone (hhead ▸ List.mem_cons_self)

/-- What a text begins with that is followed by something else is one of its characters. -/
theorem mem_of_head {q c : Char} {cs r x : List Char} (other : q ≠ c)
    (h : cs ++ q :: r = c :: x) : c ∈ cs := by
  cases cs with
  | nil => exact absurd (List.cons.inj h).1 other
  | cons d cs => exact (List.cons.inj h).1 ▸ List.mem_cons_self

/-- Whatever quotes a text is written between, it is read as it was. -/
theorem quoted?_quote (s : String) {r : List Char} (hdouble : NoQuote '"' r)
    (hsingle : NoQuote '\'' r) : quoted? (quote s ++ r) = some (s.toList, r) := by
  unfold quote
  generalize s.toList = cs
  dsimp only
  cases hquotes : (Contents.of cs).quotes with
  | basic =>
    dsimp only
    rw [List.append_assoc, List.append_assoc]
    exact (quoted?_basic (escape_append_ne hdouble)).trans (basic?_escape cs r)
  | literal =>
    obtain ⟨hcontrols, hrun, hends⟩ := Contents.of_literal hquotes
    have hnone : '\'' ∉ cs := fun h => absurd (longestRun_pos h) (by
      rw [show longestRun '\'' cs = 0 from hrun]
      exact Nat.lt_irrefl 0)
    have hplain : ∀ c ∈ cs, isControl c = false := fun c hc =>
      (isControl_of_controls hcontrols hc).resolve_right fun h =>
        not_mem_of_lineEnds hends (h ▸ hc)
    dsimp only
    rw [List.append_assoc, List.append_assoc]
    exact (quoted?_literal (literal_append_ne hnone hsingle)).trans
      (literal?_of_plain hnone hplain r)
  | multiBasic =>
    dsimp only
    rw [List.append_assoc, List.append_assoc, List.append_assoc]
    show multiBasic? (skipLineEnd ((if (Contents.of cs).lineEnds then ['\n'] else []) ++
      (escapeMulti 0 cs ++ '"' :: '"' :: '"' :: r))) = _
    rw [skipLineEnd_start, multiBasic?_escapeMulti hdouble]
    · exact fun hends x h => not_mem_of_lineEnds hends (escapeMulti_head (Or.inl rfl) h).2
    · exact fun x h => absurd (escapeMulti_head (Or.inr rfl) h).1 (by decide)
  | multiLiteral =>
    obtain ⟨hcontrols, hrun⟩ := Contents.of_multiLiteral hquotes
    have hplain : ∀ c ∈ cs, isControl c = false ∨ c = '\n' := fun c hc =>
      isControl_of_controls hcontrols hc
    dsimp only
    rw [List.append_assoc, List.append_assoc, List.append_assoc]
    show multiLiteral? (skipLineEnd ((if (Contents.of cs).lineEnds then ['\n'] else []) ++
      (cs ++ '\'' :: '\'' :: '\'' :: r))) = _
    rw [skipLineEnd_start, multiLiteral?_plain hsingle cs hrun hplain]
    · exact fun hends x h => not_mem_of_lineEnds hends (mem_of_head (by decide) h)
    · exact fun x h => absurd (hplain '\x0d' (mem_of_head (by decide) h)) (by decide)

end Toml
end AdaptiveBatch
