import AdaptiveBatch.Document.Toml.Reader
import AdaptiveBatch.Document.Toml.Writer
import AdaptiveBatch.Proofs.Document.Toml.Quoted
import AdaptiveBatch.Proofs.Document.Toml.Scalar

/-!
# An outline in TOML, read again

Each entry and each header of an outline is one line, and the lines put together give
the outline, without what is null.
-/

namespace AdaptiveBatch
namespace Toml

/-! ## Scalars -/

/-- A scalar that a text can give back. -/
def Readable : Scalar → Prop
  | .integer i => 0 ≤ i ∧ i < 2 ^ 64
  | .real x => x.isFinite = true
  | _ => True

theorem ne_of_test {p : Char → Bool} {c d : Char} (hc : p c = true) (hd : p d = false) : c ≠ d := by
  rintro rfl
  rw [hc] at hd
  cases hd

theorem noQuote_lineEnd (q : Char) (hq : '\n' ≠ q) (r : List Char) : NoQuote q ('\n' :: r) := by
  intro c hc
  rw [← Option.some.inj hc]
  exact hq

theorem scalar?_quote (s : String) (r : List Char) :
    scalar? (quote s ++ '\n' :: r) = some (.scalar (.text s), '\n' :: r) := by
  have hread := quoted?_quote s (noQuote_lineEnd '"' (by decide) r)
    (noQuote_lineEnd '\'' (by decide) r)
  have hhead : ∃ cs, quote s ++ '\n' :: r = '"' :: cs ∨ quote s ++ '\n' :: r = '\'' :: cs := by
    unfold quote
    dsimp only
    split
    · exact ⟨_, Or.inl rfl⟩
    · exact ⟨_, Or.inr rfl⟩
    · exact ⟨_, Or.inl rfl⟩
    · exact ⟨_, Or.inr rfl⟩
  obtain ⟨cs, hcs⟩ := hhead
  unfold scalar?
  rcases hcs with hcs | hcs
  all_goals
    rw [hcs] at hread ⊢
    simp only [hread, Option.map_some, String.ofList_toList]

theorem scalar?_scalarText {s : Scalar} (hs : Readable s) {t : List Char}
    (ht : scalarText? s = some t) (r : List Char) :
    scalar? (t ++ '\n' :: r) = some (.scalar s, '\n' :: r) := by
  cases s with
  | null => cases ht
  | bool b =>
    cases b
    all_goals
      obtain rfl := Option.some.inj ht
      rw [scalar?_of_chars (List.all_eq_true.mp (by decide))]
      rfl
  | integer i =>
    obtain ⟨n, rfl⟩ := Int.eq_ofNat_of_zero_le hs.1
    obtain rfl := Option.some.inj ht
    have htext : (Decimal.intText (n : Int)).toList = Decimal.digits n := by
      rw [Decimal.intText, if_neg (by omega), Decimal.natText, String.toList_ofList]
      rfl
    rw [htext]
    exact scalar?_natural (by have := hs.2; omega) r
  | real x =>
    obtain rfl := Option.some.inj ht
    exact scalar?_number hs r
  | text s =>
    obtain rfl := Option.some.inj ht
    exact scalar?_quote s r

/-- No scalar begins with a blank or a bracket. -/
theorem scalar?_of_other {c : Char} (hc : isScalarChar c = false) (hdouble : c ≠ '"')
    (hsingle : c ≠ '\'') (r : List Char) : scalar? (c :: r) = none := by
  have hspan : (c :: r).span isScalarChar = ([], c :: r) :=
    span_of_all [] (fun _ h => nomatch h) hc r
  have hdate : afterDate? [] = none := rfl
  have hbare : (takeBare (c :: r)).1 = [] := by
    unfold takeBare
    rw [hspan]
    dsimp only
    split
    · rw [hdate, if_neg fun h => nomatch h.2]
    · rfl
  unfold scalar?
  split
  · exact absurd (List.cons.inj ‹_›).1 hdouble
  · exact absurd (List.cons.inj ‹_›).1 hsingle
  · generalize takeBare (c :: r) = p at *
    obtain ⟨word, rest⟩ := p
    dsimp only at hbare
    subst hbare
    rfl

theorem head_of_scalar? {cs r x : List Char} {c : Char} {d : Document}
    (h : scalar? cs = some (d, r)) (hc : isScalarChar c = false ∧ c ≠ '"' ∧ c ≠ '\'') :
    cs ≠ c :: x := by
  rintro rfl
  rw [scalar?_of_other hc.1 hc.2.1 hc.2.2] at h
  cases h

theorem value?_of_scalar? {cs r : List Char} {d : Document} (h : scalar? cs = some (d, r))
    (fuel depth : Nat) : value? (fuel + 1) depth cs = some (d, r) := by
  have hbracket : ∀ x, cs ≠ '[' :: x := fun x => head_of_scalar? h (by decide)
  have hbrace : ∀ x, cs ≠ '\x7b' :: x := fun x => head_of_scalar? h (by decide)
  rw [value?, h]
  · exact fun x _ hx => hbracket x hx
  · exact fun x _ hx => hbrace x hx
  · exact fun n x _ hx => hbracket x hx
  · exact fun n x _ hx => hbrace x hx

/-! ## Names -/

/-- A name that needs no quotes. -/
structure Plain (name : String) : Prop where
  nonempty : name.toList ≠ []
  chars : ∀ c ∈ name.toList, isKeyChar c = true

theorem skipSpace_of_other {c : Char} (hc : isSpace c = false) (r : List Char) :
    skipSpace (c :: r) = c :: r :=
  List.dropWhile_cons_of_neg (by rw [hc]; exact Bool.false_ne_true)

theorem isSpace_of_isKeyChar {c : Char} (hc : isKeyChar c = true) : isSpace c = false := by
  have hblank := ne_of_test hc (show isKeyChar ' ' = false by decide)
  have htab := ne_of_test hc (show isKeyChar '\t' = false by decide)
  simp [isSpace, hblank, htab]

theorem key?_of_plain {name : String} (h : Plain name) {c : Char} (hc : isKeyChar c = false)
    {r : List Char} (r' : List Char) (hr : skipSpace (c :: r) = r') (hdot : ∀ x, r' ≠ '.' :: x) (fuel : Nat) :
    key? (fuel + 1) (name.toList ++ c :: r) = some ({ parents := [], last := name }, r') := by
  obtain ⟨d, ds, hd⟩ := List.exists_cons_of_ne_nil h.nonempty
  have hhead : isKeyChar d = true := h.chars d (hd ▸ List.mem_cons_self)
  have hspan := span_of_all _ h.chars hc r
  have hname : name? (name.toList ++ c :: r) = some (name, c :: r) := by
    unfold name?
    split
    · rename_i heq
      rw [hd] at heq
      exact absurd (List.cons.inj heq).1 (ne_of_test hhead (by decide))
    · rename_i heq
      rw [hd] at heq
      exact absurd (List.cons.inj heq).1 (ne_of_test hhead (by decide))
    · rw [hspan]
      split
      · rename_i heq
        exact absurd (Prod.mk.inj heq).1 h.nonempty
      · rename_i heq
        obtain ⟨hname, hrest⟩ := Prod.mk.inj heq
        rw [← hname, ← hrest, String.ofList_toList]
  have hskip : skipSpace (name.toList ++ c :: r) = name.toList ++ c :: r := by
    rw [hd]
    exact skipSpace_of_other (isSpace_of_isKeyChar hhead) _
  simp only [key?, hskip, hname, hr, Option.bind_eq_bind, Option.bind_some]
  rfl

/-! ## Lines -/

theorem line?_entry {name : String} (h : Plain name) {s : Scalar} (hs : Readable s)
    {t : List Char} (ht : scalarText? s = some t) (r : List Char) :
    line? (name.toList ++ [' ', '=', ' '] ++ t ++ '\n' :: r) =
      some (.entry ⟨[], name⟩ (.scalar s), '\n' :: r) := by
  obtain ⟨d, ds, hd⟩ := List.exists_cons_of_ne_nil h.nonempty
  have hhead : isKeyChar d = true := h.chars d (hd ▸ List.mem_cons_self)
  have hread := scalar?_scalarText hs ht r
  have hkey := key?_of_plain h (c := ' ') (by decide) (r := '=' :: ' ' :: (t ++ '\n' :: r))
    ('=' :: ' ' :: (t ++ '\n' :: r)) rfl (fun x hx => absurd (List.cons.inj hx).1 (by decide))
  have hskip : skipSpace (' ' :: (t ++ '\n' :: r)) = t ++ '\n' :: r := by
    show skipSpace (t ++ '\n' :: r) = _
    cases hcs : t ++ '\n' :: r with
    | nil => rfl
    | cons c cs =>
      refine skipSpace_of_other ?_ cs
      by_contra hspace
      rw [hcs] at hread
      have hc : isSpace c = true := by simpa using hspace
      refine head_of_scalar? (c := c) (x := cs) hread ?_ rfl
      simp only [isSpace, Bool.or_eq_true, decide_eq_true_eq] at hc
      rcases hc with rfl | rfl <;> decide
  have hassoc : name.toList ++ [' ', '=', ' '] ++ t ++ '\n' :: r =
      name.toList ++ ' ' :: '=' :: ' ' :: (t ++ '\n' :: r) := by simp
  rw [hassoc]
  unfold line?
  split
  · rename_i heq
    rw [hd] at heq
    exact absurd (List.cons.inj heq).1 (ne_of_test hhead (by decide))
  · rename_i heq
    rw [hd] at heq
    exact absurd (List.cons.inj heq).1 (ne_of_test hhead (by decide))
  · rw [hkey]
    simp only [Option.bind_eq_bind, Option.bind_some, after?, if_true, hskip,
      value?_of_scalar? hread]
    rfl

theorem line?_header {name : String} (h : Plain name) (r : List Char) :
    line? ('[' :: (name.toList ++ ']' :: '\n' :: r)) = some (.table ⟨[], name⟩, '\n' :: r) := by
  obtain ⟨d, ds, hd⟩ := List.exists_cons_of_ne_nil h.nonempty
  have hhead : isKeyChar d = true := h.chars d (hd ▸ List.mem_cons_self)
  have hkey := key?_of_plain h (c := ']') (by decide) (r := '\n' :: r)
    (']' :: '\n' :: r) rfl (fun x hx => absurd (List.cons.inj hx).1 (by decide))
  unfold line?
  split
  · rename_i heq
    rw [hd] at heq
    exact absurd (List.cons.inj (List.cons.inj heq).2).1 (ne_of_test hhead (by decide))
  · rename_i heq
    obtain rfl := (List.cons.inj heq).2
    rw [hkey]
    simp only [Option.bind_eq_bind, Option.bind_some, after?, if_true]
    rfl
  · rename_i hnone
    exact absurd rfl (hnone _)

/-! ## All lines -/

theorem endLine?_lineEnd (r : List Char) : endLine? ('\n' :: r) = some r := rfl

/-- Whether a text is these lines, whatever follows it.  A fuel of one for each of its
characters is enough. -/
def LinesOf (text : List Char) (ls : List Line) : Prop :=
  ∀ fuel r, ∃ left, fuel ≤ left ∧
    lines? (text.length + fuel) (text ++ r) = (lines? left r).map (ls ++ ·)

theorem linesOf_nil : LinesOf [] [] := fun fuel r =>
  ⟨fuel, Nat.le_refl _, by simp⟩

theorem LinesOf.append {text text' : List Char} {ls ls' : List Line} (h : LinesOf text ls)
    (h' : LinesOf text' ls') : LinesOf (text ++ text') (ls ++ ls') := by
  intro fuel r
  obtain ⟨left, hleft, hlines⟩ := h (text'.length + fuel) (text' ++ r)
  obtain ⟨left', hleft', hlines'⟩ := h' (left - text'.length) r
  have hsum : text'.length + (left - text'.length) = left := by omega
  rw [hsum] at hlines'
  refine ⟨left', by omega, ?_⟩
  rw [List.length_append, Nat.add_assoc, List.append_assoc, hlines, hlines', Option.map_map]
  congr 1
  funext ls
  exact (List.append_assoc _ _ _).symm

/-- A line of its own, ended. -/
theorem linesOf_line {text : List Char} {l : Line} (c : Char) (cs : List Char)
    (hcs : text = c :: cs)
    (hc : isSpace c = false ∧ c ≠ '\n' ∧ c ≠ '\x0d' ∧ c ≠ '#')
    (hline : ∀ r, line? (text ++ '\n' :: r) = some (l, '\n' :: r)) :
    LinesOf (text ++ ['\n']) [l] := by
  intro fuel r
  refine ⟨text.length + fuel, by omega, ?_⟩
  have hlength : (text ++ ['\n']).length + fuel = text.length + fuel + 1 := by
    rw [List.length_append, List.length_singleton]
    omega
  have hskip : skipSpace (text ++ '\n' :: r) = c :: (cs ++ '\n' :: r) := by
    rw [hcs]
    exact skipSpace_of_other hc.1 _
  have hline' := hline r
  rw [hlength, List.append_assoc, List.singleton_append, lines?, hskip]
  rw [hcs, List.cons_append] at hline'
  simp only [hc.2.1, hc.2.2.1, hc.2.2.2, false_or, if_false, hline', endLine?_lineEnd,
    Option.bind_eq_bind, Option.bind_some]
  cases lines? (text.length + fuel) r <;> rfl

theorem linesOf_blank : LinesOf ['\n'] [] := by
  intro fuel r
  refine ⟨fuel, Nat.le_refl _, ?_⟩
  have hlength : ['\n'].length + fuel = fuel + 1 := Nat.add_comm 1 fuel
  have hskip : skipSpace ('\n' :: r) = '\n' :: r := skipSpace_of_other (by decide) r
  rw [hlength, List.singleton_append, lines?, hskip]
  simp only [true_or, if_true, endLine?_lineEnd, Option.bind_eq_bind, Option.bind_some,
    List.nil_append, Option.map_id_fun', id_eq]

/-- The entry of a member, unless it is null. -/
def entryLine? (m : String × Scalar) : Option Line :=
  (scalarText? m.2).map fun _ => .entry ⟨[], m.1⟩ (.scalar m.2)

theorem linesOf_entryText {m : String × Scalar} (hname : Plain m.1) (hs : Readable m.2) :
    LinesOf (entryText m.1 m.2) (entryLine? m).toList := by
  unfold entryText entryLine?
  cases ht : scalarText? m.2 with
  | none => exact linesOf_nil
  | some t =>
    obtain ⟨d, ds, hd⟩ := List.exists_cons_of_ne_nil hname.nonempty
    have hhead : isKeyChar d = true := hname.chars d (hd ▸ List.mem_cons_self)
    refine linesOf_line d (ds ++ [' ', '=', ' '] ++ t) ?_ ?_
      (fun r => line?_entry hname hs ht r)
    · rw [hd]
      rfl
    · exact ⟨isSpace_of_isKeyChar hhead, ne_of_test hhead (by decide),
        ne_of_test hhead (by decide), ne_of_test hhead (by decide)⟩

theorem linesOf_entriesText {ms : List (String × Scalar)}
    (hms : ∀ m ∈ ms, Plain m.1 ∧ Readable m.2) :
    LinesOf (entriesText ms) (ms.filterMap entryLine?) := by
  induction ms with
  | nil => exact linesOf_nil
  | cons m ms ih =>
    have hm := hms m List.mem_cons_self
    have hrest := ih fun x hx => hms x (List.mem_cons_of_mem _ hx)
    have hfirst := linesOf_entryText hm.1 hm.2
    have hlines : (m :: ms).filterMap entryLine? = (entryLine? m).toList ++ ms.filterMap entryLine? := by
      rw [List.filterMap_cons]
      cases entryLine? m <;> rfl
    rw [hlines]
    exact hfirst.append hrest

/-- The header of a section and its entries. -/
def sectionLines (s : String × List (String × Scalar)) : List Line :=
  .table ⟨[], s.1⟩ :: s.2.filterMap entryLine?

theorem linesOf_sectionText {s : String × List (String × Scalar)} (hname : Plain s.1)
    (hms : ∀ m ∈ s.2, Plain m.1 ∧ Readable m.2) :
    LinesOf (sectionText s.1 s.2) (sectionLines s) := by
  have hheader : LinesOf (('[' :: (s.1.toList ++ [']'])) ++ ['\n']) [.table ⟨[], s.1⟩] := by
    refine linesOf_line _ _ rfl (by decide) fun r => ?_
    rw [List.cons_append, List.append_assoc, List.singleton_append]
    exact line?_header hname r
  have hall := linesOf_blank.append (hheader.append (linesOf_entriesText hms))
  have htext : sectionText s.1 s.2 =
      ['\n'] ++ (('[' :: (s.1.toList ++ [']'])) ++ ['\n'] ++ entriesText s.2) := by
    simp [sectionText]
  rw [htext]
  exact hall

/-! ## Put together -/

def names (ms : List (String × Node)) : List String := ms.map Prod.fst

theorem update_new {name : String} {ms : Members} (hname : name ∉ names ms)
    (change : Option Node → Option Node) :
    update name change ms = (change none).map fun n => ms ++ [(name, n)] := by
  induction ms with
  | nil => rfl
  | cons m ms ih =>
    obtain ⟨k, n⟩ := m
    rw [names, List.map_cons, List.mem_cons, not_or] at hname
    have hk : ¬ k = name := fun h => hname.1 h.symm
    rw [update, if_neg hk, ih hname.2, Option.map_map]
    rfl

theorem update_last {name : String} {ms : Members} (hname : name ∉ names ms)
    (change : Option Node → Option Node) (n : Node) :
    update name change (ms ++ [(name, n)]) =
      (change (some n)).map fun n => ms ++ [(name, n)] := by
  induction ms with
  | nil => exact if_pos rfl
  | cons m ms ih =>
    obtain ⟨k, n'⟩ := m
    rw [names, List.map_cons, List.mem_cons, not_or] at hname
    have hk : ¬ k = name := fun h => hname.1 h.symm
    rw [List.cons_append, update, if_neg hk, ih hname.2, Option.map_map]
    rfl

/-- The members of a table that are not null, as nodes. -/
def kept (ms : List (String × Scalar)) : Members :=
  ms.filterMap fun m => (scalarText? m.2).map fun _ => (m.1, .value (.scalar m.2))

theorem names_kept_subset (ms : List (String × Scalar)) : names (kept ms) ⊆ ms.map Prod.fst := by
  intro name hname
  obtain ⟨n, hn, rfl⟩ := List.mem_map.mp hname
  obtain ⟨m, hm, hkept⟩ := List.mem_filterMap.mp hn
  obtain ⟨t, -, rfl⟩ := Option.map_eq_some_iff.mp hkept
  exact List.mem_map.mpr ⟨m, hm, rfl⟩

/-- Entries go to the table that the lines are at, wherever in the tree that is. -/
theorem foldlM_entries (here : List String) (place : Members → Members)
    (hplace : ∀ change ts ts', change ts = some ts' →
      descend change here (place ts) = some (place ts'))
    (ms : List (String × Scalar)) (ts : Members) (hnew : ∀ m ∈ ms, m.1 ∉ names ts)
    (hdistinct : (ms.map Prod.fst).Nodup) :
    (ms.filterMap entryLine?).foldlM addLine (here, place ts) =
      some (here, place (ts ++ kept ms)) := by
  induction ms generalizing ts with
  | nil => simp [kept]
  | cons m ms ih =>
    rw [List.map_cons, List.nodup_cons] at hdistinct
    have hrest := fun x hx => hnew x (List.mem_cons_of_mem m hx)
    cases ht : scalarText? m.2 with
    | none =>
      have hline : entryLine? m = none := by rw [entryLine?, ht]; rfl
      have hkept : kept (m :: ms) = kept ms := by
        rw [kept, List.filterMap_cons, ht]
        rfl
      rw [List.filterMap_cons_none hline, hkept]
      exact ih ts hrest hdistinct.2
    | some t =>
      have hline : entryLine? m = some (.entry ⟨[], m.1⟩ (.scalar m.2)) := by rw [entryLine?, ht]; rfl
      have hkept : kept (m :: ms) = (m.1, .value (.scalar m.2)) :: kept ms := by
        rw [kept, List.filterMap_cons, ht]
        rfl
      have hput : put m.1 (.scalar m.2) true [] ts = some (ts ++ [(m.1, .value (.scalar m.2))]) := by
        rw [put, if_pos rfl, update_new (hnew m List.mem_cons_self)]
        rfl
      have hadd : addLine (here, place ts) (.entry ⟨[], m.1⟩ (.scalar m.2)) =
          some (here, place (ts ++ [(m.1, .value (.scalar m.2))])) := by
        simp only [addLine, hplace _ _ _ hput]
        rfl
      have hnext : ∀ x ∈ ms, x.1 ∉ names (ts ++ [(m.1, Node.value (.scalar m.2))]) := by
        intro x hx hmem
        rw [names, List.map_append, List.mem_append] at hmem
        rcases hmem with hmem | hmem
        · exact hrest x hx hmem
        · rw [List.map_singleton, List.mem_singleton] at hmem
          exact hdistinct.1 (hmem ▸ List.mem_map_of_mem hx)
      rw [List.filterMap_cons_some hline, List.foldlM_cons, hadd, hkept,
        List.append_cons ts _ (kept ms)]
      exact ih _ hnext hdistinct.2

theorem foldlM_section (here : List String) {ms : Members} {s : String × List (String × Scalar)}
    (hnew : s.1 ∉ names ms) (hdistinct : (s.2.map Prod.fst).Nodup) :
    (sectionLines s).foldlM addLine (here, ms) =
      some ([s.1], ms ++ [(s.1, .table .header (kept s.2))]) := by
  have hopen : addLine (here, ms) (.table ⟨[], s.1⟩) =
      some ([s.1], ms ++ [(s.1, .table .header [])]) := by
    simp only [addLine, openTable, descend, update_new hnew]
    rfl
  have hplace : ∀ (change : Members → Option Members) ts ts', change ts = some ts' →
      descend change [s.1] (ms ++ [(s.1, .table .header ts)]) =
        some (ms ++ [(s.1, .table .header ts')]) := by
    intro change ts ts' h
    rw [descend, update_last hnew]
    simp only [descend, h]
    rfl
  rw [sectionLines, List.foldlM_cons, hopen]
  exact foldlM_entries [s.1] (fun ts => ms ++ [(s.1, .table .header ts)]) hplace s.2 []
    (fun _ _ h => nomatch h) hdistinct

theorem foldlM_sections (ss : List (String × List (String × Scalar))) (here : List String)
    (ms : Members) (hnew : ∀ s ∈ ss, s.1 ∉ names ms) (hdistinct : (ss.map Prod.fst).Nodup)
    (hinner : ∀ s ∈ ss, (s.2.map Prod.fst).Nodup) :
    ∃ here', (ss.flatMap sectionLines).foldlM addLine (here, ms) =
      some (here', ms ++ ss.map fun s => (s.1, .table .header (kept s.2))) := by
  induction ss generalizing here ms with
  | nil => exact ⟨here, by simp⟩
  | cons s ss ih =>
    rw [List.map_cons, List.nodup_cons] at hdistinct
    have hfirst := foldlM_section here (hnew s List.mem_cons_self) (hinner s List.mem_cons_self)
    have hnext : ∀ x ∈ ss, x.1 ∉ names (ms ++ [(s.1, Node.table .header (kept s.2))]) := by
      intro x hx hmem
      rw [names, List.map_append, List.mem_append] at hmem
      rcases hmem with hmem | hmem
      · exact hnew x (List.mem_cons_of_mem _ hx) hmem
      · rw [List.map_singleton, List.mem_singleton] at hmem
        exact hdistinct.1 (hmem ▸ List.mem_map_of_mem hx)
    obtain ⟨here', hrest⟩ := ih [s.1] _ hnext hdistinct.2 fun x hx =>
      hinner x (List.mem_cons_of_mem _ hx)
    refine ⟨here', ?_⟩
    rw [← List.append_cons] at hrest
    rw [List.flatMap_cons, List.foldlM_append, hfirst, List.map_cons]
    exact hrest

/-! ## An outline -/

/-- An outline that can be written: names that need no quotes and are not repeated, and
scalars that a text can give back. -/
structure Writable (o : Outline) : Prop where
  members : ∀ m ∈ o.members, Plain m.1 ∧ Readable m.2
  sections : ∀ s ∈ o.sections, Plain s.1 ∧ ∀ m ∈ s.2, Plain m.1 ∧ Readable m.2
  distinct : (o.members.map Prod.fst ++ o.sections.map Prod.fst).Nodup
  inner : ∀ s ∈ o.sections, (s.2.map Prod.fst).Nodup

/-- The members that are not null. -/
def keptMembers (ms : List (String × Scalar)) : List (String × Document) :=
  ms.filterMap fun m => (scalarText? m.2).map fun _ => (m.1, .scalar m.2)

theorem documents_append (ms ms' : Members) :
    documents (ms ++ ms') = documents ms ++ documents ms' := by
  induction ms with
  | nil => rfl
  | cons m ms ih =>
    rw [List.cons_append, documents, documents, ih]
    rfl

theorem documents_kept (ms : List (String × Scalar)) : documents (kept ms) = keptMembers ms := by
  induction ms with
  | nil => rfl
  | cons m ms ih =>
    rw [kept, keptMembers, List.filterMap_cons, List.filterMap_cons]
    cases scalarText? m.2 with
    | none => exact ih
    | some t =>
      rw [Option.map_some, Option.map_some]
      dsimp only
      rw [documents, Node.document]
      exact congrArg _ ih

theorem documents_sections (ss : List (String × List (String × Scalar))) :
    documents (ss.map fun s => (s.1, .table .header (kept s.2))) =
      ss.map fun s => (s.1, .table (keptMembers s.2)) := by
  induction ss with
  | nil => rfl
  | cons s ss ih =>
    rw [List.map_cons, List.map_cons, documents, Node.document, documents_kept, ih]

theorem linesOf_render {o : Outline} (h : Writable o) :
    LinesOf (render o).toList (o.members.filterMap entryLine? ++ o.sections.flatMap sectionLines) := by
  have hsections : ∀ ss : List (String × List (String × Scalar)),
      (∀ s ∈ ss, Plain s.1 ∧ ∀ m ∈ s.2, Plain m.1 ∧ Readable m.2) →
        LinesOf (ss.flatMap fun s => sectionText s.1 s.2) (ss.flatMap sectionLines) := by
    intro ss hss
    induction ss with
    | nil => exact linesOf_nil
    | cons s ss ih =>
      have hs := hss s List.mem_cons_self
      rw [List.flatMap_cons, List.flatMap_cons]
      exact (linesOf_sectionText hs.1 hs.2).append
        (ih fun x hx => hss x (List.mem_cons_of_mem _ hx))
  unfold render
  rw [String.toList_ofList]
  exact (linesOf_entriesText h.members).append (hsections o.sections h.sections)

/-- A byte order mark begins no line. -/
theorem lines?_mark (fuel : Nat) (r : List Char) : lines? (fuel + 1) ('\ufeff' :: r) = none := by
  have hskip : skipSpace ('\ufeff' :: r) = '\ufeff' :: r := skipSpace_of_other (by decide) r
  have hname : name? ('\ufeff' :: r) = none := by
    have hspan : ('\ufeff' :: r).span isKeyChar = ([], '\ufeff' :: r) :=
      span_of_all [] (fun _ h => nomatch h) (by decide) r
    unfold name?
    split
    · exact absurd (List.cons.inj ‹_›).1 (by decide)
    · exact absurd (List.cons.inj ‹_›).1 (by decide)
    · rw [hspan]
  have hline : line? ('\ufeff' :: r) = none := by
    unfold line?
    split
    · exact absurd (List.cons.inj ‹_›).1 (by decide)
    · exact absurd (List.cons.inj ‹_›).1 (by decide)
    · simp only [key?, hskip, hname, Option.bind_eq_bind, Option.bind_none]
  rw [lines?, hskip]
  simp only [hline, Option.bind_eq_bind, Option.bind_none]
  rw [if_neg (by decide)]

/-- What an outline is read as: all of it that is not null. -/
theorem read?_render {o : Outline} (h : Writable o) :
    read? (render o) = some (.table (keptMembers o.members ++
      o.sections.map fun s => (s.1, .table (keptMembers s.2)))) := by
  obtain ⟨left, hleft, hlines⟩ := linesOf_render h 1 []
  obtain ⟨fuel, rfl⟩ : ∃ fuel, left = fuel + 1 := ⟨left - 1, by omega⟩
  rw [List.append_nil] at hlines
  have hread : lines? ((render o).toList.length + 1) (render o).toList =
      some (o.members.filterMap entryLine? ++ o.sections.flatMap sectionLines) := by
    rw [hlines]
    show Option.map _ (some []) = _
    rw [Option.map_some, List.append_nil]
  have hdistinct := List.nodup_append.mp h.distinct
  have hmembers := foldlM_entries [] id (fun change ts ts' h => h)
    o.members [] (fun _ _ h => nomatch h) hdistinct.1
  obtain ⟨here, hsections⟩ := foldlM_sections o.sections [] (kept o.members)
    (fun s hs hmem => hdistinct.2.2 _ (names_kept_subset _ hmem) _ (List.mem_map_of_mem hs) rfl)
    hdistinct.2.1 h.inner
  have hfold : (o.members.filterMap entryLine? ++ o.sections.flatMap sectionLines).foldlM addLine
      ([], []) = some (here, kept o.members ++
        o.sections.map fun s => (s.1, .table .header (kept s.2))) := by
    rw [List.foldlM_append]
    exact (congrArg (Option.bind · _) hmembers).trans hsections
  unfold read?
  generalize (render o).toList = cs at *
  split
  · rw [lines?_mark] at hread
    cases hread
  · simp only [hread, hfold, Option.bind_eq_bind, Option.bind_some, documents_append,
      documents_kept, documents_sections]
    rfl

end Toml
end AdaptiveBatch
