import AdaptiveBatch.Text.Hex

/-!
# Quoted text in TOML

Four kinds of quotes: basic ones, with escapes, and literal ones, without, each in a
form for one line and a form for many.  The functions below read what follows the
opening quote.
-/

namespace AdaptiveBatch
namespace Toml

def isSpace (c : Char) : Bool := c = ' ' || c = '\t'

def skipSpace (cs : List Char) : List Char := cs.dropWhile isSpace

/-- A control character that may not stand in a text as it is.  A tab may. -/
def isControl (c : Char) : Bool := (c < ' ' && c ≠ '\t') || c = '\x7f'

/-- The character that a one-letter escape stands for. -/
def escaped? (c : Char) : Option Char :=
  match c with
  | 'b' => some '\x08'
  | 't' => some '\t'
  | 'n' => some '\n'
  | 'f' => some '\x0c'
  | 'r' => some '\r'
  | 'e' => some '\x1b'
  | '"' => some '"'
  | '\\' => some '\\'
  | _ => none

/-- How many hexadecimal digits an escape has. -/
def hexCount (c : Char) : Nat :=
  match c with
  | 'x' => 2
  | 'u' => 4
  | 'U' => 8
  | _ => 0

/-- The character with a number, if there is one. -/
def charOf? (n : Nat) : Option Char := if n.isValidChar then some (Char.ofNat n) else none

/-- The character that an escape letter and what follows it stand for. -/
def escape? (e : Char) (r : List Char) : Option Char :=
  if hexCount e = 0 then escaped? e
  else
    match Text.takeHex? (hexCount e) r with
    | some (n, _) => charOf? n
    | none => none

/-- A basic text on one line. -/
def basic? : List Char → Option (List Char × List Char)
  | [] => none
  | '"' :: r => some ([], r)
  | '\\' :: e :: r => do
    let c ← escape? e r
    let (cs, r) ← basic? (r.drop (hexCount e))
    return (c :: cs, r)
  | c :: r =>
    if isControl c ∨ c = '\\' then none
    else do
      let (cs, r) ← basic? r
      return (c :: cs, r)
  termination_by cs => cs.length
  decreasing_by all_goals simp <;> omega

/-- A literal text on one line. -/
def literal? : List Char → Option (List Char × List Char)
  | [] => none
  | '\'' :: r => some ([], r)
  | c :: r =>
    if isControl c then none
    else do
      let (cs, r) ← literal? r
      return (c :: cs, r)

/-! ## Many lines -/

/-- Without a line end at the start. -/
def skipLineEnd : List Char → List Char
  | '\n' :: r => r
  | '\x0d' :: '\n' :: r => r
  | r => r

/-- Without blanks and line ends at the start. -/
def skipBlank : List Char → List Char
  | '\x0d' :: '\n' :: r => skipBlank r
  | c :: r => if isSpace c ∨ c = '\n' then skipBlank r else c :: r
  | [] => []

theorem skipBlank_length_le : ∀ cs : List Char, (skipBlank cs).length ≤ cs.length
  | [] => Nat.le_refl _
  | [c] => by
    simp only [skipBlank]
    split <;> simp
  | c :: d :: r => by
    unfold skipBlank
    split
    · rename_i h
      simp only [List.cons.injEq] at h
      obtain ⟨-, -, rfl⟩ := h
      have := skipBlank_length_le r
      simp only [List.length_cons]
      omega
    · rename_i h
      simp only [List.cons.injEq] at h
      obtain ⟨rfl, rfl⟩ := h
      split
      · have := skipBlank_length_le (d :: r)
        simp only [List.length_cons] at this ⊢
        omega
      · exact Nat.le_refl _
    · rename_i h
      cases h

/-- Whether a backslash in front of this text stands at the end of its line. -/
def endsLine (cs : List Char) : Bool :=
  match skipSpace cs with
  | '\n' :: _ => true
  | '\x0d' :: '\n' :: _ => true
  | _ => false

/-- What may follow the quotes that close a text of many lines: up to two more
quotes, which belong to the text. -/
def closing (q : Char) (r : List Char) : List Char × List Char :=
  match r with
  | a :: b :: r' =>
    if a = q ∧ b = q then ([q, q], r') else if a = q then ([q], b :: r') else ([], r)
  | [a] => if a = q then ([q], []) else ([], r)
  | [] => ([], [])

/-- A basic text of many lines.  A backslash at the end of a line takes away the
line end and all blanks after it. -/
def multiBasic? : List Char → Option (List Char × List Char)
  | [] => none
  | '"' :: '"' :: '"' :: r => some (closing '"' r)
  | '\\' :: e :: r =>
    if endsLine (e :: r) then multiBasic? (skipBlank (e :: r))
    else do
      let c ← escape? e r
      let (cs, r) ← multiBasic? (r.drop (hexCount e))
      return (c :: cs, r)
  | '\x0d' :: '\n' :: r => do
    let (cs, r) ← multiBasic? r
    return ('\x0d' :: '\n' :: cs, r)
  | c :: r =>
    if (isControl c ∧ c ≠ '\n') ∨ c = '\\' then none
    else do
      let (cs, r) ← multiBasic? r
      return (c :: cs, r)
  termination_by cs => cs.length
  decreasing_by
    · have := skipBlank_length_le (e :: r)
      simp only [List.length_cons] at this ⊢
      omega
    all_goals simp <;> omega

/-- A literal text of many lines. -/
def multiLiteral? : List Char → Option (List Char × List Char)
  | [] => none
  | '\'' :: '\'' :: '\'' :: r => some (closing '\'' r)
  | '\x0d' :: '\n' :: r => do
    let (cs, r) ← multiLiteral? r
    return ('\x0d' :: '\n' :: cs, r)
  | c :: r =>
    if isControl c ∧ c ≠ '\n' then none
    else do
      let (cs, r) ← multiLiteral? r
      return (c :: cs, r)

/-- The quoted text at the head of a text, of either kind and form. -/
def quoted? : List Char → Option (List Char × List Char)
  | '"' :: '"' :: '"' :: r => multiBasic? (skipLineEnd r)
  | '\'' :: '\'' :: '\'' :: r => multiLiteral? (skipLineEnd r)
  | '"' :: r => basic? r
  | '\'' :: r => literal? r
  | _ => none

/-! ## Writing -/

/-- A control character with a short escape. -/
def shortEscape? (c : Char) : Option Char :=
  match c with
  | '\x08' => some 'b'
  | '\t' => some 't'
  | '\x0c' => some 'f'
  | '\x0d' => some 'r'
  | '\\' => some '\\'
  | _ => none

/-- A character other than a quote or a line end between basic quotes. -/
def escapeControl (c : Char) : List Char :=
  match shortEscape? c with
  | some e => ['\\', e]
  | none => if isControl c then '\\' :: 'u' :: Text.hex4 Text.upperHex c.toNat else [c]

/-- A character between basic quotes on one line. -/
def escape (c : Char) : List Char :=
  if c = '"' then ['\\', '"'] else if c = '\n' then ['\\', 'n'] else escapeControl c

/-- The inside of a basic text of many lines.  `run` counts the quotes just before:
a third one in a row is escaped. -/
def escapeMulti (run : Nat) : List Char → List Char
  | [] => []
  | c :: r =>
    if c = '"' then
      if run < 2 then '"' :: escapeMulti (run + 1) r
      else '\\' :: '"' :: escapeMulti 0 r
    else if c = '\n' then '\n' :: escapeMulti 0 r
    else escapeControl c ++ escapeMulti 0 r

/-- The longest run of one character. -/
def longestRun (q : Char) (cs : List Char) : Nat :=
  (cs.foldl (fun (best, run) c =>
    if c = q then (max best (run + 1), run + 1) else (best, 0)) (0, 0)).1

/-- What decides how a text is quoted. -/
structure Contents where
  lineEnds : Bool
  /-- Control characters other than tabs and line ends. -/
  controls : Bool
  backslashes : Bool
  doubleRun : Nat
  singleRun : Nat

def Contents.of (cs : List Char) : Contents :=
  { lineEnds := cs.contains '\n'
    controls := cs.any fun c => isControl c && c ≠ '\n'
    backslashes := cs.contains '\\'
    doubleRun := longestRun '"' cs
    singleRun := longestRun '\'' cs }

inductive Quotes where
  | basic
  | literal
  | multiBasic
  | multiLiteral
  deriving DecidableEq, Repr

/-- Quotes between which the text can stand as it is, the simplest first; else basic
ones. -/
def Contents.quotes (t : Contents) : Quotes :=
  if !t.controls ∧ !t.backslashes ∧ t.doubleRun = 0 ∧ !t.lineEnds then .basic
  else if !t.controls ∧ t.singleRun = 0 ∧ !t.lineEnds then .literal
  else if !t.controls ∧ !t.backslashes ∧ t.doubleRun ≤ 2 then .multiBasic
  else if !t.controls ∧ t.singleRun ≤ 2 then .multiLiteral
  else if t.lineEnds then .multiBasic
  else .basic

/-- The text inside its quotes.  A line end behind the opening quotes of many lines
is not part of the text, so one is put there if the text has any. -/
def quote (s : String) : List Char :=
  let cs := s.toList
  let t := Contents.of cs
  let start := if t.lineEnds then ['\n'] else []
  match t.quotes with
  | .basic => ['"'] ++ cs.flatMap escape ++ ['"']
  | .literal => ['\''] ++ cs ++ ['\'']
  | .multiBasic => ['"', '"', '"'] ++ start ++ escapeMulti 0 cs ++ ['"', '"', '"']
  | .multiLiteral => ['\'', '\'', '\''] ++ start ++ cs ++ ['\'', '\'', '\'']

end Toml
end AdaptiveBatch
