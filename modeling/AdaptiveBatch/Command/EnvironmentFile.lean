import AdaptiveBatch.Text.Blank

/-!
# Files of environment variables

A file of lines `NAME=value` stands in for variables that the environment lacks.
Values may be quoted, over several lines if need be, and may refer to variables.
Lines up to the first mistake count.
-/

namespace AdaptiveBatch
namespace Command

abbrev Environment := List (String × String)

/-! ## Lines -/

/-- Where a line leaves off. -/
inductive Quoting where
  | complete
  /-- Behind a blank, where a comment may begin. -/
  | blank
  | escape
  | strong
  | strongEscape
  | weak
  | weakEscape
  deriving DecidableEq, Repr

/-- The state behind one character; none where a comment begins. -/
def Quoting.next? (q : Quoting) (c : Char) : Option Quoting :=
  let opened : Quoting :=
    if c = '\\' then .escape
    else if c = '"' then .weak
    else if c = '\'' then .strong
    else .complete
  match q with
  | .blank => if c = '#' then none else some opened
  | .escape => some .complete
  | .complete =>
    some (if Text.isBlank c ∧ c ≠ '\n' ∧ c ≠ '\x0d' then .blank else opened)
  | .weak => some (if c = '\\' then .weakEscape else if c = '"' then .complete else .weak)
  | .weakEscape => some .weak
  | .strong =>
    some (if c = '\\' then .strongEscape else if c = '\'' then .complete else .strong)
  | .strongEscape => some .strong

/-- The text up to a comment, and the state at its end if there is none. -/
def uncomment (q : Quoting) : List Char → List Char × Option Quoting
  | [] => ([], some q)
  | c :: r =>
    match q.next? c with
    | none => ([], none)
    | some q =>
      let (t, last) := uncomment q r
      (c :: t, last)

/-- Lines with their ends. -/
def physicalLines : List Char → List (List Char)
  | [] => []
  | c :: r =>
    if c = '\n' then [c] :: physicalLines r
    else
      match physicalLines r with
      | [] => [[c]]
      | l :: ls => (c :: l) :: ls

def trimStart (cs : List Char) : List Char := cs.dropWhile Text.isBlank

def trimEnd (cs : List Char) : List Char := (cs.reverse.dropWhile Text.isBlank).reverse

/-- Lines put together where quotes span them, without comments.  The last one is
none if quotes stay open. -/
def logicalLines (q : Quoting) (before : List Char) :
    List (List Char) → List (Option (List Char))
  | [] => if q = .complete then [] else [none]
  | l :: ls =>
    if (trimStart (before ++ l)).head? = some '#' then
      some [] :: logicalLines .complete [] ls
    else
      match uncomment q l with
      | (t, none) => some (before ++ t) :: logicalLines .complete [] ls
      | (_, some .complete) => some (before ++ l) :: logicalLines .complete [] ls
      | (_, some q) => logicalLines q (before ++ l) ls

/-! ## Values -/

/-- A reference to a variable under way. -/
inductive Reference where
  | none
  /-- Behind a dollar sign. -/
  | plain
  /-- Behind a dollar sign and a brace. -/
  | braced
  deriving DecidableEq, Repr

/-- A value under way, its characters and those of a reference with the last first. -/
structure Value where
  strong : Bool := false
  weak : Bool := false
  escaped : Bool := false
  /-- Behind a blank: nothing but blanks and a comment may follow. -/
  ended : Bool := false
  reference : Reference := .none
  name : List Char := []
  output : List Char := []

namespace Value

def push (v : Value) (c : Char) : Value := { v with output := c :: v.output }

/-- The reference is replaced by the value of its variable; an unknown one by
nothing. -/
def substitute (v : Value) (environment : Environment) : Value :=
  let text := (environment.lookup (String.ofList v.name.reverse)).getD ""
  { v with reference := .none, name := [], output := text.toList.reverse ++ v.output }

/-- A character inside a reference. -/
def refer (v : Value) (environment : Environment) (c : Char) : Value :=
  match v.reference with
  | .braced =>
    if c.isAlphanum then { v with name := c :: v.name }
    else if c = '\x7d' then v.substitute environment
    else { v with name := c :: v.name }
  | _ =>
    if c.isAlphanum then { v with name := c :: v.name }
    else if c = '\x7b' ∧ v.name.isEmpty then { v with reference := .braced }
    else
      let v := v.substitute environment
      if c = '$' then { v with reference := .plain } else v.push c

def unescape? (c : Char) : Option Char :=
  if c = '\\' ∨ c = '\'' ∨ c = '"' ∨ c = '$' ∨ c = ' ' then some c
  else if c = 'n' then some '\n'
  else none

/-- A character that is neither behind the end, nor escaped, nor inside strong quotes
or a reference. -/
def take (v : Value) (c : Char) : Value :=
  if c = '$' then { v with reference := .plain }
  else if v.weak then
    if c = '"' then { v with weak := false }
    else if c = '\\' then { v with escaped := true }
    else v.push c
  else if c = '\'' then { v with strong := true }
  else if c = '"' then { v with weak := true }
  else if c = '\\' then { v with escaped := true }
  else if c = ' ' ∨ c = '\t' then { v with ended := true }
  else v.push c

/-- The value that the characters from here on complete. -/
def run (environment : Environment) (v : Value) : List Char → Option Value
  | [] => some v
  | c :: r =>
    if v.ended then
      if c = ' ' ∨ c = '\t' then run environment v r
      else if c = '#' then some v
      else none
    else if v.escaped then
      match unescape? c with
      | some d => run environment { v.push d with escaped := false } r
      | none => none
    else if v.strong then
      run environment (if c = '\'' then { v with strong := false } else v.push c) r
    else if v.reference ≠ .none then run environment (v.refer environment c) r
    else run environment (v.take c) r

end Value

/-- The value that a text stands for.  Quotes and braces have to be closed. -/
def valueOf? (environment : Environment) (cs : List Char) : Option String :=
  match Value.run environment {} cs with
  | some v =>
    if v.reference = .braced ∨ v.strong ∨ v.weak then none
    else some (String.ofList (v.substitute environment).output.reverse)
  | none => none

/-! ## Entries -/

def isNameChar (c : Char) : Bool := c.isAlphanum || c = '_' || c = '.'

/-- The name at the head of a text, and what follows it and its blanks. -/
def name? (cs : List Char) : Option (String × List Char) :=
  match cs with
  | c :: _ =>
    if c.isAlpha ∨ c = '_' then
      let (name, r) := cs.span isNameChar
      some (String.ofList name, trimStart r)
    else none
  | [] => none

/-- What follows an equals sign and its blanks. -/
def afterEquals? : List Char → Option (List Char)
  | '=' :: r => some (trimStart r)
  | _ => none

/-- The name and the text behind the equals sign.  The word `export` may stand before
the name. -/
def split? (cs : List Char) : Option (String × List Char) := do
  let (name, r) ← name? cs
  match afterEquals? r with
  | some r => some (name, r)
  | none =>
    if name = "export" then do
      let (name, r) ← name? r
      let r ← afterEquals? r
      return (name, r)
    else none

/-- The entry on a line, if the line has one.  No answer at all means a mistake. -/
def entry? (environment : Environment) (line : List Char) :
    Option (Option (String × String)) :=
  let cs := trimStart (trimEnd line)
  if cs.isEmpty ∨ cs.head? = some '#' then some none
  else do
    let (name, r) ← split? cs
    if r.isEmpty ∨ r.head? = some '#' then return some (name, "")
    else
      let v ← valueOf? environment r
      return some (name, v)

/-- The environment with the entries of lines up to the first mistake.  A variable
that is set keeps its value. -/
def addLines (environment : Environment) : List (Option (List Char)) → Environment
  | [] => environment
  | none :: _ => environment
  | some l :: ls =>
    match entry? environment l with
    | none => environment
    | some none => addLines environment ls
    | some (some (name, value)) =>
      addLines (if (environment.lookup name).isSome then environment
        else environment ++ [(name, value)]) ls

/-- The environment with what a file adds to it.  A byte order mark is skipped. -/
def addFile (environment : Environment) (text : String) : Environment :=
  let cs := match text.toList with
    | '\ufeff' :: r => r
    | cs => cs
  addLines environment (logicalLines .complete [] (physicalLines cs))

end Command
end AdaptiveBatch
