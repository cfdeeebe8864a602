import AdaptiveBatch.Document.Toml.Scalar
import AdaptiveBatch.Document.Toml.Table

/-!
# Reading TOML

A text is a sequence of lines: headers, which say where what follows belongs, and
entries, each a key and a value.  The lines are read first and put together after.
-/

namespace AdaptiveBatch
namespace Toml

def isKeyChar (c : Char) : Bool := c.isAlphanum || c = '_' || c = '-'

/-- One name of a key. -/
def name? (cs : List Char) : Option (String × List Char) :=
  match cs with
  | '"' :: r => (basic? r).map fun (t, r) => (String.ofList t, r)
  | '\'' :: r => (literal? r).map fun (t, r) => (String.ofList t, r)
  | cs =>
    match cs.span isKeyChar with
    | ([], _) => none
    | (t, r) => some (String.ofList t, r)

/-- A key with blanks around its names. -/
def key? : Nat → List Char → Option (Key × List Char)
  | 0, _ => none
  | fuel + 1, cs => do
    let (name, r) ← name? (skipSpace cs)
    match skipSpace r with
    | '.' :: r =>
      let (k, r) ← key? fuel r
      return ({ k with parents := name :: k.parents }, r)
    | r => return ({ parents := [], last := name }, r)

/-- Without blanks, line ends and comments at the start.  The flag says whether a
comment is under way. -/
def skipFiller? : Bool → List Char → Option (List Char)
  | _, [] => some []
  | _, '\x0d' :: '\n' :: r => skipFiller? false r
  | true, c :: r =>
    if c = '\n' then skipFiller? false r
    else if isControl c then none
    else skipFiller? true r
  | false, c :: r =>
    if isSpace c ∨ c = '\n' then skipFiller? false r
    else if c = '#' then skipFiller? true r
    else some (c :: r)

/-- How deeply lists and tables may be nested in a value. -/
def greatestDepth : Nat := 80

mutual

def value? : Nat → Nat → List Char → Option (Document × List Char)
  | 0, _, _ => none
  | fuel + 1, depth, cs =>
    match depth, cs with
    | 0, '[' :: _ | 0, '\x7b' :: _ => none
    | depth + 1, '[' :: r => (items? fuel depth r).map fun (ds, r) => (.list ds, r)
    | depth + 1, '\x7b' :: r =>
      (members? fuel depth [] r).map fun (ms, r) => (.table (documents ms), r)
    | _, cs => scalar? cs

/-- The items of a list from here on, with the closing bracket. -/
def items? : Nat → Nat → List Char → Option (List Document × List Char)
  | 0, _, _ => none
  | fuel + 1, depth, cs => do
    match ← skipFiller? false cs with
    | ']' :: r => return ([], r)
    | r =>
      let (d, r) ← value? fuel depth r
      match ← skipFiller? false r with
      | ',' :: r =>
        let (ds, r) ← items? fuel depth r
        return (d :: ds, r)
      | ']' :: r => return ([d], r)
      | _ => none

/-- The members of a table from here on, added to those before, with the closing
brace. -/
def members? : Nat → Nat → Members → List Char → Option (Members × List Char)
  | 0, _, _, _ => none
  | fuel + 1, depth, ms, cs => do
    match ← skipFiller? false cs with
    | '\x7d' :: r => return (ms, r)
    | r =>
      let (k, r) ← key? (r.length + 1) r
      let r ← after? '=' r
      let (d, r) ← value? fuel depth (skipSpace r)
      let ms ← put k.last d true k.parents ms
      match ← skipFiller? false r with
      | ',' :: r => members? fuel depth ms r
      | '\x7d' :: r => return (ms, r)
      | _ => none

end

/-! ## Lines -/

inductive Line where
  /-- The header of a table. -/
  | table (key : Key)
  /-- The header of one more table of an array. -/
  | item (key : Key)
  | entry (key : Key) (value : Document)

/-- The line at the head of a text, up to what may be a comment. -/
def line? (cs : List Char) : Option (Line × List Char) :=
  match cs with
  | '[' :: '[' :: r => do
    let (k, r) ← key? (r.length + 1) r
    let r ← after? ']' r
    let r ← after? ']' r
    return (.item k, r)
  | '[' :: r => do
    let (k, r) ← key? (r.length + 1) r
    let r ← after? ']' r
    return (.table k, r)
  | cs => do
    let (k, r) ← key? (cs.length + 1) cs
    let r ← after? '=' r
    let r := skipSpace r
    let (d, r) ← value? (2 * r.length + 2) greatestDepth r
    return (.entry k d, r)

/-- The rest of a line that has nothing more to say. -/
def endLine? (cs : List Char) : Option (List Char) :=
  let cs := skipSpace cs
  let cs := match cs with
    | '#' :: r => r.dropWhile fun c => !isControl c
    | cs => cs
  match cs with
  | [] => some []
  | '\n' :: r => some r
  | '\x0d' :: '\n' :: r => some r
  | _ => none

/-- All lines that say something. -/
def lines? : Nat → List Char → Option (List Line)
  | 0, _ => none
  | fuel + 1, cs =>
    match skipSpace cs with
    | [] => some []
    | c :: r =>
      if c = '\n' ∨ c = '\x0d' ∨ c = '#' then do
        let r ← endLine? (c :: r)
        lines? fuel r
      else do
        let (l, r) ← line? (c :: r)
        let r ← endLine? r
        let ls ← lines? fuel r
        return l :: ls

/-! ## The whole text -/

/-- What a line adds.  `here` is the table that entries belong to. -/
def addLine (s : List String × Members) (l : Line) : Option (List String × Members) :=
  let (here, ms) := s
  match l with
  | .table k => (openTable k ms).map (k.parents ++ [k.last], ·)
  | .item k => (addTable k ms).map (k.parents ++ [k.last], ·)
  | .entry k d => (descend (put k.last d true k.parents) here ms).map (here, ·)

/-- The document that a whole text is.  A byte order mark at its start is skipped. -/
def read? (s : String) : Option Document := do
  let cs := match s.toList with
    | '\ufeff' :: r => r
    | cs => cs
  let ls ← lines? (cs.length + 1) cs
  let (_, ms) ← ls.foldlM addLine ([], [])
  return .table (documents ms)

end Toml
end AdaptiveBatch
