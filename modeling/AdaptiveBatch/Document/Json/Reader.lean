import AdaptiveBatch.Document.Json.Number
import AdaptiveBatch.Document.Json.Quoted

/-!
# Reading JSON

Each function reads the head of a text and answers what follows.  A fuel of twice
the length of the text is enough, since no two calls in a row leave the text as it
is.
-/

namespace AdaptiveBatch
namespace Json

def isBlank (c : Char) : Bool := c = ' ' || c = '\n' || c = '\r' || c = '\t'

def skipBlank (cs : List Char) : List Char := cs.dropWhile isBlank

/-- The text that pieces stand for, as a document. -/
def textDocument (ps : List Piece) : Document :=
  match join? ps with
  | some cs => .scalar (.text (String.ofList cs))
  | none => .broken

/-- A table of which every name is a text. -/
def tableDocument (ms : List (List Piece × Document)) : Document :=
  match ms.mapM fun (ps, d) => (join? ps).map fun cs => (String.ofList cs, d) with
  | some ms => .table ms
  | none => .broken

def number? (cs : List Char) : Option (Document × List Char) := do
  let (l, r) ← literal? cs
  return ((l.value?.map .scalar).getD .broken, r)

mutual

def value? : Nat → List Char → Option (Document × List Char)
  | 0, _ => none
  | fuel + 1, cs =>
    match skipBlank cs with
    | 'n' :: 'u' :: 'l' :: 'l' :: r => some (.scalar .null, r)
    | 't' :: 'r' :: 'u' :: 'e' :: r => some (.scalar (.bool true), r)
    | 'f' :: 'a' :: 'l' :: 's' :: 'e' :: r => some (.scalar (.bool false), r)
    | '"' :: r => (pieces r).map fun (ps, r) => (textDocument ps, r)
    | '[' :: r =>
      match skipBlank r with
      | ']' :: r => some (.list [], r)
      | r => (items? fuel r).map fun (ds, r) => (.list ds, r)
    | '\x7b' :: r =>
      match skipBlank r with
      | '\x7d' :: r => some (.table [], r)
      | r => (members? fuel r).map fun (ms, r) => (tableDocument ms, r)
    | r => number? r

/-- The items of a list that has some, with the closing bracket. -/
def items? : Nat → List Char → Option (List Document × List Char)
  | 0, _ => none
  | fuel + 1, cs => do
    let (d, r) ← value? fuel cs
    match skipBlank r with
    | ',' :: r =>
      let (ds, r) ← items? fuel r
      return (d :: ds, r)
    | ']' :: r => return ([d], r)
    | _ => none

/-- The members of a table that has some, with the closing brace. -/
def members? : Nat → List Char → Option (List (List Piece × Document) × List Char)
  | 0, _ => none
  | fuel + 1, cs =>
    match skipBlank cs with
    | '"' :: r => do
      let (name, r) ← pieces r
      match skipBlank r with
      | ':' :: r =>
        let (d, r) ← value? fuel r
        match skipBlank r with
        | ',' :: r =>
          let (ms, r) ← members? fuel r
          return ((name, d) :: ms, r)
        | '\x7d' :: r => return ([(name, d)], r)
        | _ => none
      | _ => none
    | _ => none

end

/-- The document that a whole text is. -/
def read? (s : String) : Option Document := do
  let cs := s.toList
  let (d, r) ← value? (2 * cs.length + 2) cs
  if (skipBlank r).isEmpty then some d else none

end Json
end AdaptiveBatch
