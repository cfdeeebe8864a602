import AdaptiveBatch.Fault

/-!
# Files and paths

A tree of files below one directory, from which relative paths lead.  Nothing is
known of what lies above it or beside it.
-/

namespace AdaptiveBatch
namespace Files

/-- What a program sees of the files around it: whether there is anything at a
path, and the text of the file there. -/
structure View where
  contains : String → Bool
  readText : String → Except FileFault String

inductive Entry where
  | file (content : ByteArray)
  | directory

/-- Every entry with the names that lead to it.  The directories on the way need no
entries of their own. -/
structure Tree where
  entries : List (List String × Entry)

/-! ## Paths -/

/-- The parts of a path between slashes. -/
def parts (path : String) : List String := path.splitOn "/"

/-- The parts that lead anywhere. -/
def steps (path : String) : List String := (parts path).filter fun p => p ≠ "" && p ≠ "."

/-- The last name in a path, unless it leads up. -/
def fileName? (path : String) : Option String :=
  match (steps path).getLast? with
  | some name => if name = ".." then none else some name
  | none => none

/-- What follows the last point in the last name of a path.  A point at the start of
the name does not count. -/
def extension? (path : String) : Option String := do
  let name ← fileName? path
  let (after, before) := name.toList.reverse.span (· ≠ '.')
  match before with
  | [] | [_] => none
  | _ => some (String.ofList after.reverse)

/-! ## Looking up -/

/-- Where a path has led: so many directories above the tree, or to a place in it. -/
inductive Place where
  | above (levels : Nat)
  | at (names : List String)
  deriving DecidableEq, Repr

namespace Tree

def entry? (t : Tree) (names : List String) : Option Entry :=
  match t.entries.find? (·.1 = names) with
  | some (_, e) => some e
  | none =>
    if names.isEmpty || t.entries.any (fun (ns, _) => names.isPrefixOf ns) then some .directory
    else none

def isDirectory (t : Tree) : Place → Bool
  | .above _ => true
  | .at names =>
    match t.entry? names with
    | some .directory => true
    | _ => false

/-- One step from a place that has been reached. -/
def step (t : Tree) (p : Place) (part : String) : Except FileFault Place :=
  if !t.isDirectory p then .error .notDirectory
  else if part = "" ∨ part = "." then .ok p
  else
    match p with
    | .above n => if part = ".." then .ok (.above (n + 1)) else .error .notFound
    | .at names =>
      if part = ".." then .ok (if names.isEmpty then .above 1 else .at names.dropLast)
      else if 255 < part.utf8ByteSize then .error .nameTooLong
      else if (t.entry? (names ++ [part])).isSome then .ok (.at (names ++ [part]))
      else .error .notFound

/-- Where a path leads.  One that begins with a slash leads out of the tree. -/
def resolve (t : Tree) (path : String) : Except FileFault Place :=
  if path.toList.contains '\x00' then .error .nameHasNull
  else if path = "" then .error .notFound
  else if 4095 < path.utf8ByteSize then .error .nameTooLong
  else if path.toList.head? = some '/' then .error .notFound
  else (parts path).foldlM (t.step) (.at [])

/-- Whether there is anything at a path. -/
def contains (t : Tree) (path : String) : Bool :=
  match t.resolve path with
  | .ok _ => true
  | .error _ => false

/-- The text of the file at a path. -/
def readText (t : Tree) (path : String) : Except FileFault String := do
  match ← t.resolve path with
  | .above _ => .error .isDirectory
  | .at names =>
    match t.entry? names with
    | some (.file content) =>
      match String.fromUTF8? content with
      | some text => .ok text
      | none => .error .notText
    | some .directory => .error .isDirectory
    | none => .error .notFound

def view (t : Tree) : View := { contains := t.contains, readText := t.readText }

/-- The tree with one more entry. -/
def insert (t : Tree) (path : String) (e : Entry) : Tree :=
  { entries := t.entries ++ [(steps path, e)] }

end Tree
end Files
end AdaptiveBatch
