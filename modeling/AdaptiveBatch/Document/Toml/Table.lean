import AdaptiveBatch.Document.Tree

/-!
# Tables under construction

The lines of a TOML text build up a tree.  How a table came about decides what may
still be added to it: a header opens a table once, a dotted key opens tables that
no header can open again, and a value written in one piece is closed.
-/

namespace AdaptiveBatch
namespace Toml

/-- A dotted key: the tables on the way, and the name in the last one. -/
structure Key where
  parents : List String
  last : String
  deriving DecidableEq, Repr

/-- How a table came about. -/
inductive Origin where
  | header
  /-- On the way to the table of a header. -/
  | implicit
  /-- On the way to the value of a dotted key. -/
  | dotted
  deriving DecidableEq, Repr

inductive Node where
  | value (d : Document)
  | table (origin : Origin) (members : List (String × Node))
  /-- An array of tables, the latest first. -/
  | tables (latest : List (List (String × Node)))

abbrev Members := List (String × Node)

/-- Changes the member of a name, which may be missing before. -/
def update (name : String) (change : Option Node → Option Node) : Members → Option Members
  | [] => (change none).map fun n => [(name, n)]
  | (k, n) :: rest =>
    if k = name then (change (some n)).map fun n => (k, n) :: rest
    else (update name change rest).map ((k, n) :: ·)

/-- Changes the last table of an array of tables. -/
def changeLatest (change : Members → Option Members) :
    List Members → Option Node
  | [] => none
  | ms :: rest => (change ms).map fun ms => .tables (ms :: rest)

/-- Adds a value under a dotted key.  `fits` says whether the present table takes
values at this depth: the table of the line does for a plain key, and for a dotted
one only a table that dotted keys have opened. -/
def put (last : String) (d : Document) : Bool → List String → Members → Option Members
  | fits, [], ms =>
    if fits then
      update last (fun
        | none => some (.value d)
        | some _ => none) ms
    else none
  | _, name :: rest, ms =>
    update name (fun
      | none => (put last d true rest []).map (.table .dotted)
      | some (.table .header _) => none
      | some (.table o ts) => (put last d (o = .dotted) rest ts).map (.table o)
      | some (.tables latest) => changeLatest (put last d false rest) latest
      | some (.value _) => none) ms

/-- Changes the table that a header leads to, opening tables on the way. -/
def descend (change : Members → Option Members) : List String → Members → Option Members
  | [], ms => change ms
  | name :: rest, ms =>
    update name (fun
      | none => (descend change rest []).map (.table .implicit)
      | some (.table o ts) => (descend change rest ts).map (.table o)
      | some (.tables latest) => changeLatest (descend change rest) latest
      | some (.value _) => none) ms

/-- Opens the table of a header. -/
def openTable (k : Key) : Members → Option Members :=
  descend
    (update k.last fun
      | none => some (.table .header [])
      | some (.table .implicit ts) => some (.table .header ts)
      | some _ => none)
    k.parents

/-- Adds a table to an array of tables. -/
def addTable (k : Key) : Members → Option Members :=
  descend
    (update k.last fun
      | none => some (.tables [[]])
      | some (.tables latest) => some (.tables ([] :: latest))
      | some _ => none)
    k.parents

/-! ## Finished trees -/

mutual

def Node.document : Node → Document
  | .value d => d
  | .table _ ms => .table (documents ms)
  | .tables latest => .list (tableList latest).reverse

def documents : List (String × Node) → List (String × Document)
  | [] => []
  | (k, n) :: rest => (k, n.document) :: documents rest

def tableList : List (List (String × Node)) → List Document
  | [] => []
  | ms :: rest => .table (documents ms) :: tableList rest

end

end Toml
end AdaptiveBatch
