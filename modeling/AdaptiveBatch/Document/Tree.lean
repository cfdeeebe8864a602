/-!
# Documents

What a text in one of the file formats says, before anybody asks what it means: a
tree of tables, lists and scalars.  An outline is the part of such trees that this
library writes: members, and sections of members.
-/

namespace AdaptiveBatch

inductive Scalar where
  | null
  | bool (value : Bool)
  | integer (value : Int)
  | real (value : Float)
  | text (value : String)

inductive Document where
  | scalar (value : Scalar)
  /-- A date, a time or both. -/
  | moment
  /-- Well-formed text that stands for no value, such as a number beyond all
  bounds.  It does no harm where nobody asks for the value. -/
  | broken
  | list (items : List Document)
  | table (members : List (String × Document))

structure Outline where
  members : List (String × Scalar)
  sections : List (String × List (String × Scalar))

/-- The members as a table. -/
def Document.ofMembers (ms : List (String × Scalar)) : Document :=
  .table (ms.map fun (name, s) => (name, .scalar s))

/-- The whole outline as a table, its sections after its own members. -/
def Outline.document (o : Outline) : Document :=
  .table (o.members.map (fun (name, s) => (name, Document.scalar s)) ++
    o.sections.map fun (name, ms) => (name, Document.ofMembers ms))

end AdaptiveBatch
