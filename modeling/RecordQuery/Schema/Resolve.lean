import RecordQuery.ColumnPath
import RecordQuery.Schema.Member

/-!
# Resolution

Finding the members that a column path names. A segment names the member that is spelt like it;
otherwise the one member that differs from it in letter case only; otherwise, if asked for, the one
member with such an alternate name.

* `candidates` lists the members that a segment may name;
* `Schema.resolve` turns a path into a chain of members, a `ResolvedColumn`, each hop of which
  starts where the one before it ends.
-/

namespace RecordQuery

open Text

/-- The members that a segment may name. -/
def candidates (members : List Member) (segment : String) (fallback : Bool) : List Member :=
  match members.find? fun m => m.name == segment with
  | some m => [m]
  | none =>
    let key := foldKey segment
    let found := members.filter fun m => foldKey m.name == key
    if found.isEmpty && fallback then
      members.filter fun m => m.alternates.any fun a => foldKey a == key
    else found

/-- One step of a path: a member of an owner type. -/
structure Hop where
  name : String
  owner : TypeExpr
  type : TypeExpr
  nullable : Bool
  relationship : Bool
  deriving DecidableEq

/-- The hop from an owner type to one of its members. -/
def Hop.ofMember (owner : TypeExpr) (m : Member) : Hop :=
  ⟨m.name, owner, m.type, m.nullable, m.relationship⟩

/-- A column path with the members that it names: those passed through, and the last one. -/
structure ResolvedColumn where
  path : ColumnPath
  leading : List Hop
  terminal : Hop
  deriving DecidableEq

namespace ResolvedColumn

/-- All hops in order. -/
def hops (c : ResolvedColumn) : List Hop := c.leading ++ [c.terminal]

/-- The names of the members in order. -/
def memberNames (c : ResolvedColumn) : List String := c.hops.map Hop.name

/-- The written form with the members' own names. -/
def text (c : ResolvedColumn) : String := join "." c.memberNames

/-- The type of the values that the column holds. -/
def type (c : ResolvedColumn) : TypeExpr := c.terminal.type

/-- The type of the elements, if the column is a collection. -/
def element? (c : ResolvedColumn) : Option TypeExpr := c.type.element?

/-- Whether the column is a collection. -/
def isCollection (c : ResolvedColumn) : Bool := c.element?.isSome

end ResolvedColumn

namespace Schema

/-- The member of a type that a segment of a path names. -/
def resolveSegment (s : Schema) (fallback : Bool) (path : ColumnPath) (owner : TypeExpr)
    (segment : String) : Except Error Hop :=
  match s.members? owner with
  | .error fault => .error (.fault fault)
  | .ok none => .error (.resolution (.of path.text segment owner.name [] .noMembers))
  | .ok (some members) =>
    match candidates members segment fallback with
    | [m] => .ok (Hop.ofMember owner m)
    | [] =>
      .error (.resolution (.of path.text segment owner.name (members.map Member.name) .noMember))
    | several =>
      .error (.resolution (.of path.text segment owner.name (members.map Member.name)
        (.ambiguous (several.map Member.name))))

/-- The hops that segments name one after the other. Only the last member may be a collection. -/
def resolveFrom (s : Schema) (fallback : Bool) (path : ColumnPath) :
    TypeExpr → String → List String → Except Error (List Hop × Hop)
  | owner, segment, [] => (s.resolveSegment fallback path owner segment).map fun hop => ([], hop)
  | owner, segment, next :: rest => do
    let hop ← s.resolveSegment fallback path owner segment
    if hop.type.element?.isSome then
      .error (.resolution (.of path.text segment owner.name [] (.collection hop.name)))
    else
      let (leading, terminal) ← s.resolveFrom fallback path hop.type next rest
      .ok (hop :: leading, terminal)

/-- The members that a path names, starting at a type. -/
def resolve (s : Schema) (fallback : Bool) (type : TypeExpr) (path : ColumnPath) :
    Except Error ResolvedColumn :=
  match h : path.segments with
  | [] => absurd h path.nonempty
  | segment :: rest =>
    (s.resolveFrom fallback path type segment rest).map fun r => ⟨path, r.1, r.2⟩

end Schema
end RecordQuery
