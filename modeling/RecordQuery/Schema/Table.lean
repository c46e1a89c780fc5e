import RecordQuery.Schema.TypeExpr

/-!
# Tables

How a record type is stored in a table: its columns, and its relations to other mapped types by
foreign keys.

* `Table` is the description of a table, with `Column` and `Relation` as its parts;
* `SqlType.ofDeclaration` reads a database type, and `SqlType.valueType` is the type of the values
  that a column of one holds.
-/

namespace RecordQuery

open Text

/-- The database types of columns. -/
inductive SqlType where
  | integer
  | text
  | boolean
  | float
  | date
  | dateTime
  | uuid
  | enumeration (name : String)
  | array
  /-- Structured data, or a type that the database does not tell. -/
  | structured
  /-- A type whose values have no type of their own. -/
  | opaqueType
  deriving DecidableEq, Repr

/-- The database types that one word declares. -/
def SqlType.words : List (String × SqlType) :=
  [("Integer", integer), ("String", text), ("Boolean", boolean), ("Float", float), ("Date", date),
    ("DateTime", dateTime), ("Uuid", uuid), ("ARRAY", array), ("JSON", structured),
    ("NullType", structured)]

/-- The database type that a text declares: a word, or the name of an enumeration after a colon.
Any other word declares a type that is not known. -/
def SqlType.ofDeclaration (s : String) : SqlType :=
  match words.lookup s, cut ':' s.toList with
  | some t, _ => t
  | none, some (_, name) => enumeration (String.ofList name)
  | none, none => opaqueType

/-- The table in a reference to a column of a table. -/
def tableIn? (reference : String) : Option String :=
  (cut '.' reference.toList).map fun p => String.ofList p.1

/-- The type of the values in a column. -/
def SqlType.valueType : SqlType → TypeExpr
  | integer => .scalar .integer
  | text => .scalar .text
  | boolean => .scalar .boolean
  | float => .scalar .float
  | date => .scalar .date
  | dateTime => .scalar .dateTime
  | uuid => .scalar .uuid
  | enumeration name => .named name
  | array => .bare .list
  | structured => .object
  | opaqueType => .anything

/-- A column of a table: the member that it stores, its name in the database, and the table whose
key it refers to. -/
structure Column where
  member : String
  label : String
  type : SqlType
  nullable : Bool
  references : Option String
  deriving DecidableEq, Repr

/-- How a row is related to rows of another table: its own column holds their key, or their
foreign key holds its own. -/
inductive Link where
  | toOne (column : String)
  | toMany
  deriving DecidableEq, Repr

/-- A relation to another mapped type. -/
structure Relation where
  member : String
  target : String
  link : Link
  deriving DecidableEq, Repr

/-- A table with its columns and relations in order, which have different names. -/
structure Table where
  name : String
  columns : List Column
  relations : List Relation
  distinct : (columns.map Column.member ++ relations.map Relation.member).Nodup
  deriving DecidableEq, Repr

/-- The last declaration of each name, in order. -/
def latest {α : Type} (name : α → String) : List α → List α
  | [] => []
  | a :: as => if as.any fun b => name b == name a then latest name as else a :: latest name as

theorem mem_of_mem_latest {α : Type} {name : α → String} {a : α} :
    ∀ {as : List α}, a ∈ latest name as → a ∈ as
  | b :: bs, h => by
    unfold latest at h
    split at h
    · exact List.mem_cons_of_mem b (mem_of_mem_latest h)
    · obtain rfl | h := List.mem_cons.mp h
      · exact List.mem_cons_self
      · exact List.mem_cons_of_mem b (mem_of_mem_latest h)

theorem nodup_latest {α : Type} (name : α → String) :
    ∀ as : List α, ((latest name as).map name).Nodup
  | [] => List.nodup_nil
  | a :: as => by
    unfold latest
    split
    · exact nodup_latest name as
    · next hnone =>
      refine List.nodup_cons.mpr ⟨fun hmem => ?_, nodup_latest name as⟩
      obtain ⟨b, hb, hname⟩ := List.mem_map.mp hmem
      exact hnone (List.any_eq_true.mpr ⟨b, mem_of_mem_latest hb, beq_iff_eq.mpr hname⟩)

/-- The member that stores the key of a row. -/
def Table.keyMember : String := "id"

namespace Table

/-- The table of some declarations, in which a later one takes the place of an earlier one of the
same name, and a relation that of a column. -/
def ofDeclarations (name : String) (columns : List Column) (relations : List Relation) : Table where
  name := name
  columns := (latest Column.member columns).filter fun c =>
    !relations.any fun r => r.member == c.member
  relations := latest Relation.member relations
  distinct := by
    refine List.nodup_append.mpr ⟨?_, nodup_latest Relation.member relations, ?_⟩
    · exact (nodup_latest Column.member columns).sublist (List.filter_sublist.map Column.member)
    · intro m hcolumn n hrelation hsame
      obtain ⟨c, hc, rfl⟩ := List.mem_map.mp hcolumn
      obtain ⟨r, hr, rfl⟩ := List.mem_map.mp hrelation
      have hkept := (List.mem_filter.mp hc).2
      have hnamed : relations.any (fun r => r.member == c.member) = true :=
        List.any_eq_true.mpr ⟨r, mem_of_mem_latest hr, beq_iff_eq.mpr hsame.symm⟩
      rw [hnamed] at hkept
      cases hkept

/-- The column of a member. -/
def column? (t : Table) (member : String) : Option Column :=
  t.columns.find? fun c => c.member == member

/-- The relation of a member. -/
def relation? (t : Table) (member : String) : Option Relation :=
  t.relations.find? fun r => r.member == member

/-- The column that refers to the key of another table. -/
def referenceTo? (t : Table) (other : String) : Option Column :=
  t.columns.find? fun c => c.references == some other

end Table
end RecordQuery
