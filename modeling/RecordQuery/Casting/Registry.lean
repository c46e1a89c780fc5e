import RecordQuery.Casting
import RecordQuery.Value.Compare

/-!
# Named casts

Tables of casts under keys. A table is given as it is, or as a maker that is run whenever the table
is asked for.

* `CastRegistry` holds the tables; `CastRegistry.resolve` finds one.

Tables are told apart by numbers, which they get in the order in which they come into being: a
given one when it is registered, a made one whenever it is made.
-/

namespace RecordQuery

/-- A table with its number. -/
structure NumberedCast where
  number : Nat
  options : CastOptions

/-- A table that is given, or the outcome of making one. -/
inductive CastSource where
  | given (cast : NumberedCast)
  | made (options : Except Error CastOptions)

/-- Tables by key, and the number of tables so far. -/
structure CastRegistry where
  entries : List (Value × CastSource)
  count : Nat

namespace CastRegistry

/-- The registry without tables. -/
def empty : CastRegistry := ⟨[], 0⟩

instance : Inhabited CastRegistry := ⟨empty⟩

/-- Whether two keys are equal. -/
def sameKey (key other : Value) : Bool :=
  match key.eq other with
  | .ok b => b
  | .error _ => false

/-- A value as a key, which has to be one that cannot change. -/
def keyOf (v : Value) : Except Error Value :=
  if v.isFixed then .ok v else .error (.fault .unsupported)

/-- The table of a key. -/
def find? (r : CastRegistry) (key : Value) : Option CastSource :=
  (r.entries.find? fun e => sameKey e.1 key).map Prod.snd

/-- Whether there is a table for a key. -/
def has (r : CastRegistry) (key : Value) : Bool := (r.find? key).isSome

/-- The registry with a table for a key. -/
def register (r : CastRegistry) (key : Value) (options : CastOptions) : CastRegistry :=
  ⟨(key, .given ⟨r.count, options⟩) :: r.entries, r.count + 1⟩

/-- The registry with a maker for a key. -/
def registerMaker (r : CastRegistry) (key : Value) (options : Except Error CastOptions) :
    CastRegistry :=
  { r with entries := (key, .made options) :: r.entries }

/-- The registry without the table of a key. -/
def unregister (r : CastRegistry) (key : Value) : CastRegistry :=
  { r with entries := r.entries.filter fun e => !sameKey e.1 key }

/-- The table of a key, and the registry in which it has its number. -/
def resolve (r : CastRegistry) (key : Value) : Except Error (NumberedCast × CastRegistry) :=
  match r.find? key with
  | none => .error (.misuse (.noCast key.display))
  | some (.given cast) => .ok (cast, r)
  | some (.made options) => options.map fun o => (⟨r.count, o⟩, { r with count := r.count + 1 })

end CastRegistry
end RecordQuery
