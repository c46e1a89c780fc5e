import RecordQuery.Fingerprint

/-!
# Caches

A cache keeps what has been made for a key, and counts how often it was found.

* `Cache.getOrCreate` finds an entry or makes it; what fails to be made is not kept;
* `Cache.Statistics` are the counts, with the share of look-ups that found something;
* `compileShared` finds the predicate of a filter under its fingerprint.
-/

namespace RecordQuery

/-- Entries by key, with the numbers of look-ups that found one and that did not. -/
structure Cache (κ α : Type) where
  entries : List (κ × α)
  hits : Nat
  misses : Nat

namespace Cache

variable {κ α ε : Type} [DecidableEq κ]

/-- The cache without entries and counts. -/
def empty : Cache κ α := ⟨[], 0, 0⟩

instance : Inhabited (Cache κ α) := ⟨⟨[], 0, 0⟩⟩

/-- The entry of a key, without counting the look-up. -/
def get? (c : Cache κ α) (key : κ) : Option α := (c.entries.find? fun e => e.1 == key).map Prod.snd

/-- Whether there is an entry for a key. -/
def contains (c : Cache κ α) (key : κ) : Bool := (c.get? key).isSome

/-- The number of entries. -/
def size (c : Cache κ α) : Nat := c.entries.length

/-- The entry of a key, which is made if there is none. A failure counts as a look-up that found
nothing and adds no entry. -/
def getOrCreate (c : Cache κ α) (key : κ) (make : Unit → Except ε α) : Except ε α × Cache κ α :=
  match c.get? key with
  | some a => (.ok a, { c with hits := c.hits + 1 })
  | none =>
    match make () with
    | .ok a => (.ok a, { c with entries := c.entries ++ [(key, a)], misses := c.misses + 1 })
    | .error e => (.error e, { c with misses := c.misses + 1 })

/-- The cache after all entries and counts are dropped. -/
def clear (_ : Cache κ α) : Cache κ α := empty

/-- Counts of look-ups and entries. -/
structure Statistics where
  hits : Int
  misses : Int
  entries : Int
  deriving DecidableEq, Repr

/-- The counts of a cache. -/
def statistics (c : Cache κ α) : Statistics := ⟨c.hits, c.misses, c.size⟩

/-- The number of look-ups. -/
def Statistics.total (s : Statistics) : Int := s.hits + s.misses

/-- The share of look-ups that found an entry, zero before the first one. -/
def Statistics.hitRatio (s : Statistics) : Binary64 :=
  if s.total = 0 then Binary64.zero false
  else
    Binary64.nearest (decide (s.hits < 0) != decide (s.total < 0)) s.hits.natAbs s.total.natAbs

end Cache

/-! ### Shared predicates -/

/-- A predicate with the number of the request that it was made for. -/
structure Compiled where
  request : Nat
  predicate : Predicate

/-- Whether two predicates are one: the two that look at nothing exist once, and any other was made
for a request of its own. -/
def Compiled.isSame (p q : Compiled) : Bool :=
  match p.predicate, q.predicate with
  | .always, .always | .never, .never => true
  | _, _ => !p.predicate.isConstant && !q.predicate.isConstant && p.request == q.request

/-- The keys of a cache of predicates that also keeps other things. -/
inductive CacheKey where
  | label (text : String)
  | filter (fingerprint : Fingerprint)
  deriving DecidableEq

/-- The predicate of a list of filters from a cache, where it is compiled at most once for each
fingerprint. A filter that does not fit its type is not looked up. -/
def compileShared {α : Type} (keep : Compiled → α) (s : Schema) (options : Options)
    (workspace : Workspace) (registry : Registry Strategy) (type : TypeExpr)
    (filters : List Filter) (request : Nat) (cache : Cache CacheKey α) :
    Except Error α × Cache CacheKey α :=
  -- the fingerprint comes first, and a failure of it is not counted
  match Fingerprint.of s workspace options type filters with
  | .error e => (.error e, cache)
  | .ok fingerprint =>
    cache.getOrCreate (.filter fingerprint) fun _ =>
      (compileFilter s options registry type filters).map fun p => keep ⟨request, p⟩

end RecordQuery
