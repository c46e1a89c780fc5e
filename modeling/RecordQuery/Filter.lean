import RecordQuery.ColumnPath
import RecordQuery.Operator
import RecordQuery.Value.Combine
import RecordQuery.Value.Text

/-!
# Filters

A filter is a tree of conditions. A leaf tests one column against a raw text; a group combines
filters with `and` or `or`; a quantified filter holds when some or every element of a collection
column satisfies all of its conditions.

The conditions below a quantifier are kept *qualified*: their columns begin with the quantified
column, so every column in a tree is a full path from the record that the filter is about.

* `Filter` is the tree; `Filter.leaves` and `Filter.columns` list what it mentions;
* `Filter.qualify` puts a path in front of all columns;
* `Filter.agrees` compares filters by what their raw texts say;
* `Filter.compose` builds a group or a quantified filter from unqualified conditions, and
  `Filter.ofQualified` from qualified ones;
* `LeafArgs` and `NodeArgs` are the arguments of a caller that may be wrong, `NodePart` a part
  that may be no filter.
-/

namespace RecordQuery

/-- A tree of conditions. -/
inductive Filter where
  | leaf (column : ColumnPath) (operator : Operator) (value : RawText)
  | group (connective : Connective) (children : List Filter)
  | quantified (quantifier : Quantifier) (column : ColumnPath) (children : List Filter)

namespace Filter

instance : Inhabited Filter := ⟨group .and []⟩

/-! ### Equality -/

mutual

/-- Decides whether two filters are equal. -/
def same : Filter → Filter → Bool
  | leaf c o v, leaf c' o' v' => c = c' && o = o' && v = v'
  | group k cs, group k' cs' => k = k' && sameAll cs cs'
  | quantified q c cs, quantified q' c' cs' => q = q' && c = c' && sameAll cs cs'
  | _, _ => false
termination_by structural f => f

/-- Decides whether two lists of filters are equal. -/
def sameAll : List Filter → List Filter → Bool
  | [], [] => true
  | f :: fs, g :: gs => same f g && sameAll fs gs
  | _, _ => false
termination_by structural fs => fs

end

mutual

theorem same_iff : ∀ f g : Filter, same f g = true ↔ f = g
  | leaf c o v, g => by cases g <;> simp [same, and_assoc]
  | group k cs, g => by cases g <;> simp [same, sameAll_iff cs]
  | quantified q c cs, g => by cases g <;> simp [same, sameAll_iff cs, and_assoc]

theorem sameAll_iff : ∀ fs gs : List Filter, sameAll fs gs = true ↔ fs = gs
  | [], gs => by cases gs <;> simp [sameAll]
  | f :: fs, gs => by cases gs <;> simp [sameAll, same_iff f, sameAll_iff fs]

end

instance : DecidableEq Filter := fun f g => decidable_of_iff _ (same_iff f g)

mutual

/-- The filter with all raw texts as they are, without the names of members of enumerations. -/
def unnamed : Filter → Filter
  | leaf c o v => leaf c o (.plain v.text)
  | group k cs => group k (unnamedAll cs)
  | quantified q c cs => quantified q c (unnamedAll cs)
termination_by structural f => f

/-- The filters with all raw texts as they are. -/
def unnamedAll : List Filter → List Filter
  | [] => []
  | f :: fs => unnamed f :: unnamedAll fs
termination_by structural fs => fs

end

/-- Whether two filters are equal up to the names of members of enumerations. -/
def agrees (f g : Filter) : Bool := f.unnamed == g.unnamed

/-! ### What a filter mentions -/

mutual

/-- The leaves of a filter from left to right. -/
def leaves : Filter → List (ColumnPath × Operator × RawText)
  | leaf c o v => [(c, o, v)]
  | group _ cs => leavesAll cs
  | quantified _ _ cs => leavesAll cs
termination_by structural f => f

/-- The leaves of several filters from left to right. -/
def leavesAll : List Filter → List (ColumnPath × Operator × RawText)
  | [] => []
  | f :: fs => leaves f ++ leavesAll fs
termination_by structural fs => fs

end

mutual

/-- The columns of leaves and quantifiers from left to right, a quantifier's before those of its
conditions. -/
def columns : Filter → List ColumnPath
  | leaf c _ _ => [c]
  | group _ cs => columnsAll cs
  | quantified _ c cs => c :: columnsAll cs
termination_by structural f => f

/-- The columns of several filters from left to right. -/
def columnsAll : List Filter → List ColumnPath
  | [] => []
  | f :: fs => columns f ++ columnsAll fs
termination_by structural fs => fs

end

/-! ### Qualification -/

mutual

/-- The filter with a path in front of every column. -/
def qualify (scope : ColumnPath) : Filter → Filter
  | leaf c o v => leaf (scope ++ c) o v
  | group k cs => group k (qualifyAll scope cs)
  | quantified q c cs => quantified q (scope ++ c) (qualifyAll scope cs)
termination_by structural f => f

/-- The filters with a path in front of every column. -/
def qualifyAll (scope : ColumnPath) : List Filter → List Filter
  | [] => []
  | f :: fs => qualify scope f :: qualifyAll scope fs
termination_by structural fs => fs

end

/-! ### Construction -/

/-- A group of conditions, or a quantified filter over a column whose conditions are relative to
the column. -/
def compose (operator : Combinator) (column : Option ColumnPath) (children : List Filter) :
    Except Error Filter :=
  match operator, column with
  | .connective k, none => .ok (group k children)
  | .connective k, some _ => .error (.grammar (.columnRefused k.word) none none)
  | .quantifier q, some c => .ok (quantified q c (qualifyAll c children))
  | .quantifier q, none => .error (.grammar (.columnRequired q.word) none none)

/-- A group of conditions, or a quantified filter over a column that the columns of its conditions
have to continue. -/
def ofQualified (operator : Combinator) (column : Option ColumnPath) (children : List Filter) :
    Except Error Filter :=
  match operator, column with
  | .connective k, none => .ok (group k children)
  | .connective k, some _ => .error (.grammar (.columnRefused k.word) none none)
  | .quantifier q, none => .error (.grammar (.columnRequired q.word) none none)
  | .quantifier q, some c =>
    match (columnsAll children).find? fun p => !p.isBelow c with
    | some p => .error (.inText (.notBelow p.text c.text) p.text)
    | none => .ok (quantified q c children)

/-- Both filters. -/
def both (f g : Filter) : Filter := group .and [f, g]

/-- One of two filters. -/
def either (f g : Filter) : Filter := group .or [f, g]

end Filter

/-! ### Unchecked arguments -/

/-- A part given for a condition: a filter, or a value that is none. -/
inductive NodePart where
  | node (f : Filter)
  | value (v : Value)

/-- The filters among parts that all have to be filters. -/
def NodePart.filters : List NodePart → Except Error (List Filter)
  | [] => .ok []
  | .node f :: ps => (filters ps).map (f :: ·)
  | .value v :: _ =>
    match v.shown with
    | .ok shown => .error (.misuse (.notANode shown))
    | .error fault => .error (.fault fault)

/-- The filter that a part is. -/
def NodePart.node? : NodePart → Option Filter
  | .node f => some f
  | .value _ => none

/-- Two parts under a connective. What is joined to a filter has to be a filter too; two values are
joined as values. -/
def NodePart.combine (k : Connective) : NodePart → NodePart → Except Error NodePart
  | .node f, part => do .ok (.node (.group k (← NodePart.filters [.node f, part])))
  | .value v, .value w => (liftFault (v.combine k w)).map .value
  | .value _, .node _ => .error (.fault .unsupported)

/-- What is made of parts that all have to be filters. The parts are met one after another, so an
error that the filters before the first other part cause wins over the one of that part. -/
def NodePart.withFilters {α : Type} (parts : List NodePart)
    (make : List Filter → Except Error α) : Except Error α :=
  match NodePart.filters parts with
  | .ok fs => make fs
  | .error _ => do
    let before := parts.takeWhile fun p => p.node?.isSome
    let _ ← make (before.filterMap node?)
    .error (.fault .missingMember)

/-- The value of a leaf: a text, or a value that is none. -/
def rawText (v : Value) : Except Error RawText :=
  match RawText.ofValue? v with
  | some raw => .ok raw
  | none => .error (.misuse (.valueNotText v.typeName))

/-- A word that has to name an operator exactly. -/
def wordOf {α : Type} (ofWord? : String → Option α) (s : String) : Except Error α :=
  match ofWord? s with
  | some a => .ok a
  | none => .error (.fault .invalidValue)

/-- The arguments of a leaf, checked in the order column, operator, value. -/
structure LeafArgs where
  column : ColumnArg
  operator : String
  value : Value

/-- The leaf that its arguments describe. -/
def LeafArgs.build (a : LeafArgs) : Except Error Filter := do
  let column ← a.column.resolve
  let operator ← wordOf Operator.ofWord? a.operator
  let value ← rawText a.value
  .ok (.leaf column operator value)

/-- The arguments of a group or a quantified filter. -/
structure NodeArgs where
  operator : String
  parts : List NodePart
  column : Option ColumnArg

namespace NodeArgs

/-- The column of a combinator: a quantifier has to have one, and only a quantifier may. -/
def checkedColumn (operator : Combinator) (column : Option ColumnArg) :
    Except Error (Option ColumnPath) :=
  match operator, column with
  | .quantifier _, some c => c.resolve.map some
  | .connective k, some _ => .error (.grammar (.columnRefused k.word) none none)
  | _, none => .ok none

/-- The filter whose conditions are relative to its column. -/
def build (a : NodeArgs) : Except Error Filter := do
  let operator ← wordOf Combinator.ofWord? a.operator
  let children ← NodePart.filters a.parts
  let column ← checkedColumn operator a.column
  Filter.compose operator column children

/-- The filter whose conditions are qualified already. The column is checked before the
conditions. -/
def buildQualified (a : NodeArgs) : Except Error Filter := do
  let operator ← wordOf Combinator.ofWord? a.operator
  let column ← checkedColumn operator a.column
  let _ ← Filter.compose operator column []
  let children ← NodePart.filters a.parts
  Filter.ofQualified operator column children

end NodeArgs
end RecordQuery
