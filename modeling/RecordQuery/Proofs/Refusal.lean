import RecordQuery.Proofs.Coercion
import RecordQuery.Proofs.Meaning
import RecordQuery.Proofs.Qualified

/-!
# Filters are refused with documented errors

A filter text is read, its columns are resolved, its operators are checked and its values are
converted. Each of these steps is refused with errors of one family, and nothing else escapes from
them, if the members of all types on the way are known, no value is converted to a duration, the
adapter only accepts and refuses, and the values of enumerations have texts.

* `FailsWith` — the errors that a computation can have.
* `Filter.failsWith_parseAll`, `Schema.failsWith_resolve`, `Schema.failsWith_coerce` — the families
  of the single steps.
* `Schema.Reaches` — the types that the columns of a filter can lead to.
* `Schema.Raises` — the faults that a schema brings into conversions.
* `failsWith_compileNode` — a walk over a tree stays among these types, and among these errors.
* `compileText_refused` — the result for filter texts.
* `compileText_fault_of_shifts` — another error escapes where the elements of a column are
  durations.
-/

namespace RecordQuery

open Text

/-! ### The errors of a computation -/

section FailsWith

variable {α β : Type} {P Q : Error → Prop}

/-- All errors that a computation can have are of some kind. -/
def FailsWith (P : Error → Prop) (x : Except Error α) : Prop := ∀ e, x = .error e → P e

theorem failsWith_ok (a : α) : FailsWith P (.ok a : Except Error α) := fun _ h => nomatch h

theorem failsWith_error {e : Error} (h : P e) : FailsWith P (.error e : Except Error α) := by
  intro e' he'
  cases he'
  exact h

theorem FailsWith.mono {x : Except Error α} (hx : FailsWith P x) (h : ∀ e, P e → Q e) :
    FailsWith Q x := fun e he => h e (hx e he)

theorem FailsWith.bind {x : Except Error α} {f : α → Except Error β} (hx : FailsWith P x)
    (hf : ∀ a, x = .ok a → FailsWith P (f a)) : FailsWith P (x >>= f) := by
  intro e h
  cases x with
  | ok a => exact hf a rfl e h
  | error e' =>
    cases h
    exact hx _ rfl

theorem FailsWith.map {x : Except Error α} (hx : FailsWith P x) (f : α → β) :
    FailsWith P (x.map f) :=
  hx.bind fun a _ => failsWith_ok (f a)

theorem failsWith_mapM {f : α → Except Error β} {as : List α}
    (hf : ∀ a ∈ as, FailsWith P (f a)) : FailsWith P (as.mapM f) := by
  induction as with
  | nil => exact failsWith_ok []
  | cons a as ih =>
    obtain ⟨ha, has⟩ := List.forall_mem_cons.mp hf
    rw [List.mapM_cons]
    exact ha.bind fun b _ => (ih has).bind fun bs _ => failsWith_ok (b :: bs)

end FailsWith

namespace Error

/-- A malformed text. -/
inductive IsGrammar : Error → Prop
  | intro (cause : GrammarCause) (text : Option RawText) (position : Option Nat) :
    IsGrammar (.grammar cause text position)

/-- A column that does not exist. -/
inductive IsResolution : Error → Prop
  | intro (failure : Resolution) : IsResolution (.resolution failure)

/-- A text that is no value of a type. -/
inductive IsCoercion : Error → Prop
  | intro (raw : RawText) (typeName : String) (cause : CoercionCause) :
    IsCoercion (.coercion raw typeName cause)

/-- An operator that a type does not support. -/
inductive IsMismatch : Error → Prop
  | intro (operator typeName : String) (column : Option String) (cause : MismatchCause) :
    IsMismatch (.mismatch operator typeName column cause)

/-- The errors that a filter is refused with, by the documentation. -/
def IsRefusal (e : Error) : Prop := e.IsGrammar ∨ e.IsResolution ∨ e.IsCoercion ∨ e.IsMismatch

theorem IsResolution.isRefusal {e : Error} (h : e.IsResolution) : e.IsRefusal := .inr (.inl h)

theorem IsCoercion.isRefusal {e : Error} (h : e.IsCoercion) : e.IsRefusal := .inr (.inr (.inl h))

theorem IsMismatch.isRefusal {e : Error} (h : e.IsMismatch) : e.IsRefusal := .inr (.inr (.inr h))

end Error

/-! ### Reading a text -/

theorem failsWith_splitArguments (cs : List Char) :
    FailsWith Error.IsGrammar (splitArguments cs) := by
  rw [splitArguments]
  split
  · exact failsWith_ok _
  · exact failsWith_error (.intro _ _ _)

theorem failsWith_callBody (cs : List Char) (index : Nat) :
    FailsWith Error.IsGrammar (callBody cs index) := by
  rw [callBody]
  split
  · exact failsWith_error (.intro _ _ _)
  · split
    · exact failsWith_ok _
    · exact failsWith_error (.intro _ _ _)

theorem failsWith_combinatorArguments (body text : List Char) :
    FailsWith Error.IsGrammar (combinatorArguments body text) := by
  refine (failsWith_splitArguments body).bind fun args _ => ?_
  split
  · exact failsWith_error (.intro _ _ _)
  · split
    · exact failsWith_error (.intro _ _ _)
    · exact failsWith_ok _

/-- A column is taken off every path that continues it, and off no other. -/
theorem ColumnPath.failsWith_relativeTo {P : Error → Prop} {p c : ColumnPath}
    (h : p.isBelow c = false → P (.misuse (.notBelow p.text c.text))) :
    FailsWith P (p.relativeTo c) := by
  rw [relativeTo]
  split
  · exact failsWith_ok _
  · next houtside => exact failsWith_error (h (Bool.eq_false_iff.mpr houtside))

theorem ColumnPath.failsWith_ofSegments (segments : List String) :
    FailsWith Error.IsGrammar (ofSegments segments) := by
  rw [ofSegments]
  split
  · exact failsWith_error (.intro _ _ _)
  · split
    · exact failsWith_ok _
    · split <;> exact failsWith_error (.intro _ _ _)

theorem ColumnPath.failsWith_parse (text : String) : FailsWith Error.IsGrammar (parse text) := by
  simp only [parse]
  split
  · exact failsWith_error (.intro _ _ _)
  · exact failsWith_ofSegments _

namespace Filter

theorem failsWith_readNested (depth : Nat) :
    ∀ cs : List Char, FailsWith Error.IsGrammar (readNested depth cs) := by
  induction depth with
  | zero => exact fun cs => failsWith_error (.intro _ _ _)
  | succ depth ih =>
    intro cs
    simp only [readNested]
    split
    · exact failsWith_error (.intro _ _ _)
    split
    · -- a group
      refine (failsWith_callBody _ _).bind fun body _ => ?_
      refine (failsWith_combinatorArguments body _).bind fun args _ => ?_
      exact (failsWith_mapM fun arg _ => ih arg).bind fun children _ => failsWith_ok _
    split
    · exact failsWith_error (.intro _ _ _)
    refine (ColumnPath.failsWith_parse _).bind fun column _ => ?_
    split
    · exact failsWith_error (.intro _ _ _)
    split
    · exact failsWith_ok _
    split
    · -- a quantified filter
      refine (failsWith_callBody _ _).bind fun body _ => ?_
      refine (failsWith_combinatorArguments body _).bind fun args _ => ?_
      exact (failsWith_mapM fun arg _ => ih arg).bind fun children _ => failsWith_ok _
    · exact (failsWith_callBody _ _).bind fun body _ => failsWith_ok _
    · exact failsWith_ok _

theorem failsWith_parseAll (text : String) : FailsWith Error.IsGrammar (parseAll text) := by
  rw [parseAll]
  split
  · exact failsWith_ok []
  · refine (failsWith_splitArguments _).bind fun args _ => ?_
    split
    · exact failsWith_error (.intro _ _ _)
    · exact failsWith_mapM fun arg _ => failsWith_readNested _ arg

/-- A quantified filter is put together, or a column is refused that is not below its own. -/
theorem failsWith_ofQualified (operator : Combinator) (column : Option ColumnPath)
    (fs : List Filter) : FailsWith Error.IsGrammar (ofQualified operator column fs) := by
  rw [ofQualified.eq_def]
  split
  · exact failsWith_ok _
  · exact failsWith_error (.intro _ _ _)
  · exact failsWith_error (.intro _ _ _)
  · split
    · exact failsWith_error (.intro _ _ _)
    · exact failsWith_ok _

end Filter

/-! ### The types that columns lead to -/

namespace Schema

/-- The types that columns lead to from a type: the type itself, the types of the members of such
types, and the types of their elements. -/
inductive Reaches (s : Schema) (root : TypeExpr) : TypeExpr → Prop
  | root : Reaches s root root
  | member {owner : TypeExpr} {members : List Member} {m : Member} (h : Reaches s root owner)
    (known : s.members? owner = .ok (some members)) (hm : m ∈ members) : Reaches s root m.type
  | element {t e : TypeExpr} (h : Reaches s root t) (he : t.element? = some e) : Reaches s root e

/-- The members of all types that columns lead to are known, or it is known that there are none. -/
def Described (s : Schema) (root : TypeExpr) : Prop :=
  ∀ t, s.Reaches root t → ∃ members, s.members? t = .ok members

/-- No column leads to durations, as values or as elements. -/
def WithoutDurations (s : Schema) (root : TypeExpr) : Prop :=
  ∀ t, s.Reaches root t → t.present.1 ≠ .scalar .duration

variable {s : Schema} {root owner : TypeExpr}

/-- A chain of members stays among the types that columns lead to. -/
theorem Chained.reaches {hops : List Hop} (h : s.Chained owner hops)
    (howner : s.Reaches root owner) : ∀ hop ∈ hops, s.Reaches root hop.type := by
  induction h with
  | nil => exact List.forall_mem_nil _
  | cons hms hm _ ih =>
    have hnext := howner.member hms hm
    exact List.forall_mem_cons.mpr ⟨hnext, ih hnext⟩

theorem reaches_of_resolve {fallback : Bool} {path : ColumnPath} {column : ResolvedColumn}
    (howner : s.Reaches root owner) (h : s.resolve fallback owner path = .ok column) :
    s.Reaches root column.type :=
  (chained_of_resolve h).reaches howner _ (List.mem_append_right _ List.mem_cons_self)

/-! ### The steps of a condition -/

/-- What looking up a column on a type fails with: a column that does not exist, or the members of a
type on the way, which cannot be told. -/
inductive LookUpFailure (s : Schema) (root : TypeExpr) : Error → Prop
  | missing (failure : Resolution) : LookUpFailure s root (.resolution failure)
  | unknown {t : TypeExpr} {fault : Fault} (reached : s.Reaches root t)
    (members : s.members? t = .error fault) : LookUpFailure s root (.fault fault)

theorem failsWith_resolveSegment (howner : s.Reaches root owner) (fallback : Bool)
    (path : ColumnPath) (segment : String) :
    FailsWith (s.LookUpFailure root) (s.resolveSegment fallback path owner segment) := by
  rw [resolveSegment]
  split
  · next fault hfault => exact failsWith_error (.unknown howner hfault)
  · exact failsWith_error (.missing _)
  · split
    · exact failsWith_ok _
    · exact failsWith_error (.missing _)
    · exact failsWith_error (.missing _)

theorem failsWith_resolveFrom (fallback : Bool) (path : ColumnPath) (rest : List String) :
    ∀ (owner : TypeExpr) (segment : String), s.Reaches root owner →
      FailsWith (s.LookUpFailure root) (s.resolveFrom fallback path owner segment rest) := by
  induction rest with
  | nil =>
    intro owner segment howner
    exact (failsWith_resolveSegment howner fallback path segment).map _
  | cons next rest ih =>
    intro owner segment howner
    refine (failsWith_resolveSegment howner fallback path segment).bind fun hop hhop => ?_
    split
    · exact failsWith_error (.missing _)
    · -- the next segment is looked up in a type that can be reached
      obtain ⟨members, m, hmembers, hm, rfl⟩ := resolveSegment_eq_ok hhop
      exact (ih _ next (howner.member hmembers hm)).bind fun _ _ => failsWith_ok _

theorem failsWith_lookUp (howner : s.Reaches root owner) (fallback : Bool) (path : ColumnPath) :
    FailsWith (s.LookUpFailure root) (s.resolve fallback owner path) := by
  rw [resolve]
  split
  · next h => exact absurd h path.nonempty
  · exact (failsWith_resolveFrom fallback path _ owner _ howner).map _

/-- Where the members of all types are known, a column is refused with resolution errors only. -/
theorem failsWith_resolve (described : s.Described root) (howner : s.Reaches root owner)
    (fallback : Bool) (path : ColumnPath) :
    FailsWith Error.IsResolution (s.resolve fallback owner path) := by
  refine (failsWith_lookUp howner fallback path).mono fun e h => ?_
  cases h with
  | missing failure => exact .intro failure
  | unknown reached members =>
    obtain ⟨known, hknown⟩ := described _ reached
    cases members.symm.trans hknown

/-- An operator is refused with mismatch errors only. -/
theorem failsWith_checkOperator (column : ResolvedColumn) (o : Operator) :
    FailsWith Error.IsMismatch (s.checkOperator column o) := by
  have hmismatch : ∀ cause,
      FailsWith Error.IsMismatch (.error (mismatch column o.word cause) : Except Error Unit) :=
    fun cause => failsWith_error (.intro _ _ _ cause)
  rw [checkOperator]
  split
  · exact hmismatch _
  split
  · exact hmismatch _
  split
  · exact hmismatch _
  · exact failsWith_ok ()

/-- The faults that come up elsewhere while a text is converted: those of the adapter, and those of
values of enumerations that have no text to be compared with. -/
inductive Raises (s : Schema) (f : Fault) : Prop
  | adapter {raw : RawText} {t : TypeExpr} (read : s.adapter.read raw t = .error (.fault f))
  | value {name : String} {e : EnumType} {m : String × Value} (found : s.enum? name = some e)
    (mem : m ∈ e.members) (shown : m.2.plainShown = .error f)

theorem not_raises_of_absent (hadapter : s.adapter = .absent) (henums : s.enums = []) (f : Fault) :
    ¬ s.Raises f := by
  rintro (read | found)
  · rw [hadapter] at read
    cases read
  · rw [enum?, henums] at found
    cases found

/-- What converting a text fails with: that it is no value of the type, or a fault from elsewhere. -/
inductive ConversionFailure (s : Schema) : Error → Prop
  | value {e : Error} (h : e.IsCoercion) : ConversionFailure s e
  | fault {f : Fault} (raises : s.Raises f) : ConversionFailure s (.fault f)

theorem ConversionFailure.isCoercion {e : Error} (h : s.ConversionFailure e)
    (definite : ∀ f, ¬ s.Raises f) : e.IsCoercion := by
  cases h with
  | value h => exact h
  | fault raises => exact absurd raises (definite _)

theorem failsWith_adapt (raw : RawText) (t : TypeExpr) :
    FailsWith s.ConversionFailure (s.adapt raw t) := by
  rw [adapt.eq_def]
  split
  · exact failsWith_ok _
  · exact failsWith_error (.value (.intro _ _ _))
  · exact failsWith_error (.value (.intro _ _ _))
  · next read => exact failsWith_error (.fault (.adapter read))

/-- The search for a value fails only at a value without a text. -/
theorem exists_of_findValue_error {key : List Char} {f : Fault} :
    ∀ {ms : List (String × Value)}, EnumType.findValue key ms = .error f →
      ∃ m ∈ ms, m.2.plainShown = .error f
  | [], h => by cases h
  | m :: ms, h => by
    rw [EnumType.findValue] at h
    cases hm : m.2.plainShown with
    | error f' =>
      rw [hm] at h
      cases h
      exact ⟨m, List.mem_cons_self, hm⟩
    | ok text =>
      rw [hm, ok_bind] at h
      split at h
      · cases h
      · -- a value with another text is passed over
        obtain ⟨n, hn, hshown⟩ := exists_of_findValue_error h
        exact ⟨n, List.mem_cons_of_mem m hn, hshown⟩

theorem failsWith_read {name : String} {e : EnumType} (found : s.enum? name = some e)
    (cs : List Char) : FailsWith s.ConversionFailure (liftFault (e.read cs)) := by
  intro error h
  rw [EnumType.read] at h
  split at h
  · cases h
  · -- no name fits, so that the texts of the values are made
    cases hvalue : EnumType.findValue (fold cs) e.distinct with
    | ok m =>
      rw [hvalue] at h
      cases h
    | error f =>
      rw [hvalue] at h
      cases h
      obtain ⟨m, hm, hshown⟩ := exists_of_findValue_error hvalue
      exact .fault (.value found (List.mem_filter.mp hm).1 hshown)

theorem failsWith_coerceText {t : TypeExpr} (ht : t ≠ .scalar .duration) (raw : RawText)
    (cs : List Char) : FailsWith s.ConversionFailure (s.coerceText raw cs t) := by
  rw [coerceText.eq_def]
  repeat' split
  all_goals first
    | exact absurd rfl ht
    | exact s.failsWith_adapt raw _
    | exact failsWith_ok _
    | exact failsWith_error (.value (.intro _ _ _))
    | skip
  · next e found =>
    -- names are looked at first, so a value without a text may do no harm
    refine (failsWith_read found cs).bind fun m _ => ?_
    split
    · exact failsWith_ok _
    · exact failsWith_error (.value (.intro _ _ _))

theorem failsWith_coerceScalar {P : Error → Prop} {type : TypeExpr}
    (h : ∀ raw cs, FailsWith P (s.coerceText raw cs type.present.1)) (raw : RawText) :
    FailsWith P (s.coerceScalar raw type) := by
  simp only [coerceScalar]
  split
  · exact failsWith_ok _
  split
  · exact failsWith_ok _
  · exact h raw _

theorem failsWith_coerceList {P : Error → Prop} {type : TypeExpr}
    (h : ∀ raw cs, FailsWith P (s.coerceText raw cs type.present.1)) (raw : RawText) :
    FailsWith P (s.coerceList raw type) := by
  rw [coerceList]
  split
  · exact failsWith_ok _
  · exact (failsWith_mapM fun p _ => failsWith_coerceScalar h _).bind fun vs _ => failsWith_ok _

/-- A value is refused as the texts of its type are, or as those of the type's elements. -/
theorem failsWith_coerce_of_text {P : Error → Prop} {type : TypeExpr}
    (h : ∀ t, t = type.present.1 ∨ type.element? = some t →
      ∀ raw cs, FailsWith P (s.coerceText raw cs t)) (raw : RawText) (o : Operator) :
    FailsWith P (s.coerce raw type o) := by
  obtain ⟨t, hpart, hone | hseveral⟩ := s.coerce_cases type o
  · rw [hone]
    exact failsWith_coerceScalar (h _ hpart) raw
  · rw [hseveral]
    exact failsWith_coerceList (h _ hpart) raw

/-- A value is refused with conversion errors only, unless it is converted to a duration or something
fails elsewhere. -/
theorem failsWith_coerce (apart : s.WithoutDurations root) {type : TypeExpr}
    (htype : s.Reaches root type) (raw : RawText) (o : Operator) :
    FailsWith s.ConversionFailure (s.coerce raw type o) := by
  refine failsWith_coerce_of_text (fun t hpart => failsWith_coerceText ?_) raw o
  obtain rfl | he := hpart
  · exact apart type htype
  · -- containment in a collection converts to its elements
    rw [← TypeExpr.present_element he]
    exact apart t (htype.element he)

theorem failsWith_resolveIn (described : s.Described root) (howner : s.Reaches root owner)
    (options : Options) {scope : Option ColumnPath} {path : ColumnPath}
    (hscope : ∀ c ∈ scope, path.isBelow c = true) :
    FailsWith Error.IsResolution (s.resolveIn options owner scope path) := by
  obtain ⟨q, hq⟩ := ColumnPath.exists_within hscope
  rw [resolveIn, hq]
  exact failsWith_resolve described howner options.fallback q

theorem reaches_of_resolveIn (howner : s.Reaches root owner) {options : Options}
    {scope : Option ColumnPath} {path : ColumnPath} {column : ResolvedColumn}
    (h : s.resolveIn options owner scope path = .ok column) : s.Reaches root column.type := by
  obtain ⟨q, -, hcolumn⟩ := bind_eq_ok_iff.mp h
  exact reaches_of_resolve howner hcolumn

theorem failsWith_condition (described : s.Described root) (apart : s.WithoutDurations root)
    (definite : ∀ f, ¬ s.Raises f) (howner : s.Reaches root owner) (options : Options)
    {scope : Option ColumnPath} {path : ColumnPath} (hscope : ∀ c ∈ scope, path.isBelow c = true)
    (o : Operator) (raw : RawText) : FailsWith Error.IsRefusal (s.condition options owner scope path o raw) := by
  have hresolve := failsWith_resolveIn described howner options hscope
  refine (hresolve.mono fun _ => Error.IsResolution.isRefusal).bind fun column hcolumn => ?_
  have hcheck := s.failsWith_checkOperator column o
  refine (hcheck.mono fun _ => Error.IsMismatch.isRefusal).bind fun _ _ => ?_
  have hcoerce := failsWith_coerce apart (reaches_of_resolveIn howner hcolumn) raw o
  have hrefused := hcoerce.mono fun _ h => (h.isCoercion definite).isRefusal
  exact hrefused.bind fun v _ => failsWith_ok _

end Schema

/-! ### The walk over a tree -/

section Walk

variable {s : Schema} {root : TypeExpr} {options : Options}

theorem failsWith_collection (described : s.Described root) {owner : TypeExpr}
    (howner : s.Reaches root owner) {scope : Option ColumnPath} {path : ColumnPath}
    (hscope : ∀ c ∈ scope, path.isBelow c = true) (q : Quantifier) :
    FailsWith Error.IsRefusal (Backend.collection s options owner scope q path) := by
  have hresolve := Schema.failsWith_resolveIn described howner options hscope
  refine (hresolve.mono fun _ => Error.IsResolution.isRefusal).bind fun column _ => ?_
  split
  · exact failsWith_ok _
  · have hmismatch : (Schema.mismatch column q.word .noCollection).IsMismatch := .intro _ _ _ _
    exact failsWith_error hmismatch.isRefusal

mutual

/-- A qualified tree below its scope is refused with documented errors only. -/
theorem failsWith_compileNode (described : s.Described root) (apart : s.WithoutDurations root)
    (definite : ∀ f, ¬ s.Raises f) :
    ∀ (f : Filter) (owner : TypeExpr) (scope : Option ColumnPath), s.Reaches root owner →
      f.Qualified → (∀ c ∈ scope, ∀ p ∈ f.columns, p.isBelow c = true) →
        FailsWith Error.IsRefusal ((usualBackend options).compileNode s options owner scope f)
  | .leaf path o raw, owner, scope, howner, _, hscope => by
    have hpath : ∀ c ∈ scope, path.isBelow c = true :=
      fun c hc => hscope c hc path List.mem_cons_self
    have hcondition := Schema.failsWith_condition described apart definite howner options hpath o raw
    refine hcondition.bind fun c _ => ?_
    -- every operator has its usual meaning
    rw [condition_usualBackend]
    exact failsWith_ok _
  | .group k fs, owner, scope, howner, hf, hscope =>
    (failsWith_compileAll described apart definite fs owner scope howner
      (Filter.qualified_group.mp hf) hscope).map _
  | .quantified q path fs, owner, scope, howner, hf, hscope => by
    obtain ⟨hcolumns, hfs⟩ := Filter.qualified_quantified.mp hf
    have hpath : ∀ c ∈ scope, path.isBelow c = true :=
      fun c hc => hscope c hc path List.mem_cons_self
    refine (failsWith_collection described howner hpath q).bind ?_
    rintro ⟨column, element⟩ hcollection
    obtain ⟨hcolumn, helement⟩ := collection_eq_ok_iff.mp hcollection
    -- the conditions are about the elements, whose type columns lead to as well
    have hreaches := (Schema.reaches_of_resolveIn howner hcolumn).element helement
    have hchildren : ∀ c ∈ some path, ∀ p ∈ Filter.columnsAll fs, p.isBelow c = true := by
      intro c hc p hp
      cases hc
      exact hcolumns p hp
    refine (failsWith_compileAll described apart definite fs element (some path) hreaches hfs
      hchildren).bind fun parts _ => ?_
    exact failsWith_ok _

theorem failsWith_compileAll (described : s.Described root) (apart : s.WithoutDurations root)
    (definite : ∀ f, ¬ s.Raises f) :
    ∀ (fs : List Filter) (owner : TypeExpr) (scope : Option ColumnPath), s.Reaches root owner →
      (∀ f ∈ fs, f.Qualified) → (∀ c ∈ scope, ∀ p ∈ Filter.columnsAll fs, p.isBelow c = true) →
        FailsWith Error.IsRefusal ((usualBackend options).compileAll s options owner scope fs)
  | [], _, _, _, _, _ => failsWith_ok []
  | f :: fs, owner, scope, howner, hfs, hscope => by
    obtain ⟨hf, hfs⟩ := List.forall_mem_cons.mp hfs
    have hfirst := failsWith_compileNode described apart definite f owner scope howner hf
      fun c hc p hp => hscope c hc p (List.mem_append_left _ hp)
    have hrest := failsWith_compileAll described apart definite fs owner scope howner hfs
      fun c hc p hp => hscope c hc p (List.mem_append_right _ hp)
    exact hfirst.bind fun part _ => hrest.bind fun parts _ => failsWith_ok (part :: parts)

end

end Walk

/-- What a filter text is made of is what is made of the filters that it denotes. -/
theorem FilterInput.withFilters_text {α : Type} (text : String)
    (make : List Filter → Except Error α) :
    (FilterInput.one (.value (.text text))).withFilters make = Filter.parseAll text >>= make := by
  show ((Filter.parseAll text).map (·.map NodePart.node) >>= fun parts =>
    NodePart.withFilters parts make) = _
  cases Filter.parseAll text with
  | error e => rfl
  | ok fs => exact NodePart.withFilters_map_node fs make

/-- **A filter text is compiled or refused.** For records of a type from which columns lead to
described types only, and to no durations, every text gives a predicate or one of the documented
errors, as long as the schema raises no faults of its own. -/
theorem compileText_refused {s : Schema} {type : TypeExpr} (described : s.Described type)
    (apart : s.WithoutDurations type) (definite : ∀ f, ¬ s.Raises f) (options : Options)
    (text : String) :
    let compiled := (FilterInput.one (.value (.text text))).withFilters
      (compileFilter s options Predicate.usualRegistry type)
    (∃ p, compiled = .ok p) ∨ ∃ e, compiled = .error e ∧ e.IsRefusal := by
  intro compiled
  have hrefused : FailsWith Error.IsRefusal compiled := by
    show FailsWith Error.IsRefusal (FilterInput.withFilters _ _)
    rw [FilterInput.withFilters_text]
    have hparse := (Filter.failsWith_parseAll text).mono fun _ h => (.inl h : Error.IsRefusal _)
    refine hparse.bind fun fs hfs => ?_
    show FailsWith Error.IsRefusal ((usualBackend options).compile s options type fs)
    rw [usualBackend_compile]
    -- what is parsed needs no more scopes than it has
    have hqualified := Filter.qualified_parseAll hfs
    exact (failsWith_compileAll described apart definite fs type none .root hqualified nofun).map _
  cases h : compiled with
  | ok p => exact .inl ⟨p, rfl⟩
  | error e => exact .inr ⟨e, rfl, hrefused e h⟩

namespace People

/-- A schema of people with their friends. -/
def schema : Schema :=
  ⟨[], [⟨"Person", [], .data
    [⟨"age", .scalar .integer, [], false, none⟩,
      ⟨"friends", .applied .list [.named "Person"], [], false, none⟩], []⟩], .absent⟩

theorem members_person : schema.members? (.named "Person") = .ok (some
    [⟨"age", .scalar .integer, false, [], false⟩,
      ⟨"friends", .applied .list [.named "Person"], false, [], false⟩]) := rfl

/-- Columns of people lead to numbers and back to people. -/
theorem reaches_cases {t : TypeExpr} (h : schema.Reaches (.named "Person") t) :
    t = .named "Person" ∨ t = .applied .list [.named "Person"] ∨ t = .scalar .integer := by
  induction h with
  | root => exact .inl rfl
  | member _ known hm ih =>
    obtain rfl | rfl | rfl := ih
    · -- a person has an age and friends
      cases members_person.symm.trans known
      obtain rfl | hm := List.mem_cons.mp hm
      · exact .inr (.inr rfl)
      · obtain rfl := List.mem_singleton.mp hm
        exact .inr (.inl rfl)
    · cases known
    · cases known
  | element _ he ih =>
    obtain rfl | rfl | rfl := ih
    · cases he
    · cases he
      exact .inl rfl
    · cases he

theorem described : schema.Described (.named "Person") := by
  intro t ht
  obtain rfl | rfl | rfl := reaches_cases ht
  · exact ⟨_, members_person⟩
  · exact ⟨none, rfl⟩
  · exact ⟨none, rfl⟩

theorem definite : ∀ f, ¬ schema.Raises f := Schema.not_raises_of_absent rfl rfl

theorem withoutDurations : schema.WithoutDurations (.named "Person") := by
  intro t ht
  obtain rfl | rfl | rfl := reaches_cases ht
  all_goals exact nofun

end People

/-- A text about people with a friend of no age is compiled or refused. -/
theorem compileText_refused_of_people :
    let compiled := (FilterInput.one (.value (.text "friends:any(age:gt(x))"))).withFilters
      (compileFilter People.schema .usual Predicate.usualRegistry (.named "Person"))
    People.schema.Described (.named "Person") ∧ People.schema.WithoutDurations (.named "Person") ∧
      ((∃ p, compiled = .ok p) ∨ ∃ e, compiled = .error e ∧ e.IsRefusal) :=
  ⟨People.described, People.withoutDurations,
    compileText_refused People.described People.withoutDurations People.definite .usual
      "friends:any(age:gt(x))"⟩

/-! ### Durations in a collection -/

namespace Shifts

/-- A schema of shifts with the gaps in them. -/
def schema : Schema :=
  ⟨[], [⟨"Shift", [], .data
    [⟨"gaps", .applied .list [.scalar .duration], [], false, none⟩], []⟩], .absent⟩

theorem members_shift : schema.members? (.named "Shift") =
    .ok (some [⟨"gaps", .applied .list [.scalar .duration], false, [], false⟩]) := rfl

/-- Columns of shifts lead to lists of durations, and to durations as their elements. -/
theorem reaches_cases {t : TypeExpr} (h : schema.Reaches (.named "Shift") t) :
    t = .named "Shift" ∨ t = .applied .list [.scalar .duration] ∨ t = .scalar .duration := by
  induction h with
  | root => exact .inl rfl
  | member _ known hm ih =>
    obtain rfl | rfl | rfl := ih
    · cases members_shift.symm.trans known
      obtain rfl := List.mem_singleton.mp hm
      exact .inr (.inl rfl)
    · cases known
    · cases known
  | element _ he ih =>
    obtain rfl | rfl | rfl := ih
    · cases he
    · cases he
      exact .inr (.inr rfl)
    · cases he

theorem described : schema.Described (.named "Shift") := by
  intro t ht
  obtain rfl | rfl | rfl := reaches_cases ht
  · exact ⟨_, members_shift⟩
  · exact ⟨none, rfl⟩
  · exact ⟨none, rfl⟩

/-- No column of shifts is a duration. -/
theorem type_ne_duration {owner : TypeExpr} {members : List Member} {m : Member}
    (howner : schema.Reaches (.named "Shift") owner)
    (known : schema.members? owner = .ok (some members)) (hm : m ∈ members) :
    m.type.present.1 ≠ .scalar .duration := by
  obtain rfl | rfl | rfl := reaches_cases howner
  · cases members_shift.symm.trans known
    obtain rfl := List.mem_singleton.mp hm
    exact nofun
  · cases known
  · cases known

end Shifts

/-- **Another error escapes where the elements of a column are durations.** No column of shifts is a
duration, but containment in the gaps converts to one, and the long s is read as a unit in any
letter case and is none in lower case. -/
theorem compileText_fault_of_shifts :
    let compiled := (FilterInput.one (.value (.text "gaps:ct(5ſ)"))).withFilters
      (compileFilter Shifts.schema .usual Predicate.usualRegistry (.named "Shift"))
    Shifts.schema.Described (.named "Shift") ∧
      (∀ owner members m, Shifts.schema.Reaches (.named "Shift") owner →
        Shifts.schema.members? owner = .ok (some members) → m ∈ members →
          m.type.present.1 ≠ .scalar .duration) ∧
      (∀ p, compiled ≠ .ok p) ∧ ∀ e, compiled = .error e → ¬ e.IsRefusal := by
  intro compiled
  have hparse : Filter.parseAll "gaps:ct(5ſ)" =
      .ok [.leaf ⟨["gaps"], by decide, by decide⟩ .ct (.plain "5ſ")] := by decide +kernel
  -- the long s is a letter of the pattern for durations, but names no unit of time
  have hinterval : Duration.readInterval (trim "5ſ".toList) = .error .unknownLetter := by
    decide +kernel
  -- what a list contains is converted as one of its elements
  have hcoerce : Shifts.schema.coerce (.plain "5ſ") (.applied .list [.scalar .duration]) .ct =
      .error (.fault .missingKey) := by
    show Shifts.schema.coerceText (.plain "5ſ") (trim "5ſ".toList) (.scalar .duration) = _
    rw [Schema.coerceText, hinterval]
    rfl
  have hcompiled : compiled = .error (.fault .missingKey) := by
    obtain ⟨column, hcolumn, hcheck, htype⟩ : ∃ column, Shifts.schema.resolveIn .usual
        (.named "Shift") none ⟨["gaps"], by decide, by decide⟩ = .ok column ∧
        Shifts.schema.checkOperator column .ct = .ok () ∧
        column.type = .applied .list [.scalar .duration] := ⟨_, rfl, rfl, rfl⟩
    show FilterInput.withFilters _ _ = _
    rw [FilterInput.withFilters_text, hparse, ok_bind, compileFilter, Backend.compile,
      Backend.compileNode, Schema.condition, hcolumn, ok_bind, hcheck, ok_bind, htype, hcoerce]
    rfl
  rw [hcompiled]
  refine ⟨Shifts.described, fun owner members m => Shifts.type_ne_duration, nofun, ?_⟩
  rintro e he (h | h | h | h)
  all_goals
    cases he
    cases h

end RecordQuery
