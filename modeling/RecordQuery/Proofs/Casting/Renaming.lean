import RecordQuery.Proofs.Casting.Outline
import RecordQuery.Proofs.Coercion
import RecordQuery.Proofs.Members

/-!
# Renamed record types

A record type with its members renamed is another record type, perhaps in another schema. Record
types that its members lead to are renamed with it, as types of members and as types of the elements
of collections.

* `Renaming` has the new names, and `Renaming.image` is a type under its new name.
* `Renaming.Fits` — one schema has the renamed types of another one.
* `Renaming.Path` — the renamed path of a column.
* `Schema.coerce_image`, `Schema.checkOperator_image` — a text means the same value for a renamed
  type, and operators fit it as before.
* `Renaming.exists_resolve` — a renamed path is resolved to the renamed members.

Names are read without regard to case where they are old and are written exactly where they are
new. So the old names of the members of a type have to differ in more than case, and of the new ones
nothing is needed.
-/

namespace RecordQuery

open Text

/-! ### Names in types -/

namespace TypeExpr

mutual

/-- The names of enumerations and record types in a type. -/
def names : TypeExpr → List String
  | named n => [n]
  | applied _ args => namesAll args
  | row e => names e
  | union _ parts => namesAll parts
  | annotated t => names t
  | _ => []
termination_by structural t => t

/-- The names in several types. -/
def namesAll : List TypeExpr → List String
  | [] => []
  | t :: ts => names t ++ namesAll ts
termination_by structural ts => ts

end

mutual

theorem names_present : ∀ t : TypeExpr, t.present.1.names ⊆ t.names
  | annotated t => names_present t
  | union form parts => by
    have hparts := names_presentParts parts
    rw [present]
    split
    · next t h =>
      rw [h] at hparts
      simpa [namesAll, names] using hparts
    · exact List.Subset.refl _
  | nothing | nullType => List.nil_subset _
  | scalar _ | anything | object | bare _ | unspecified _ | applied _ _ | row _ | literal _
  | named _ | forward _ | quoted _ | ellipsis | constant _ _ => List.Subset.refl _

theorem names_presentParts : ∀ ts : List TypeExpr, namesAll (presentParts ts) ⊆ namesAll ts
  | [] => List.nil_subset _
  | t :: ts => by
    rw [presentParts, namesAll]
    split
    · exact List.subset_append_of_subset_right _ (names_presentParts ts)
    · exact List.append_subset.mpr ⟨List.subset_append_of_subset_left _ (names_present t),
        List.subset_append_of_subset_right _ (names_presentParts ts)⟩

end

/-- The elements of a collection are of types that its own type mentions. -/
theorem names_element {t e : TypeExpr} (h : t.element? = some e) : e.names ⊆ t.names := by
  refine List.Subset.trans ?_ (names_present t)
  -- all names of the elements stand in the arguments of the collection
  rw [element?] at h
  split at h
  · split at h
    · cases h
      exact List.nil_subset _
    · cases h
  · split at h
    · cases h
      exact List.nil_subset _
    · cases h
  · next e' heq =>
    cases h
    rw [heq, names]
    exact names_present e'
  · next shape args heq =>
    split at h
    · split at h
      · cases h
        exact List.nil_subset _
      · next e' rest _ =>
        cases h
        rw [heq, names, namesAll]
        exact List.subset_append_of_subset_left _ (names_present e')
      · cases h
        exact List.nil_subset _
    · cases h
  · cases h

end TypeExpr

/-! ### Renamings -/

/-- New names for some record types and, for each of them, for its members. -/
structure Renaming where
  covers : String → Prop
  type : String → String
  member : String → String → String

namespace Renaming

variable (ρ : Renaming)

mutual

/-- A type with the new names of the types that it mentions. -/
def image : TypeExpr → TypeExpr
  | .named n => .named (ρ.type n)
  | .applied s args => .applied s (imageAll args)
  | .row e => .row (image e)
  | .union form parts => .union form (imageAll parts)
  | .annotated t => .annotated (image t)
  | t => t
termination_by structural t => t

/-- Several types with the new names of the types that they mention. -/
def imageAll : List TypeExpr → List TypeExpr
  | [] => []
  | t :: ts => image t :: imageAll ts
termination_by structural ts => ts

end

theorem isNull_image (t : TypeExpr) : (ρ.image t).isNull = t.isNull := by
  cases t <;> rfl

theorem isText_image (t : TypeExpr) : (ρ.image t).isText = t.isText := by
  cases t <;> rfl

theorem any_isNull_imageAll (ts : List TypeExpr) :
    (ρ.imageAll ts).any TypeExpr.isNull = ts.any TypeExpr.isNull := by
  induction ts with
  | nil => rfl
  | cons t ts ih => rw [imageAll, List.any_cons, List.any_cons, ih, isNull_image]

mutual

theorem present_image : ∀ t : TypeExpr,
    (ρ.image t).present = (ρ.image t.present.1, t.present.2)
  | .annotated t => present_image t
  | .union form parts => by
    have hparts := presentParts_imageAll parts
    rw [image, TypeExpr.present, TypeExpr.present, hparts, any_isNull_imageAll]
    -- renaming keeps the number of parts, and whether one is null
    match TypeExpr.presentParts parts with
    | [] => rfl
    | [_] => rfl
    | _ :: _ :: _ => rfl
  | .nothing | .nullType => rfl
  | .scalar _ | .anything | .object | .bare _ | .unspecified _ | .applied _ _ | .row _
  | .literal _ | .named _ | .forward _ | .quoted _ | .ellipsis | .constant _ _ => rfl

theorem presentParts_imageAll : ∀ ts : List TypeExpr,
    TypeExpr.presentParts (ρ.imageAll ts) = ρ.imageAll (TypeExpr.presentParts ts)
  | [] => rfl
  | t :: ts => by
    rw [imageAll, TypeExpr.presentParts, TypeExpr.presentParts, isNull_image]
    split
    · exact presentParts_imageAll ts
    · rw [present_image t, presentParts_imageAll ts, imageAll]

end

theorem element?_image (t : TypeExpr) : (ρ.image t).element? = t.element?.map ρ.image := by
  rw [TypeExpr.element?, TypeExpr.element?, present_image]
  generalize t.present.1 = u
  cases u with
  | bare s =>
    simp only [image]
    split <;> rfl
  | unspecified s =>
    simp only [image]
    split <;> rfl
  | row e => simp only [image, present_image, Option.map_some]
  | applied s args =>
    cases args with
    | nil => cases s <;> rfl
    | cons e rest => cases s <;> simp [image, imageAll, present_image, Shape.isCollection]
  | _ => rfl

end Renaming

/-! ### Schemas with renamed types -/

namespace Renaming

/-- A name stands for the same kind of type in two schemas: for the same enumeration, or for a type
whose values are ordered as before. Record types among them are renamed. -/
structure Keeps (ρ : Renaming) (s d : Schema) (n : String) : Prop where
  enum : d.enum? (ρ.type n) = s.enum? n
  no_enum : ρ.covers n → s.enum? n = none
  orderable : d.isOrderable (.named (ρ.type n)) = s.isOrderable (.named n)
  covered : (s.record? n).isSome → ρ.covers n

/-- All names in a type stand for the same kinds of types. -/
def Suits (ρ : Renaming) (s d : Schema) (t : TypeExpr) : Prop := ∀ n ∈ t.names, ρ.Keeps s d n

/-- A type mentions a renamed type. -/
def Mentions (ρ : Renaming) (t : TypeExpr) : Prop := ∃ n ∈ t.names, ρ.covers n

/-- The adapters of two schemas read the same for a type and its renamed form. Of what is read for a
type that mentions a renamed type, or for the elements of such a type, nothing has parts, and for a
renamed type itself nothing is read. -/
structure ReadsAlike (ρ : Renaming) (s d : Schema) : Prop where
  image {t : TypeExpr} {raw : RawText} {v : Value} (suits : ρ.Suits s d t)
    (read : s.adapter.read raw t = .ok v) : d.adapter.read raw (ρ.image t) = .ok v
  single {t u : TypeExpr} {raw : RawText} {v : Value} (mentions : ρ.Mentions t)
    (part : u = t.present.1 ∨ t.element? = some u) (read : s.adapter.read raw u = .ok v) :
    v.isComposite = false
  unread {n : String} (covered : ρ.covers n) (raw : RawText) (v : Value) :
    s.adapter.read raw (.named n) ≠ .ok v

theorem readsAlike_of_absent {ρ : Renaming} {s d : Schema} (h : s.adapter = .absent) :
    ρ.ReadsAlike s d where
  image _ read := by rw [h] at read; cases read
  single _ _ read := by rw [h] at read; cases read
  unread _ _ _ read := by rw [h] at read; cases read

/-- One schema has the renamed record types of another one. Every member of such a type is there
under its new name, with the renamed type. The old names differ in more than case. -/
structure Fits (ρ : Renaming) (s d : Schema) : Prop where
  adapters : ρ.ReadsAlike s d
  keeps {n : String} (covered : ρ.covers n) : ρ.Keeps s d n
  suits {n : String} {ms : List Member} {m : Member} (covered : ρ.covers n)
    (members : s.members? (.named n) = .ok (some ms)) (mem : m ∈ ms) : ρ.Suits s d m.type
  distinct {n : String} {ms : List Member} (covered : ρ.covers n)
    (members : s.members? (.named n) = .ok (some ms)) :
    (ms.map fun m => foldKey m.name).Nodup
  renamed {n : String} {ms : List Member} (covered : ρ.covers n)
    (members : s.members? (.named n) = .ok (some ms)) :
    ∃ ms', d.members? (.named (ρ.type n)) = .ok (some ms') ∧ ∀ m ∈ ms, ∃ m' ∈ ms',
      m'.name = ρ.member n m.name ∧ m'.type = ρ.image m.type ∧ m'.nullable = m.nullable

variable {ρ : Renaming} {s d : Schema}

theorem Suits.mono {t u : TypeExpr} (h : ρ.Suits s d t) (hsub : u.names ⊆ t.names) :
    ρ.Suits s d u :=
  fun n hn => h n (hsub hn)

end Renaming

/-! ### Values and operators of renamed types -/

namespace Schema

open Renaming

variable {ρ : Renaming} {s d : Schema} {t : TypeExpr} {raw : RawText} {v : Value}

theorem adapt_image (halike : ρ.ReadsAlike s d) (hsuits : ρ.Suits s d t)
    (h : s.adapt raw t = .ok v) : d.adapt raw (ρ.image t) = .ok v :=
  adapt_eq_ok_iff.mpr (halike.image hsuits (adapt_eq_ok_iff.mp h))

theorem coerceText_image (halike : ρ.ReadsAlike s d) (hsuits : ρ.Suits s d t) {cs : List Char}
    (h : s.coerceText raw cs t = .ok v) : d.coerceText raw cs (ρ.image t) = .ok v := by
  cases t with
  | scalar u =>
    cases u with
    | bytes => exact adapt_image halike hsuits h
    | byteArray => exact adapt_image halike hsuits h
    | _ => exact h
  | named n =>
    simp only [coerceText, image] at h ⊢
    -- an enumeration is found under the same name, with the same members
    rw [(hsuits n (List.mem_singleton_self n)).enum]
    split at h
    · obtain ⟨found, hfound, h⟩ := bind_eq_ok_iff.mp h
      rw [hfound, ok_bind]
      split at h
      · exact h
      · cases h
    · exact adapt_image halike hsuits h
  | _ => exact adapt_image halike hsuits h

theorem coerceScalar_image (halike : ρ.ReadsAlike s d) (hsuits : ρ.Suits s d t)
    (h : s.coerceScalar raw t = .ok v) :
    d.coerceScalar raw (ρ.image t) = .ok v := by
  simp only [coerceScalar, present_image, isText_image] at h ⊢
  split at h
  · next htext => rw [if_pos htext]; exact h
  · next htext =>
    rw [if_neg htext]
    split at h
    · next hblank => rw [if_pos hblank]; exact h
    · next hblank =>
      rw [if_neg hblank]
      exact coerceText_image halike (hsuits.mono (TypeExpr.names_present t)) h

theorem coerceList_image (halike : ρ.ReadsAlike s d) (hsuits : ρ.Suits s d t)
    (h : s.coerceList raw t = .ok v) :
    d.coerceList raw (ρ.image t) = .ok v := by
  rw [coerceList] at h ⊢
  split at h
  · next hblank => rw [if_pos hblank]; exact h
  · next hblank =>
    rw [if_neg hblank]
    obtain ⟨ws, hws, h⟩ := bind_eq_ok_iff.mp h
    refine bind_eq_ok_iff.mpr ⟨ws, mapM_eq_ok_iff.mpr ?_, h⟩
    exact (mapM_eq_ok_iff.mp hws).imp fun _ _ hw => coerceScalar_image halike hsuits hw

/-- **Texts mean the same.** What a column is compared with does not depend on names. -/
theorem coerce_image (halike : ρ.ReadsAlike s d) (hsuits : ρ.Suits s d t) {o : Operator}
    (h : s.coerce raw t o = .ok v) : d.coerce raw (ρ.image t) o = .ok v := by
  -- the way a text is read depends on kinds of types only, which renaming does not change
  have hpresent := hsuits.mono (TypeExpr.names_present t)
  simp only [coerce, present_image, isText_image, element?_image] at h ⊢
  split at h
  · next hlist => rw [if_pos hlist]; exact coerceList_image halike hpresent h
  · next hlist =>
    rw [if_neg hlist]
    split at h
    · next hcontainment =>
      rw [if_pos hcontainment]
      cases he : t.present.1.element? with
      | some e =>
        rw [he] at h
        exact coerceScalar_image halike (hpresent.mono (TypeExpr.names_element he)) h
      | none =>
        rw [he] at h
        simp only [Option.map_none] at h ⊢
        split at h
        · next htext => rw [if_pos htext]; exact coerceScalar_image halike hpresent h
        · next htext => rw [if_neg htext]; exact coerceList_image halike hpresent h
    · next hcontainment => rw [if_neg hcontainment]; exact coerceScalar_image halike hpresent h

theorem isOrderable_image (hsuits : ρ.Suits s d t) :
    d.isOrderable (ρ.image t) = s.isOrderable t := by
  cases t with
  | named n => exact (hsuits n (List.mem_singleton_self n)).orderable
  | _ => rfl

/-- **Operators fit as before.** -/
theorem checkOperator_image {column column' : ResolvedColumn} {o : Operator}
    (hsuits : ρ.Suits s d column.type) (htype : column'.type = ρ.image column.type)
    (h : s.checkOperator column o = .ok ()) : d.checkOperator column' o = .ok () := by
  have hcollection : column'.isCollection = column.isCollection := by
    rw [ResolvedColumn.isCollection, ResolvedColumn.isCollection, ResolvedColumn.element?,
      ResolvedColumn.element?, htype, element?_image, Option.isSome_map]
  rw [checkOperator_eq_ok_iff] at h ⊢
  rwa [htype, isText_image, hcollection, isOrderable_image hsuits]

end Schema

/-! ### Renamed paths -/

/-- Where a member leads: to its own type, or to the type of its elements. -/
def Member.inner (m : Member) : TypeExpr := m.type.element?.getD m.type

namespace Renaming

/-- A path from a type, which may lead through elements of collections, with the new names of the
members that it names and the type that it leads to. -/
inductive Path (ρ : Renaming) (s : Schema) : TypeExpr → List String → List String → TypeExpr → Prop
  | nil (owner : TypeExpr) : Path ρ s owner [] [] owner
  | cons {n : String} {ms : List Member} {m : Member} {segment : String}
      {segments renamed : List String} {t : TypeExpr} (covered : ρ.covers n)
      (members : s.members? (.named n) = .ok (some ms)) (mem : m ∈ ms)
      (name : foldKey segment = foldKey m.name) (rest : Path ρ s m.inner segments renamed t) :
      Path ρ s (.named n) (segment :: segments) (ρ.member n m.name :: renamed) t

variable {ρ : Renaming} {s d : Schema}

/-- A segment names one member only. -/
theorem Fits.eq_of_foldKey (hfits : ρ.Fits s d) {n : String} {ms : List Member}
    (hcovers : ρ.covers n) (hms : s.members? (.named n) = .ok (some ms)) {m m' : Member}
    (hm : m ∈ ms) (hm' : m' ∈ ms) (h : foldKey m.name = foldKey m'.name) : m = m' :=
  List.inj_on_of_nodup_map (hfits.distinct hcovers hms) hm hm' h

/-- **Paths below a collection.** The renamed path of what continues a path, ignoring case,
continues the renamed path. -/
theorem Path.split (hfits : ρ.Fits s d) {owner inner t : TypeExpr}
    {scope scope' segments renamed : List String} (hscope : ρ.Path s owner scope scope' inner)
    (h : ρ.Path s owner segments renamed t)
    (hbelow : ColumnPath.beginsWith scope segments = true) :
    ∃ rest, renamed = scope' ++ rest ∧ ρ.Path s inner (segments.drop scope.length) rest t := by
  induction hscope generalizing segments renamed with
  | nil owner => exact ⟨renamed, rfl, h⟩
  | @cons n ms m segment scope scope' inner covered members mem name _ ih =>
    cases h with
    | nil => cases hbelow
    | @cons _ ms' m' segment' segments renamed _ _ members' mem' name' rest =>
      rw [ColumnPath.beginsWith, Bool.and_eq_true, beq_iff_eq] at hbelow
      rw [members] at members'
      cases members'
      -- both segments name the same member, so the paths go on from the same type
      have hsame : m = m' := hfits.eq_of_foldKey covered members mem mem'
        ((name.symm.trans hbelow.1).trans name')
      subst hsame
      obtain ⟨rest', rfl, hrest⟩ := ih rest hbelow.2
      exact ⟨rest', rfl, hrest⟩

/-- Only renamed types are left by a path. -/
theorem Path.exists_named {owner t : TypeExpr} {segments renamed : List String}
    (h : ρ.Path s owner segments renamed t) (hne : segments ≠ []) :
    ∃ n, owner = .named n ∧ ρ.covers n := by
  cases h with
  | nil => exact absurd rfl hne
  | cons covered => exact ⟨_, rfl, covered⟩

theorem Path.ne_nil {owner t : TypeExpr} {segments renamed : List String}
    (h : ρ.Path s owner segments renamed t) (hne : segments ≠ []) : renamed ≠ [] := by
  cases h with
  | nil => exact absurd rfl hne
  | cons => exact List.cons_ne_nil _ _

theorem Path.eq_of_nil {owner t : TypeExpr} {renamed : List String}
    (h : ρ.Path s owner [] renamed t) : renamed = [] ∧ t = owner := by
  cases h with
  | nil => exact ⟨rfl, rfl⟩

/-- Hops from a type to another one through members, and hops through the renamed members. -/
inductive Alongside (ρ : Renaming) (s d : Schema) :
    TypeExpr → List Hop → List Hop → TypeExpr → Prop
  | nil (owner : TypeExpr) : Alongside ρ s d owner [] [] owner
  | cons {n : String} {ms : List Member} {m m' : Member} {hops hops' : List Hop} {t : TypeExpr}
      (covered : ρ.covers n) (members : s.members? (.named n) = .ok (some ms)) (mem : m ∈ ms)
      (name : m'.name = ρ.member n m.name) (rest : Alongside ρ s d m.type hops hops' t) :
      Alongside ρ s d (.named n) (Hop.ofMember (.named n) m :: hops)
        (Hop.ofMember (.named (ρ.type n)) m' :: hops') t

theorem foldKey_of_mem_candidates {ms : List Member} {segment : String} {m : Member}
    (h : m ∈ candidates ms segment false) : foldKey m.name = foldKey segment := by
  rw [candidates] at h
  split at h
  · next found hfound =>
    have hname : found.name = segment := by simpa using List.find?_some hfound
    rw [List.mem_singleton.mp h, hname]
  · simp only [Bool.and_false] at h
    exact beq_iff_eq.mp (List.mem_filter.mp h).2

/-- A segment that is found names the member of a renamed path, and is found under the new name. -/
theorem exists_resolveSegment (hfits : ρ.Fits s d) (fallback : Bool) (path' : ColumnPath)
    {path : ColumnPath} {n : String} {ms : List Member} {m : Member} {segment : String}
    (hcovers : ρ.covers n) (hms : s.members? (.named n) = .ok (some ms)) (hm : m ∈ ms)
    (hname : foldKey segment = foldKey m.name) {hop : Hop}
    (h : s.resolveSegment false path (.named n) segment = .ok hop) :
    hop = Hop.ofMember (.named n) m ∧ ∃ m', m'.name = ρ.member n m.name ∧
      m'.type = ρ.image m.type ∧ m'.nullable = m.nullable ∧
      d.resolveSegment fallback path' (.named (ρ.type n)) (ρ.member n m.name) =
        .ok (Hop.ofMember (.named (ρ.type n)) m') := by
  constructor
  · -- the old name is found ignoring case, where only this member has it
    rw [Schema.resolveSegment, hms] at h
    simp only at h
    split at h
    · next found hfound =>
      cases h
      have hmem : found ∈ candidates ms segment false := hfound ▸ List.mem_singleton_self found
      have hsame : found = m := hfits.eq_of_foldKey hcovers hms (Schema.mem_of_mem_candidates hmem)
        hm ((foldKey_of_mem_candidates hmem).trans hname)
      rw [hsame]
    · cases h
    · cases h
  · -- the new name is found as it is written, which no other candidate can prevent
    obtain ⟨ms', hms', hrenamed⟩ := hfits.renamed hcovers hms
    obtain ⟨m', hm', hname', htype, hnullable⟩ := hrenamed m hm
    refine ⟨m', hname', htype, hnullable, ?_⟩
    rw [Schema.resolveSegment, hms', ← hname']
    simp only [Schema.candidates_eq_singleton (Schema.nodup_members hms') hm']

/-- The hops of a renamed path. Before the last one no member is a collection, before or after. -/
theorem exists_resolveFrom (hfits : ρ.Fits s d) (fallback : Bool) (path' : ColumnPath)
    {path : ColumnPath} :
    ∀ {rest : List String} {owner t : TypeExpr} {segment name : String} {renamed : List String}
      {found : List Hop × Hop},
      s.resolveFrom false path owner segment rest = .ok found →
      ρ.Path s owner (segment :: rest) (name :: renamed) t →
      ∃ found', d.resolveFrom fallback path' (ρ.image owner) name renamed = .ok found' ∧
        ρ.Alongside s d owner (found.1 ++ [found.2]) (found'.1 ++ [found'.2]) found.2.type ∧
        found'.2.type = ρ.image found.2.type ∧ found'.2.nullable = found.2.nullable ∧
        ρ.Suits s d found.2.type ∧ t = found.2.type.element?.getD found.2.type
  | [], owner, t, segment, name, renamed, found, h, hpath => by
    obtain ⟨hop, hhop, rfl⟩ := map_eq_ok_iff.mp h
    cases hpath with
    | @cons n ms m _ _ _ _ covered members mem hname rest =>
      obtain ⟨rfl, rfl⟩ := rest.eq_of_nil
      obtain ⟨rfl, m', hname', htype, hnullable, hresolved⟩ :=
        exists_resolveSegment hfits fallback path' covered members mem hname hhop
      refine ⟨([], Hop.ofMember (.named (ρ.type n)) m'), map_eq_ok_iff.mpr ⟨_, hresolved, rfl⟩,
        .cons covered members mem hname' (.nil m.type), htype, hnullable,
        hfits.suits covered members mem, rfl⟩
  | next :: rest, owner, t, segment, name, renamed, found, h, hpath => by
    obtain ⟨hop, hhop, h⟩ := bind_eq_ok_iff.mp h
    split at h
    · cases h
    · next hsingle =>
      rw [Bool.not_eq_true, Option.isSome_eq_false_iff, Option.isNone_iff_eq_none] at hsingle
      obtain ⟨⟨leading, terminal⟩, htail, h⟩ := bind_eq_ok_iff.mp h
      cases h
      cases hpath with
      | @cons n ms m _ _ _ _ covered members mem hname rest' =>
        obtain ⟨rfl, m', hname', htype, hnullable, hresolved⟩ :=
          exists_resolveSegment hfits fallback path' covered members mem hname hhop
        -- a member before the last one is no collection, so the path goes on from its own type
        have hinner : m.inner = m.type := by
          rw [Member.inner]
          exact congrArg (Option.getD · m.type) hsingle
        rw [hinner] at rest'
        obtain ⟨name', renamed', rfl⟩ :=
          List.exists_cons_of_ne_nil (rest'.ne_nil (List.cons_ne_nil next rest))
        obtain ⟨⟨leading', terminal'⟩, htail', halong, hterminal⟩ :=
          exists_resolveFrom hfits fallback path' htail rest'
        have hsingle' : (ρ.image m.type).element? = none := by
          rw [element?_image]
          exact congrArg (Option.map ρ.image) hsingle
        refine ⟨(Hop.ofMember (.named (ρ.type n)) m' :: leading', terminal'), ?_,
          .cons covered members mem hname' halong, hterminal⟩
        refine bind_eq_ok_iff.mpr ⟨_, hresolved, ?_⟩
        simp only [Hop.ofMember, htype, hsingle']
        exact bind_eq_ok_iff.mpr ⟨_, htail', rfl⟩

/-- A column of a renamed type stands for a column of the type: its members have the new names, and
it ends in a member of the renamed type. -/
structure Renamed (ρ : Renaming) (s d : Schema) (owner : TypeExpr)
    (column column' : ResolvedColumn) : Prop where
  hops : ρ.Alongside s d owner column.hops column'.hops column.type
  type : column'.type = ρ.image column.type
  nullable : column'.terminal.nullable = column.terminal.nullable
  suits : ρ.Suits s d column.type

variable {ρ : Renaming} {s d : Schema}

theorem Renamed.element? {owner : TypeExpr} {column column' : ResolvedColumn}
    (h : ρ.Renamed s d owner column column') : column'.element? = column.element?.map ρ.image := by
  rw [ResolvedColumn.element?, ResolvedColumn.element?, h.type, element?_image]

/-- **Columns go with their members.** The renamed path of a column is resolved to the renamed
members, whether or not alternate names are tried. -/
theorem exists_resolve (hfits : ρ.Fits s d) (fallback : Bool) {owner t : TypeExpr}
    {path path' : ColumnPath} {column : ResolvedColumn}
    (h : s.resolve false owner path = .ok column)
    (hpath : ρ.Path s owner path.segments path'.segments t) :
    ∃ column', d.resolve fallback (ρ.image owner) path' = .ok column' ∧
      ρ.Renamed s d owner column column' ∧ t = column.element?.getD column.type := by
  obtain ⟨segment, rest, hsegments⟩ := List.exists_cons_of_ne_nil path.nonempty
  obtain ⟨name, renamed, hsegments'⟩ := List.exists_cons_of_ne_nil path'.nonempty
  rw [hsegments, hsegments'] at hpath
  rw [Schema.resolve_of_segments hsegments] at h
  obtain ⟨found, hfound, rfl⟩ := map_eq_ok_iff.mp h
  -- the walk from the first segment on does the rest
  obtain ⟨found', hfound', hhops, htype, hnullable, hsuits, ht⟩ :=
    exists_resolveFrom hfits fallback path' hfound hpath
  refine ⟨⟨path', found'.1, found'.2⟩, ?_, ⟨hhops, htype, hnullable, hsuits⟩, ht⟩
  rw [Schema.resolve_of_segments hsegments', hfound']
  rfl

end Renaming
end RecordQuery
