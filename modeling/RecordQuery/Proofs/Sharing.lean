import RecordQuery.Proofs.Counting
import RecordQuery.Proofs.Fingerprint
import RecordQuery.Specification

/-!
# Sharing predicates while a registry changes

A cache is used in a session in which strategies are registered and unregistered between the
requests. A request is looked up under its fingerprint, which says which operators a filter uses but
not what they mean. So a predicate that is found has the meanings of the moment at which it was
made, and the session is transparent for the operators whose meanings have not changed.

* `Request` — filters to compile; `Request.compile` is the answer without a cache, `Request.shared`
  the one with it.
* `Session.Backed` — the invariant: every entry was compiled for one of the requests, under the
  registry of its moment. `Backed.next` is the step, `backed_after` the run.
* `Session.shared_spec` — what a request is answered, in any session.
* `Session.not_transparent` — the two ways in which the answer is another one than without the
  cache.
-/

namespace RecordQuery

/-! ### Registries that agree -/

namespace Predicate

variable {s : Schema} {options : Options} {r r' : Registry Strategy} {nullGuard : Bool}

mutual

/-- A filter is compiled alike under registries that agree on its operators. -/
theorem compileNode_congr : ∀ (f : Filter) (owner : TypeExpr) (scope : Option ColumnPath),
    (∀ l ∈ f.leaves, r.require l.2.1 = r'.require l.2.1) →
    (backend r nullGuard).compileNode s options owner scope f =
      (backend r' nullGuard).compileNode s options owner scope f
  | .leaf path o raw, owner, scope, hagree => by
    rw [Backend.compileNode, Backend.compileNode]
    cases hread : s.condition options owner scope path o raw with
    | error e => rfl
    | ok read =>
      -- the condition has the operator of the leaf
      obtain ⟨-, -, -, rfl⟩ := Schema.condition_eq_ok_iff.mp hread
      have hsame : r.require read.operator = r'.require read.operator :=
        hagree _ List.mem_cons_self
      show (r.require read.operator).map _ = (r'.require read.operator).map _
      rw [hsame]
  | .group k fs, owner, scope, hagree => by
    rw [Backend.compileNode, Backend.compileNode, compileAll_congr fs owner scope hagree]
    cases k <;> rfl
  | .quantified q path fs, owner, scope, hagree => by
    rw [Backend.compileNode, Backend.compileNode]
    cases Backend.collection s options owner scope q path with
    | error e => rfl
    | ok found =>
      obtain ⟨column, element⟩ := found
      show (backend r nullGuard).compileAll s options element (.some path) fs >>= _ =
        (backend r' nullGuard).compileAll s options element (.some path) fs >>= _
      rw [compileAll_congr fs element (.some path) hagree]
      rfl

theorem compileAll_congr : ∀ (fs : List Filter) (owner : TypeExpr) (scope : Option ColumnPath),
    (∀ l ∈ Filter.leavesAll fs, r.require l.2.1 = r'.require l.2.1) →
    (backend r nullGuard).compileAll s options owner scope fs =
      (backend r' nullGuard).compileAll s options owner scope fs
  | [], _, _, _ => rfl
  | f :: fs, owner, scope, hagree => by
    obtain ⟨hfirst, hrest⟩ := List.forall_mem_append.mp hagree
    rw [Backend.compileAll, Backend.compileAll, compileNode_congr f owner scope hfirst,
      compileAll_congr fs owner scope hrest]

end

end Predicate

theorem compileFilter_congr {s : Schema} {options : Options} {r r' : Registry Strategy}
    {type : TypeExpr} {fs : List Filter}
    (hagree : ∀ l ∈ Filter.leavesAll fs, r.require l.2.1 = r'.require l.2.1) :
    compileFilter s options r type fs = compileFilter s options r' type fs := by
  rw [compileFilter, compileFilter, Backend.compile_eq, Backend.compile_eq]
  exact Predicate.compileNode_congr _ type none (Backend.leaves_conjoined fs ▸ hagree)

/-! ### The filters that are met -/

/-- The filters before the first part that is none. -/
def NodePart.leading (parts : List NodePart) : List Filter :=
  (parts.takeWhile fun p => p.node?.isSome).filterMap node?

/-- The filters that something is made of, when something is made of what is given. -/
def FilterInput.leading : FilterInput → List Filter
  | .one part =>
    match part.spread with
    | .ok parts => NodePart.leading parts
    | .error _ => []
  | .several parts => NodePart.leading parts

theorem NodePart.leading_of_filters : ∀ {parts : List NodePart} {fs : List Filter},
    NodePart.filters parts = .ok fs → NodePart.leading parts = fs
  | [], _, h => by
    cases h
    rfl
  | .node f :: parts, _, h => by
    obtain ⟨fs, hfs, rfl⟩ := map_eq_ok_iff.mp h
    exact congrArg (f :: ·) (leading_of_filters hfs)
  | .value v :: parts, fs, h => by
    unfold NodePart.filters at h
    split at h <;> cases h

/-- Nothing else of what is given counts: either something is made of these filters, with or without
an error after it, or there is an error before anything is made. -/
theorem FilterInput.withFilters_cases (given : FilterInput) :
    (∀ {α : Type} (make : List Filter → Except Error α),
      given.withFilters make = make given.leading) ∨
    (∃ e, ∀ {α : Type} (make : List Filter → Except Error α),
      given.withFilters make = make given.leading >>= fun _ => .error e) ∨
    ∃ e, ∀ {α : Type} (make : List Filter → Except Error α), given.withFilters make = .error e := by
  have hparts : ∀ parts : List NodePart,
      (∀ {α : Type} (make : List Filter → Except Error α),
        NodePart.withFilters parts make = make (NodePart.leading parts)) ∨
      ∃ e, ∀ {α : Type} (make : List Filter → Except Error α),
        NodePart.withFilters parts make = make (NodePart.leading parts) >>= fun _ => .error e := by
    intro parts
    cases hfs : NodePart.filters parts with
    | ok fs =>
      refine .inl fun make => ?_
      rw [NodePart.withFilters, hfs, NodePart.leading_of_filters hfs]
    | error e =>
      -- the filters before the first other part are made first, and their error wins
      refine .inr ⟨.fault .missingMember, fun make => ?_⟩
      rw [NodePart.withFilters, hfs]
      rfl
  cases given with
  | several parts => exact (hparts parts).imp_right .inl
  | one part =>
    cases hspread : part.spread with
    | error e =>
      refine .inr (.inr ⟨e, fun make => ?_⟩)
      rw [FilterInput.withFilters, hspread]
      rfl
    | ok parts =>
      simp only [FilterInput.withFilters, FilterInput.leading, hspread, ok_bind]
      exact (hparts parts).imp_right .inl

/-- What is made of what is given depends on what is made of the filters that are met. -/
theorem FilterInput.withFilters_congr (given : FilterInput) {α : Type}
    {make make' : List Filter → Except Error α} (h : make given.leading = make' given.leading) :
    given.withFilters make = given.withFilters make' := by
  obtain hall | ⟨e, hsome⟩ | ⟨e, hnone⟩ := given.withFilters_cases
  · rw [hall, hall, h]
  · rw [hsome, hsome, h]
  · rw [hnone, hnone]

theorem FilterInput.failAlike_leading (given : FilterInput) {α β : Type}
    {make : List Filter → Except Error α} {make' : List Filter → Except Error β}
    (h : FailAlike (make given.leading) (make' given.leading)) :
    FailAlike (given.withFilters make) (given.withFilters make') := by
  obtain hall | ⟨e, hsome⟩ | ⟨e, hnone⟩ := given.withFilters_cases
  · rwa [hall, hall]
  · rw [hsome, hsome]
    exact h.bind fun _ _ _ _ => rfl
  · rw [hnone, hnone]
    rfl

/-! ### Requests -/

/-- Filters to compile, for records of a type. -/
structure Request where
  type : TypeExpr
  options : Options
  given : FilterInput

namespace Request

variable {s : Schema} {w : Workspace} {r r' : Registry Strategy} {q q' : Request}

/-- The operators of the filters that are met. -/
def operators (q : Request) : List Operator :=
  (Filter.leavesAll q.given.leading).map fun l => l.2.1

/-- The predicate of a request, without a cache. -/
def compile (s : Schema) (r : Registry Strategy) (q : Request) : Except Error Predicate :=
  q.given.withFilters (compileFilter s q.options r q.type)

/-- The fingerprint of a request. -/
def fingerprint (s : Schema) (w : Workspace) (q : Request) : Except Error Fingerprint :=
  q.given.withFilters (Fingerprint.of s w q.options q.type)

/-- The predicate of a request with a cache, and the cache after it. -/
def shared (s : Schema) (w : Workspace) (r : Registry Strategy) (number : Nat)
    (cache : PredicateCache) (q : Request) : Except Error Compiled × PredicateCache :=
  match q.fingerprint s w with
  | .error e => (.error e, cache)
  | .ok x => cache.getOrCreate (.filter x) fun _ => (q.compile s r).map fun p => ⟨number, p⟩

/-- A request for filters is answered as they are. -/
theorem shared_eq_compileShared {fs : List Filter}
    (h : ∀ {α : Type} (make : List Filter → Except Error α), q.given.withFilters make = make fs)
    (number : Nat) (cache : PredicateCache) :
    q.shared s w r number cache =
      compileShared id s q.options w r q.type fs number cache := by
  rw [shared, fingerprint, compile, h, h]
  rfl

/-- In a legible schema, requests with one fingerprint have predicates under the same registries, and
these hold for the same records. -/
theorem exists_alike (legible : s.Legible) {x : Fingerprint} (hq : q.fingerprint s w = .ok x)
    (hq' : q'.fingerprint s w = .ok x) {p' : Predicate} (hp' : q'.compile s r = .ok p') :
    ∃ p, q.compile s r = .ok p ∧ ∀ record, p.holds s record = p'.holds s record := by
  obtain ⟨fs, hfs, hwith⟩ := FilterInput.withFilters_eq_ok hq
  obtain ⟨gs, hgs, hwith'⟩ := FilterInput.withFilters_eq_ok hq'
  obtain ⟨t, ht, rfl⟩ := map_eq_ok_iff.mp hfs
  obtain ⟨t', ht', hsame⟩ := map_eq_ok_iff.mp hgs
  -- the workspace says nothing of the meaning of the filters
  obtain ⟨htype, -, hoptions, rfl⟩ := Fingerprint.mk.inj hsame
  rw [compile, hwith'] at hp'
  rw [htype, hoptions] at ht' hp'
  rw [compile, hwith]
  exact Token.ofFilters_alike legible ht ht' hp'

theorem compile_congr (hagree : ∀ o ∈ q.operators, r.require o = r'.require o) :
    q.compile s r = q.compile s r' :=
  q.given.withFilters_congr (compileFilter_congr fun _ hl => hagree _ (List.mem_map_of_mem hl))

/-- A request fails like its fingerprint, if its operators have strategies. -/
theorem failAlike_fingerprint (legible : s.Legible)
    (hknown : ∀ o ∈ q.operators, Succeeds (r.require o)) :
    FailAlike (q.fingerprint s w) (q.compile s r) := by
  refine q.given.failAlike_leading ?_
  have h := Backend.failAlike_compile (Token.failAlike_backend legible q.options r) q.type
    q.given.leading fun _ hl => hknown _ (List.mem_map_of_mem hl)
  exact h.map_left fun tokens => (⟨q.type, w, q.options, tokens⟩ : Fingerprint)

end Request

/-! ### Sessions -/

/-- What happens in a session: a strategy is registered, an operator loses its strategy, or filters
are compiled. -/
inductive Event where
  | register (operator : Operator) (strategy : Strategy)
  | unregister (operator : Operator)
  | request (q : Request)

/-- A registry, a cache and the number of requests so far. -/
structure Session where
  registry : Registry Strategy
  cache : PredicateCache
  served : Nat

namespace Session

/-- A session with a registry and nothing in its cache. -/
def start (r : Registry Strategy) : Session := ⟨r, .empty, 0⟩

/-- The answer to a request in a session, and the cache after it. -/
def answer (s : Schema) (w : Workspace) (st : Session) (q : Request) :
    Except Error Compiled × PredicateCache :=
  q.shared s w st.registry st.served st.cache

/-- A session after one more event. -/
def next (s : Schema) (w : Workspace) (st : Session) : Event → Session
  | .register o strategy => { st with registry := st.registry.register o strategy }
  | .unregister o => { st with registry := st.registry.unregister o }
  | .request q => { st with cache := (st.answer s w q).2, served := st.served + 1 }

/-- The session that begins with a registry, after some events. -/
def after (s : Schema) (w : Workspace) (r : Registry Strategy) (events : List Event) : Session :=
  events.foldl (next s w) (start r)

/-- In the session that begins with a registry, a request is one of the events, and is made under
another registry. -/
def Asked (s : Schema) (w : Workspace) (r : Registry Strategy) (events : List Event) (q : Request)
    (r' : Registry Strategy) : Prop :=
  ∃ before, before ++ [.request q] <+: events ∧ (after s w r before).registry = r'

/-- Every predicate in the cache was compiled for one of the requests, under the registry of that
moment, and is kept under the fingerprint of this request. -/
def Backed (s : Schema) (w : Workspace) (r : Registry Strategy) (events : List Event)
    (cache : PredicateCache) : Prop :=
  ∀ x c, (.filter x, c) ∈ cache.entries → ∃ q r', Asked s w r events q r' ∧
    q.fingerprint s w = .ok x ∧ q.compile s r' = .ok c.predicate

/-- The operators of a request have strategies, and have had the same ones whenever a request with
its fingerprint was made. -/
def Steady (s : Schema) (w : Workspace) (r : Registry Strategy) (events : List Event)
    (q : Request) : Prop :=
  ∀ o ∈ q.operators, ∃ strategy, ∀ q' r', Asked s w r (events ++ [.request q]) q' r' →
    q'.fingerprint s w = q.fingerprint s w → r'.require o = .ok strategy

variable {s : Schema} {w : Workspace} {r r' : Registry Strategy} {events : List Event}
  {q q' : Request}

theorem asked_now : Asked s w r (events ++ [.request q]) q (after s w r events).registry :=
  ⟨events, List.prefix_refl _, rfl⟩

theorem Asked.append (h : Asked s w r events q r') (more : List Event) :
    Asked s w r (events ++ more) q r' := by
  obtain ⟨before, hbefore, hr'⟩ := h
  exact ⟨before, hbefore.trans (List.prefix_append _ _), hr'⟩

theorem Backed.append {cache : PredicateCache} (h : Backed s w r events cache)
    (more : List Event) : Backed s w r (events ++ more) cache := by
  intro x c hmem
  obtain ⟨q, r', hasked, hmade⟩ := h x c hmem
  exact ⟨q, r', hasked.append more, hmade⟩

/-- What a request finds in the cache, or makes and puts there. -/
theorem answer_cases (s : Schema) (w : Workspace) (st : Session) (q : Request) :
    (∃ e, (st.answer s w q).1 = .error e ∧ (st.answer s w q).2.entries = st.cache.entries ∧
      (q.fingerprint s w = .error e ∨ q.compile s st.registry = .error e)) ∨
    (∃ x c, (st.answer s w q).1 = .ok c ∧ (st.answer s w q).2.entries = st.cache.entries ∧
      q.fingerprint s w = .ok x ∧ (.filter x, c) ∈ st.cache.entries) ∨
    ∃ x c, (st.answer s w q).1 = .ok c ∧
      (st.answer s w q).2.entries = st.cache.entries ++ [(.filter x, c)] ∧
      q.fingerprint s w = .ok x ∧ q.compile s st.registry = .ok c.predicate := by
  generalize h : st.answer s w q = out
  unfold answer Request.shared at h
  cases hx : q.fingerprint s w with
  | error e =>
    rw [hx] at h
    cases h
    exact .inl ⟨e, rfl, rfl, .inl rfl⟩
  | ok x =>
    simp only [hx, Cache.getOrCreate] at h
    -- a hit answers what is stored, and only a miss compiles
    split at h
    · next c hfound =>
      cases h
      exact .inr (.inl ⟨x, c, rfl, rfl, rfl, Cache.mem_of_get? hfound⟩)
    · cases hp : q.compile s st.registry with
      | error e =>
        rw [hp] at h
        cases h
        exact .inl ⟨e, rfl, rfl, .inr rfl⟩
      | ok p =>
        rw [hp] at h
        cases h
        exact .inr (.inr ⟨x, ⟨st.served, p⟩, rfl, rfl, rfl, rfl⟩)

/-- **One event** keeps the entries backed: only a request that is answered adds one, and it is
compiled under the registry of this moment. -/
theorem Backed.next (h : Backed s w r events (after s w r events).cache) (event : Event) :
    Backed s w r (events ++ [event]) ((after s w r events).next s w event).cache := by
  have hkept := h.append [event]
  cases event with
  | register o strategy => exact hkept
  | unregister o => exact hkept
  | request q =>
    intro x c hmem
    obtain ⟨e, -, hentries, -⟩ | ⟨y, d, -, hentries, -, -⟩ | ⟨y, d, -, hentries, hy, hd⟩ :=
      answer_cases s w (after s w r events) q
    · exact hkept x c (hentries ▸ hmem)
    · exact hkept x c (hentries ▸ hmem)
    · have hmem : (.filter x, c) ∈ (after s w r events).cache.entries ++ [(.filter y, d)] :=
        hentries ▸ hmem
      obtain hmem | hmem := List.mem_append.mp hmem
      · exact hkept x c hmem
      · -- the only new entry is the answer to this very request
        cases List.mem_singleton.mp hmem
        exact ⟨q, _, asked_now, hy, hd⟩

theorem after_append (events : List Event) (event : Event) :
    after s w r (events ++ [event]) = (after s w r events).next s w event := by
  rw [after, List.foldl_append]
  rfl

/-- **Every session** has only such entries. -/
theorem backed_after (events : List Event) :
    Backed s w r events (after s w r events).cache := by
  induction events using List.reverseRecOn with
  | nil => exact fun _ _ hmem => nomatch hmem
  | append_singleton events event ih =>
    rw [after_append]
    exact ih.next event

/-- **What a request is answered** after any events. A request that fails leaves the entries as they
are, and fails for itself: it has no fingerprint, or cannot be compiled now. One that is answered
gets the predicate that it, or a request with the same fingerprint, was compiled to. In a legible
schema this agrees on every record with what the request itself would have been compiled to at that
moment. And if its operators have had the same strategies whenever this was, the answer is the one
without a cache, in its predicate or in its error. -/
theorem shared_spec (s : Schema) (w : Workspace) (r : Registry Strategy) (events : List Event)
    (q : Request) :
    let st := after s w r events
    (∀ e, (st.answer s w q).1 = .error e → (st.answer s w q).2.entries = st.cache.entries ∧
      (q.fingerprint s w = .error e ∨ q.compile s st.registry = .error e)) ∧
    (∀ c, (st.answer s w q).1 = .ok c → ∃ q' r', Asked s w r (events ++ [.request q]) q' r' ∧
      q'.fingerprint s w = q.fingerprint s w ∧ q'.compile s r' = .ok c.predicate ∧
      (s.Legible → ∃ p, q.compile s r' = .ok p ∧
        ∀ record, c.predicate.holds s record = p.holds s record)) ∧
    (s.Legible → Steady s w r events q → Matched (fun c p => ∀ record, c.predicate.holds s record =
      p.holds s record) (st.answer s w q).1 (q.compile s st.registry)) := by
  intro st
  -- an answer was compiled for a request with this fingerprint
  have hanswered : ∀ c, (st.answer s w q).1 = .ok c → ∃ q' r',
      Asked s w r (events ++ [.request q]) q' r' ∧ q'.fingerprint s w = q.fingerprint s w ∧
        q'.compile s r' = .ok c.predicate ∧ (s.Legible → ∃ p, q.compile s r' = .ok p ∧
          ∀ record, c.predicate.holds s record = p.holds s record) := by
    intro c hc
    obtain ⟨e, he, -⟩ | ⟨x, d, hd, -, hx, hmem⟩ | ⟨x, d, hd, -, hx, hp⟩ :=
      answer_cases s w st q
    · cases hc.symm.trans he
    · cases hc.symm.trans hd
      obtain ⟨q', r', hasked, hx', hp'⟩ := backed_after events x c hmem
      refine ⟨q', r', hasked.append _, hx'.trans hx.symm, hp', fun legible => ?_⟩
      obtain ⟨p, hp, hsame⟩ := Request.exists_alike legible hx hx' hp'
      exact ⟨p, hp, fun record => (hsame record).symm⟩
    · cases hc.symm.trans hd
      exact ⟨q, _, asked_now, rfl, hp, fun _ => ⟨c.predicate, hp, fun _ => rfl⟩⟩
  -- and an error comes from the fingerprint or from compiling
  have hfailed : ∀ e, (st.answer s w q).1 = .error e →
      (st.answer s w q).2.entries = st.cache.entries ∧
        (q.fingerprint s w = .error e ∨ q.compile s st.registry = .error e) := by
    intro e he
    obtain ⟨e', he', hentries, hwhy⟩ | ⟨_, d, hd, -⟩ | ⟨_, d, hd, -⟩ :=
      answer_cases s w st q
    · cases he.symm.trans he'
      exact ⟨hentries, hwhy⟩
    · cases he.symm.trans hd
    · cases he.symm.trans hd
  refine ⟨hfailed, hanswered, fun legible hsteady => ?_⟩
  cases ha : (st.answer s w q).1 with
  | ok c =>
    obtain ⟨q', r', hasked, hfingerprint, -, hown⟩ := hanswered c ha
    obtain ⟨p, hp, hagree⟩ := hown legible
    -- the registry of that moment compiles this request as the present one does
    have hsame : q.compile s st.registry = q.compile s r' := by
      refine Request.compile_congr fun o ho => ?_
      obtain ⟨strategy, hstrategy⟩ := hsteady o ho
      rw [hstrategy q' r' hasked hfingerprint, hstrategy q st.registry asked_now rfl]
    rw [hsame, hp]
    exact .ok hagree
  | error e =>
    have hknown : ∀ o ∈ q.operators, Succeeds (st.registry.require o) := by
      intro o ho
      obtain ⟨strategy, hstrategy⟩ := hsteady o ho
      exact ⟨strategy, hstrategy q st.registry asked_now rfl⟩
    have hfails : q.compile s st.registry = .error e := by
      obtain hx | hp := (hfailed e ha).2
      · exact (failAlike_iff.mp (Request.failAlike_fingerprint legible hknown) e).mp hx
      · exact hp
    rw [hfails]
    exact ⟨rfl, fun _ _ h => nomatch h⟩

/-! ### A session with persons -/

namespace Persons

/-- A schema of persons. -/
def schema : Schema :=
  ⟨[], [⟨"Person", [], .data [⟨"name", .scalar .text, [], false, none⟩], []⟩], .absent⟩

/-- The person of a name. -/
def person (name : String) : Value :=
  .record ⟨.data, "Person", ["name"], none⟩ [("name", some (.text name))]

/-- A condition on a column of persons. -/
def condition (column : String) (h : isSegment column = true) (o : Operator) (raw : String) :
    Filter :=
  .leaf ⟨[column], List.cons_ne_nil _ _, by rw [List.all_cons, h]; rfl⟩ o (.plain raw)

/-- The request for persons who satisfy some filters. -/
def request (fs : List Filter) : Request :=
  ⟨.named "Person", .usual, .several (fs.map .node)⟩

end Persons

open Persons in
/-- Where equality is replaced before the first request and something else changes later, two
requests for one name share a predicate, which is the one without a cache. -/
theorem shared_spec_of_persons :
    let named : Request := request [condition "name" rfl .eq "ann"]
    let events : List Event :=
      [.register .eq .caselessEqual, .request named, .unregister .sw]
    let st := after schema (.registry "r") Predicate.usualRegistry events
    Steady schema (.registry "r") Predicate.usualRegistry events named ∧
      Matched (fun c p => ∀ record, c.predicate.holds schema record = p.holds schema record)
        (st.answer schema (.registry "r") named).1 (named.compile schema st.registry) := by
  intro named events st
  have hsteady : Steady schema (.registry "r") Predicate.usualRegistry events named := by
    intro o ho
    obtain rfl := List.mem_singleton.mp ho
    refine ⟨.caselessEqual, ?_⟩
    rintro q' r' ⟨before, ⟨rest, hevents⟩, rfl⟩ -
    -- a request is the second of the events or the one after them
    match before, hevents with
    | [_], hevents =>
      cases hevents
      rfl
    | [_, _, _], hevents =>
      cases hevents
      rfl
    | _ :: _ :: _ :: _ :: before, hevents =>
      have hlength := congrArg List.length hevents
      simp only [List.length_append, List.length_cons, List.length_nil, events] at hlength
      omega
  exact ⟨hsteady, (shared_spec schema (.registry "r") Predicate.usualRegistry events named).2.2
    (Schema.legible_of_absent rfl rfl) hsteady⟩

open Persons in
/-- A cache is not transparent. A request gets the predicate that another one left there, also when
its operator has another meaning now. And where an operator has no strategy, an unknown column
behind it is reported first, since the fingerprint is made before any strategy is looked up. -/
theorem not_transparent :
    (let named : Request := request [condition "name" rfl .eq "ann"]
      let st := after schema (.registry "r") Predicate.usualRegistry
        [.request named, .register .eq .caselessEqual]
      ∃ c p, (st.answer schema (.registry "r") named).1 = .ok c ∧
        named.compile schema st.registry = .ok p ∧
        c.predicate.holds schema (person "Ann") = .ok false ∧
        p.holds schema (person "Ann") = .ok true) ∧
    (let begins : Request := request [condition "name" rfl .sw "a", condition "bogus" rfl .eq "1"]
      let st := after schema (.registry "r") Predicate.usualRegistry [.unregister .sw]
      (∀ c, (st.answer schema (.registry "r") begins).1 ≠ .ok c) ∧
        begins.compile schema st.registry = .error (.misuse (.noStrategy "in-memory" "sw")) ∧
        (st.answer schema (.registry "r") begins).1 ≠
          .error (.misuse (.noStrategy "in-memory" "sw"))) := by
  -- the first session answers with the old meaning, the second one fails at the column
  refine ⟨⟨_, _, rfl, rfl, rfl, rfl⟩, ?_, rfl, ?_⟩
  · intro c h
    cases h
  · intro h
    cases h

end Session
end RecordQuery
