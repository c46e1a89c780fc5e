import Mathlib.Data.Finset.Card
import Mathlib.Data.List.DropRight
import RecordQuery.Cache

/-!
# What a cache counts

The numbers that a cache tells, and the values that it gives, against the history of its use: every
look-up that may make an entry, every making of one, and the moments at which all is dropped.

* `Cache.Call` — a call of a cache; `Cache.Run` is a cache with the history of the calls so far.
* `Cache.makes` — whether a look-up makes an entry. It is read off the look-up itself: one that
  fails wherever something is made tells whether something is made.
* `Cache.Reflects` — the invariant: hits and misses, the entries, and the value of each key are
  those of a history. `Reflects.create` is the step, `reflects_after` the run.
* `Cache.run_spec` — what a cache tells after any run.

A value is found because there is an entry for its key, so a value that means nothing, such as null,
is found like any other.
-/

namespace RecordQuery.Cache

variable {κ ε α : Type}

/-! ### Histories -/

/-- What happens to a cache: an entry is asked for and made if it is missing, something is made for
a key, with this outcome, or everything is dropped. -/
inductive Occurrence (κ ε α : Type) where
  | asked (key : κ)
  | made (key : κ) (outcome : Except ε α)
  | dropped

namespace Occurrence

/-- Whether an entry is asked for. -/
def isAsked : Occurrence κ ε α → Bool
  | asked _ => true
  | _ => false

/-- Whether something is made. -/
def isMade : Occurrence κ ε α → Bool
  | made _ _ => true
  | _ => false

/-- Whether everything is dropped. -/
def isDropped : Occurrence κ ε α → Bool
  | dropped => true
  | _ => false

/-- The key for which something is made with success. -/
def madeKey? : Occurrence κ ε α → Option κ
  | made key (.ok _) => some key
  | _ => none

/-- The value that is made for a key with success. -/
def valueFor? [DecidableEq κ] (key : κ) : Occurrence κ ε α → Option α
  | made other (.ok a) => if other = key then some a else none
  | _ => none

end Occurrence

/-- What happened since everything was dropped for the last time. -/
def recent (history : List (Occurrence κ ε α)) : List (Occurrence κ ε α) :=
  history.rtakeWhile fun o => !o.isDropped

/-- The number of times an entry was asked for. -/
def askings (history : List (Occurrence κ ε α)) : Nat := history.countP Occurrence.isAsked

/-- The number of times something was made. -/
def makings (history : List (Occurrence κ ε α)) : Nat := history.countP Occurrence.isMade

/-- The keys for which something was made with success. -/
def madeKeys [DecidableEq κ] (history : List (Occurrence κ ε α)) : Finset κ :=
  (history.filterMap Occurrence.madeKey?).toFinset

/-- The value that was made for a key with success for the first time. -/
def firstMade [DecidableEq κ] (key : κ) (history : List (Occurrence κ ε α)) : Option α :=
  history.findSome? (Occurrence.valueFor? key)

theorem recent_dropped (history : List (Occurrence κ ε α)) :
    recent (history ++ [.dropped]) = [] :=
  List.rtakeWhile_concat_neg _ _ _ Bool.false_ne_true

/-- What happens without a drop happens after the last drop. -/
theorem recent_append (history : List (Occurrence κ ε α)) {later : List (Occurrence κ ε α)}
    (h : ∀ o ∈ later, o.isDropped = false) :
    recent (history ++ later) = recent history ++ later := by
  induction later using List.reverseRecOn with
  | nil => simp
  | append_singleton later o ih =>
    obtain ⟨hlater, ho⟩ := List.forall_mem_append.mp h
    have hkept : (!o.isDropped) = true := by rw [ho o (List.mem_singleton_self o)]; rfl
    rw [← List.append_assoc, recent,
      List.rtakeWhile_concat_pos (fun o : Occurrence κ ε α => !o.isDropped) _ o hkept, ← recent,
      ih hlater, List.append_assoc]

variable [DecidableEq κ]

theorem mem_madeKeys_iff {history : List (Occurrence κ ε α)} {key : κ} :
    key ∈ madeKeys history ↔ (firstMade key history).isSome = true := by
  have hone : ∀ o : Occurrence κ ε α,
      o.madeKey? = some key ↔ (o.valueFor? key).isSome = true := by
    intro o
    cases o with
    | made other outcome => cases outcome <;> simp [Occurrence.madeKey?, Occurrence.valueFor?]
    | _ => simp [Occurrence.madeKey?, Occurrence.valueFor?]
  rw [madeKeys, List.mem_toFinset, List.mem_filterMap, firstMade, List.isSome_findSome?,
    List.any_eq_true]
  exact exists_congr fun o => and_congr_right fun _ => hone o

theorem firstMade_append (key : κ) (history later : List (Occurrence κ ε α)) :
    firstMade key (history ++ later) = (firstMade key history).or (firstMade key later) :=
  List.findSome?_append

/-- What is made for a key with success is the value of this key only. -/
theorem firstMade_made (key other : κ) (outcome : Except ε α) :
    firstMade other [.asked key, .made key outcome] =
      if key = other then outcome.toOption else none := by
  by_cases hkey : key = other <;> cases outcome <;>
    simp [firstMade, List.findSome?_cons, Occurrence.valueFor?, Except.toOption, hkey]

/-! ### Runs -/

/-- A call of a cache. What becomes of an entry that is made is said beforehand, whether or not it
is made. -/
inductive Call (κ ε α : Type) where
  | create (key : κ) (outcome : Except ε α)
  | get (key : κ)
  | contains (key : κ)
  | statistics
  | size
  | clear

/-- Whether something is made for a key when its entry is asked for: then a failure to make it is
what the look-up answers. -/
def makes (c : Cache κ α) (key : κ) : Bool :=
  match (c.getOrCreate key fun _ => (.error () : Except Unit α)).1 with
  | .ok _ => false
  | .error _ => true

/-- A cache and what has happened to it. -/
structure Run (κ ε α : Type) where
  cache : Cache κ α
  history : List (Occurrence κ ε α)

/-- A run with one more call. -/
def Run.next (run : Run κ ε α) : Call κ ε α → Run κ ε α
  | .create key outcome =>
    ⟨(run.cache.getOrCreate key fun _ => outcome).2,
      run.history ++ .asked key :: if run.cache.makes key then [.made key outcome] else []⟩
  | .clear => ⟨run.cache.clear, run.history ++ [.dropped]⟩
  | .get _ | .contains _ | .statistics | .size => run

/-- The run of some calls, which begins with nothing in the cache. -/
def Run.after (calls : List (Call κ ε α)) : Run κ ε α := calls.foldl Run.next ⟨empty, []⟩

/-! ### One look-up -/

section
variable {c : Cache κ α} {key : κ}

theorem getOrCreate_of_some {a : α} (h : c.get? key = some a) (make : Unit → Except ε α) :
    c.getOrCreate key make = (.ok a, { c with hits := c.hits + 1 }) := by
  rw [getOrCreate, h]

theorem getOrCreate_of_error (h : c.get? key = none) (make : Unit → Except ε α) {e : ε}
    (hmake : make () = .error e) :
    c.getOrCreate key make = (.error e, { c with misses := c.misses + 1 }) := by
  rw [getOrCreate, h]
  simp only [hmake]

theorem getOrCreate_of_ok (h : c.get? key = none) (make : Unit → Except ε α) {a : α}
    (hmake : make () = .ok a) :
    c.getOrCreate key make =
      (.ok a, { c with entries := c.entries ++ [(key, a)], misses := c.misses + 1 }) := by
  rw [getOrCreate, h]
  simp only [hmake]

theorem getOrCreate_of_none (h : c.get? key = none) (make : Unit → Except ε α) :
    (c.getOrCreate key make).1 = make () := by
  cases hmake : make () with
  | error e => rw [getOrCreate_of_error h make hmake]
  | ok a => rw [getOrCreate_of_ok h make hmake]

/-- Something is made exactly for the keys without an entry. -/
theorem makes_eq (c : Cache κ α) (key : κ) : c.makes key = (c.get? key).isNone := by
  cases h : c.get? key with
  | some a => rw [makes, getOrCreate_of_some h]; rfl
  | none => rw [makes, getOrCreate_of_error h _ rfl]; rfl

theorem isSome_get?_iff : (c.get? key).isSome = true ↔ key ∈ c.entries.map Prod.fst := by
  rw [get?, Option.isSome_map, List.find?_isSome, List.mem_map]
  exact exists_congr fun e => and_congr_right fun _ => beq_iff_eq

theorem mem_of_get? {a : α} (h : c.get? key = some a) : (key, a) ∈ c.entries := by
  obtain ⟨⟨key', a'⟩, hentry, rfl⟩ := Option.map_eq_some_iff.mp h
  have hfound := List.find?_some hentry
  have hkey : key' = key := beq_iff_eq.mp hfound
  exact hkey ▸ List.mem_of_find?_eq_some hentry

/-- A look-up adds at most what it makes. -/
theorem mem_of_mem_getOrCreate {make : Unit → Except ε α} {entry : κ × α}
    (h : entry ∈ (c.getOrCreate key make).2.entries) :
    entry ∈ c.entries ∨ ∃ a, make () = .ok a ∧ entry = (key, a) := by
  cases hfound : c.get? key with
  | some a =>
    rw [getOrCreate_of_some hfound] at h
    exact .inl h
  | none =>
    cases hmake : make () with
    | error e =>
      rw [getOrCreate_of_error hfound make hmake] at h
      exact .inl h
    | ok a =>
      rw [getOrCreate_of_ok hfound make hmake] at h
      -- only a result that was missing is stored
      obtain h | h := List.mem_append.mp h
      · exact .inl h
      · exact .inr ⟨a, rfl, List.mem_singleton.mp h⟩

/-- A further entry is found under its key only, and only if none was there before it. -/
theorem get?_of_entries_append {d : Cache κ α} {a : α} (h : d.entries = c.entries ++ [(key, a)])
    (other : κ) :
    d.get? other = (c.get? other).or (if key = other then some a else none) := by
  rw [get?, h, List.find?_append, Option.map_or, ← get?]
  congr 1
  by_cases hkey : key = other <;> simp [hkey]

end

/-! ### The invariant -/

/-- The numbers and the entries of a cache are those of a history. -/
structure Reflects (c : Cache κ α) (history : List (Occurrence κ ε α)) : Prop where
  askings : c.hits + c.misses = askings history
  makings : c.misses = makings history
  value (key : κ) : c.get? key = firstMade key history
  distinct : (c.entries.map Prod.fst).Nodup

namespace Reflects

variable {c : Cache κ α} {history : List (Occurrence κ ε α)}

theorem nil : (empty : Cache κ α).Reflects ([] : List (Occurrence κ ε α)) where
  askings := rfl
  makings := rfl
  value _ := rfl
  distinct := List.nodup_nil

theorem size_eq (h : c.Reflects history) : c.size = (madeKeys history).card := by
  have hkeys : (c.entries.map Prod.fst).toFinset = madeKeys history := by
    ext key
    rw [List.mem_toFinset, ← isSome_get?_iff, h.value key, mem_madeKeys_iff]
  rw [← hkeys, List.toFinset_card_of_nodup h.distinct, List.length_map, size]

/-- **One look-up** adds what happens in it: it is counted first, and then as a making if there is no
entry, whether or not something comes of it. -/
theorem create (h : c.Reflects history) (key : κ) (outcome : Except ε α) :
    (c.getOrCreate key fun _ => outcome).2.Reflects
      (history ++ .asked key :: if c.makes key then [.made key outcome] else []) := by
  have hasked : ∀ {rest : List (Occurrence κ ε α)},
      Cache.askings (history ++ .asked key :: rest) = c.hits + c.misses + 1 + Cache.askings rest := by
    intro rest
    rw [h.askings, Cache.askings, List.countP_append, List.countP_cons_of_pos rfl, ← Cache.askings,
      ← Cache.askings]
    omega
  have hmade : ∀ {rest : List (Occurrence κ ε α)},
      Cache.makings (history ++ .asked key :: rest) = c.misses + Cache.makings rest := by
    intro rest
    rw [h.makings, Cache.makings, List.countP_append, List.countP_cons_of_neg Bool.false_ne_true,
      ← Cache.makings, ← Cache.makings]
  have hvalue : ∀ {rest : List (Occurrence κ ε α)} (other : κ),
      firstMade other (history ++ .asked key :: rest) =
        (c.get? other).or (firstMade other rest) := by
    intro rest other
    rw [firstMade_append, h.value other]
    rfl
  rw [makes_eq]
  cases hfound : c.get? key with
  | some a =>
    rw [getOrCreate_of_some hfound]
    refine ⟨?_, ?_, fun other => ?_, h.distinct⟩
    · rw [hasked]
      exact Nat.add_right_comm _ _ _
    · rw [hmade]
      rfl
    · rw [hvalue]
      exact (Option.or_none).symm
  | none =>
    cases outcome with
    | error e =>
      rw [getOrCreate_of_error hfound (fun _ => .error e) rfl]
      refine ⟨?_, ?_, fun other => ?_, h.distinct⟩
      · rw [hasked]
        rfl
      · rw [hmade]
        rfl
      · rw [hvalue]
        exact (Option.or_none).symm
    | ok a =>
      rw [getOrCreate_of_ok hfound (fun _ => .ok a) rfl]
      refine ⟨?_, ?_, fun other => ?_, ?_⟩
      · rw [hasked]
        rfl
      · rw [hmade]
        rfl
      · rw [hvalue, get?_of_entries_append rfl]
        exact congrArg _ (firstMade_made key other (.ok a : Except ε α)).symm
      · -- the key is new, since nothing was found under it
        have hnew : key ∉ c.entries.map Prod.fst := by
          rw [← isSome_get?_iff, hfound]
          exact Bool.false_ne_true
        rw [List.map_append]
        exact h.distinct.append (List.nodup_singleton key) (by simpa using hnew)

end Reflects

/-- What happens in a look-up is no drop. -/
theorem recent_create (history : List (Occurrence κ ε α)) (c : Cache κ α) (key : κ)
    (outcome : Except ε α) :
    recent (history ++ .asked key :: if c.makes key then [.made key outcome] else []) =
      recent history ++ .asked key :: if c.makes key then [.made key outcome] else [] := by
  refine recent_append history fun o ho => ?_
  obtain rfl | ho := List.mem_cons.mp ho
  · rfl
  · split at ho
    · rw [List.mem_singleton.mp ho]
      rfl
    · cases ho

/-- **Every run** keeps a cache in step with what has happened since the last drop. -/
theorem reflects_after (calls : List (Call κ ε α)) :
    (Run.after calls).cache.Reflects (recent (Run.after calls).history) := by
  induction calls using List.reverseRecOn with
  | nil => exact .nil
  | append_singleton calls call ih =>
    rw [Run.after, List.foldl_append, ← Run.after, List.foldl_cons, List.foldl_nil]
    cases call with
    | create key outcome =>
      -- only making and clearing change what is stored
      rw [Run.next, recent_create]
      exact ih.create key outcome
    | clear =>
      rw [Run.next, recent_dropped]
      exact .nil
    | get | contains | statistics | size => exact ih

/-- **What a cache tells after any run.** Since the last drop, every entry that was asked for is a
hit or a miss, every miss is something that was made, and there is one entry for each key for which
this succeeded. The value of a key is the first that was made for it, for all who look, and also for
the look-up that makes it. A look-up that makes nothing is the same whatever would have been made,
and one that makes something answers with it; where this fails, it is counted and nothing else
changes. -/
theorem run_spec (calls : List (Call κ ε α)) :
    let run := Run.after calls
    let c := run.cache
    let history := recent run.history
    c.statistics.hits + c.statistics.misses = askings history ∧
    c.statistics.misses = makings history ∧
    c.statistics.entries = (madeKeys history).card ∧ c.size = (madeKeys history).card ∧
    (∀ key, c.get? key = firstMade key history ∧ c.contains key = decide (key ∈ madeKeys history)) ∧
    (∀ key (make : Unit → Except ε α) a, (c.getOrCreate key make).1 = .ok a ↔
      firstMade key (recent (run.next (.create key (make ()))).history) = some a) ∧
    ∀ key (make : Unit → Except ε α),
      (c.makes key = false → ∀ other : Unit → Except ε α,
        c.getOrCreate key make = c.getOrCreate key other) ∧
      (c.makes key = true → (c.getOrCreate key make).1 = make () ∧
        ∀ e, make () = .error e →
          c.getOrCreate key make = (.error e, { c with misses := c.misses + 1 })) := by
  intro run c history
  have h : c.Reflects history := reflects_after calls
  refine ⟨?_, ?_, ?_, h.size_eq, fun key => ⟨h.value key, ?_⟩, fun key make a => ?_,
    fun key make => ⟨fun hmakes other => ?_, fun hmakes => ?_⟩⟩
  · exact (Int.natCast_add _ _).symm.trans (congrArg _ h.askings)
  · exact congrArg _ h.makings
  · exact congrArg _ h.size_eq
  · rw [contains, h.value key, Bool.eq_iff_iff, decide_eq_true_iff, mem_madeKeys_iff]
  · -- the history of one more look-up ends with what is made in it
    rw [Run.next, recent_create, firstMade_append, ← h.value key, makes_eq]
    show (c.getOrCreate key make).1 = .ok a ↔ (c.get? key).or (firstMade key (.asked key ::
      if (c.get? key).isNone then [.made key (make ())] else [])) = some a
    cases hfound : c.get? key with
    | some b =>
      rw [getOrCreate_of_some hfound]
      simp
    | none =>
      rw [getOrCreate_of_none hfound, Option.isNone_none, if_pos rfl, firstMade_made,
        if_pos rfl, Option.none_or]
      cases make () <;> simp [Except.toOption]
  · rw [makes_eq] at hmakes
    obtain ⟨a, hfound⟩ := Option.isSome_iff_exists.mp (Option.isNone_eq_false_iff.mp hmakes)
    rw [getOrCreate_of_some hfound, getOrCreate_of_some hfound]
  · rw [makes_eq] at hmakes
    have hfound := Option.isNone_iff_eq_none.mp hmakes
    exact ⟨getOrCreate_of_none hfound make, fun e => getOrCreate_of_error hfound make⟩

/-- A value that means nothing is kept: the second look-up finds it. And a failure to make something
for another key leaves it missing. -/
theorem run_spec_of_null :
    let run : Run Nat Unit (Option Nat) :=
      .after [.create 0 (.ok none), .create 0 (.ok (some 7)), .create 1 (.error ())]
    run.cache.get? 0 = some none ∧ run.cache.statistics = ⟨1, 2, 1⟩ ∧
      run.cache.makes 1 = true ∧ run.cache.getOrCreate 1 (fun _ => (.error () : Except Unit _)) =
        (.error (), { run.cache with misses := 3 }) := by
  intro run
  obtain ⟨-, -, -, -, hvalue, -, hmakes⟩ := run_spec
    [.create 0 (.ok none), .create 0 (.ok (some 7)), .create 1 (.error () : Except Unit (Option Nat))]
  have hmissing : run.cache.makes 1 = true := by decide
  exact ⟨(hvalue 0).1.trans (by decide), by decide, hmissing, ((hmakes 1 _).2 hmissing).2 () rfl⟩

end RecordQuery.Cache
