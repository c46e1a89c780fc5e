import RecordQuery.Annotation.Thing
import RecordQuery.Number.Bits
import RecordQuery.Value.Compare

/-!
# Denotation of annotations

Evaluating the expression of an annotation, from left to right, over the names of a schema and of
the basic module.

* `Thing.combine` is what an operator between two things gives, `Thing.compares` what a comparison
  does;
* `Expr.evaluate` is the thing that an expression denotes.

Arithmetic is carried out on integers; with other numbers an operator gives some number, which is
never the type that an annotation is to denote.
-/

namespace RecordQuery.Annotation

namespace Thing

/-! ### Operators -/

/-- An integer as a thing. -/
def ofInt (n : Int) : Thing := value (.int n)

/-- Powers and shifts of integers are carried out up to this exponent. -/
def exponentLimit : Int := 1024

/-- Two to a power, where it is carried out. -/
def powerOfTwo (n : Int) : Int := (Nat.pow 2 n.toNat : Nat)

/-- What an operator between two integers gives. -/
def combineIntegers (sign : String) (m n : Int) : Except Fault Thing :=
  match sign with
  | "+" => .ok (ofInt (m + n))
  | "-" => .ok (ofInt (m - n))
  | "*" => .ok (ofInt (m * n))
  | "//" => if n = 0 then .error .zeroDivisor else .ok (ofInt (m.fdiv n))
  | "%" => if n = 0 then .error .zeroDivisor else .ok (ofInt (m.fmod n))
  | "/" => if n = 0 then .error .zeroDivisor else .ok (object none)
  | "**" =>
    -- a negative power is a fraction
    if n < 0 then if m = 0 then .error .zeroDivisor else .ok (object none)
    else if exponentLimit < n then .ok (object none)
    else .ok (ofInt (Int.pow m n.toNat))
  | "<<" =>
    if n < 0 then .error .invalidValue
    else if exponentLimit < n then .ok (object none)
    else .ok (ofInt (m * powerOfTwo n))
  | ">>" =>
    if n < 0 then .error .invalidValue
    else .ok (ofInt (m.fdiv (powerOfTwo (min n exponentLimit))))
  | "&" => .ok (ofInt (Bits.both m n))
  | "|" => .ok (ofInt (Bits.either m n))
  | "^" => .ok (ofInt (Bits.differ m n))
  | _ => .error .unsupported

/-- The signs of operators on all numbers. -/
def numberSigns : List String := ["+", "-", "*", "/", "//", "%", "**"]

/-- The signs of operators on sets. -/
def setSigns : List String := ["|", "&", "-", "^"]

/-- What an operator between two values gives that are not both integers: texts and bytes can be
put together and repeated, and texts filled in. -/
def combineValues (sign : String) (v w : Value) : Except Fault Thing :=
  match sign, v.unwrapped, w.unwrapped with
  | "+", .text s, .text t => .ok (ofText (s ++ t))
  | "+", .bytes b, .bytes c => .ok (value (.bytes (b ++ c)))
  | "*", .text s, .int n | "*", .int n, .text s =>
    if exponentLimit < n then .ok (object none)
    else .ok (ofText (String.join (List.replicate n.toNat s)))
  | _, v, w =>
    match v.asNumber?, w.asNumber? with
    | some _, some d =>
      if !numberSigns.contains sign then .error .unsupported
      else if ["/", "//", "%"].contains sign && d.compare? (.ofInt 0) == some .eq then
        .error .zeroDivisor
      else .ok (object none)
    | _, _ => .error .unsupported

/-- What an operator between two things gives: a bar between types their union, and other operators
what they give for numbers, texts and collections. -/
def combine (s : Schema) (sign : String) (x y : Thing) : Except Fault Thing :=
  match x, y with
  | type t, y => if sign = "|" then (TypeExpr.bar t (y.asType s)).map type else .error .unsupported
  | x, type t => if sign = "|" then (TypeExpr.bar (x.asType s) t).map type else .error .unsupported
  -- truth values stay such under the operators on bits only
  | value (.bool a), value (.bool b) =>
    match sign with
    | "|" => .ok (value (.bool (a || b)))
    | "&" => .ok (value (.bool (a && b)))
    | "^" => .ok (value (.bool (a != b)))
    | sign => combineIntegers sign (if a then 1 else 0) (if b then 1 else 0)
  | value v, value w =>
    match x.index?, y.index? with
    | some m, some n => combineIntegers sign m n
    | _, _ => combineValues sign v w
  | items .set _, items .set _ =>
    if setSigns.contains sign then .ok (object none) else .error .unsupported
  | items b xs, items c ys =>
    if sign = "+" && b = c then .ok (items b (xs ++ ys)) else .error .unsupported
  | items .set _, _ | _, items .set _ => .error .unsupported
  | items b xs, y =>
    match sign, y.index? with
    | "*", some n =>
      if exponentLimit < n then .ok (object none)
      else .ok (items b (List.replicate n.toNat xs).flatten)
    | _, _ => .error .unsupported
  | mapping _, mapping _ => if sign = "|" then .ok (object none) else .error .unsupported
  | _, _ => .error .unsupported

/-- What a sign in front of a thing gives, which has to be a number. -/
def signed (sign : String) (x : Thing) : Except Fault Thing :=
  match x, x.index? with
  | _, some n => .ok (ofInt (if sign = "-" then -n else if sign = "~" then -n - 1 else n))
  | value (.float _), none => if sign = "~" then .error .unsupported else .ok (object none)
  | _, none => .error .unsupported

/-! ### Comparisons -/

/-- The signs of order tests. -/
def orderSigns : List (String × OrderTest) := [("<", .lt), ("<=", .le), (">", .gt), (">=", .ge)]

/-- Whether two things are one: constants are if they are equal and of one type. -/
def identical (s : Schema) (x y : Thing) : Bool :=
  match x, y with
  | items _ _, _ | _, items _ _ | mapping _, _ | _, mapping _ => false
  | x, y => x.typeOf s = y.typeOf s && same s x y

/-- Whether a collection holds a thing. -/
def holds (s : Schema) (whole part : Thing) : Except Fault Bool :=
  match whole, part with
  | value v, part =>
    match v.asText?, part with
    | some text, value w =>
      match w.asText? with
      | some t => .ok (Text.occursIn t.toList text.toList)
      | none => .error .unsupported
    | _, _ => .error .unsupported
  | type (.named owner), value (.member _ other _ _) => .ok (owner == other)
  | type _, _ => .error .unsupported
  | whole, part =>
    match whole.elements? s with
    | some xs => .ok (xs.any fun x => same s x part)
    | none => .error .unsupported

/-- The values that things are, if they are values all. -/
def values? : List Thing → Option (List Value)
  | [] => some []
  | value v :: xs => (values? xs).map (v :: ·)
  | _ :: _ => none

/-- A thing as a value, where its order can be told. -/
def orderValue? : Thing → Option Value
  | value v => some v
  | items .list xs => (values? xs).map .list
  | items .tuple xs => (values? xs).map .tuple
  | items .set xs => (values? xs).map .set
  | _ => none

/-- Whether two things compare as a sign says. -/
def compares (s : Schema) (sign : String) (x y : Thing) : Except Fault Bool :=
  match sign with
  | "==" => .ok (same s x y)
  | "!=" => .ok (!same s x y)
  | "is" => .ok (identical s x y)
  | "is not" => .ok (!identical s x y)
  | "in" => holds s y x
  | "not in" => (holds s y x).map (!·)
  | sign =>
    match orderSigns.lookup sign, x.orderValue?, y.orderValue? with
    | some test, some v, some w => v.orders test w
    | _, _, _ => .error .unsupported

/-! ### Names and displays -/

/-- What a name stands for. -/
def ofName (s : Schema) (name : String) : Except Fault Thing :=
  match typeOfName? s name with
  | some t => .ok (type t)
  | none =>
    if name = "Ellipsis" then .ok ellipsis
    else if name = "__debug__" then .ok (value (.bool true))
    else if functionNames.contains name then .ok (function name)
    else if objectNames.contains name then .ok (object none)
    else .error .unknownName

/-- A collection of some things. The elements of a set have to be keys, and equal ones are one. -/
def collection (s : Schema) (b : Bracket) (xs : List Thing) : Except Fault Thing :=
  match b with
  | .set =>
    let add (kept : List Thing) (x : Thing) := if kept.any (same s x) then kept else kept ++ [x]
    if allKeys xs then .ok (items .set (xs.foldl add [])) else .error .unsupported
  | b => .ok (items b xs)

end Thing

/-! ### Expressions -/

namespace Expr

open Thing

mutual

/-- The thing that an expression denotes. -/
def evaluate (s : Schema) : Expr → Except Fault Thing
  | name n => Thing.ofName s n
  | constant v => .ok (.value v)
  | ellipsis => .ok .ellipsis
  | display b xs => do collection s b (← evaluateItems s xs)
  | mapping xs => (evaluateEntries s xs).map .mapping
  | Expr.attribute e n => do (← evaluate s e).member s n
  | subscript e i => do
    let x ← evaluate s e
    let index ← evaluate s i
    x.item s index
  | slice start stop step => do
    let first ← evaluate s start
    let last ← evaluate s stop
    let by_ ← evaluate s step
    .ok (.slice [first, last, by_])
  | call f xs => do
    let x ← evaluate s f
    let arguments ← evaluateArguments s xs
    x.call s arguments
  | signed sign e => do (← evaluate s e).signed sign
  | operator sign a b => do
    let x ← evaluate s a
    let y ← evaluate s b
    x.combine s sign y
  | comparison first signs others => do
    let x ← evaluate s first
    evaluateChain s x signs others
  -- `and` and `or` give one of their operands, not its truth value
  | both a b => do
    let x ← evaluate s a
    if x.isTrue then evaluate s b else .ok x
  | either a b => do
    let x ← evaluate s a
    if x.isTrue then .ok x else evaluate s b
  | negated e => do .ok (.value (.bool !(← evaluate s e).isTrue))
  | choice condition yes no => do
    if (← evaluate s condition).isTrue then evaluate s yes else evaluate s no
  | lambda => .ok (function "<lambda>")
  | starred e => evaluate s e
  | generated b source => do
    match (← evaluate s source).elements? s, b with
    | none, _ => .error .unsupported
    | some _, none => .ok (function "<genexpr>")
    | some _, some _ => .ok (.object none)
termination_by structural e => e

/-- The things that some items denote; a starred item is spread out into its elements. -/
def evaluateItems (s : Schema) : List Expr → Except Fault (List Thing)
  | [] => .ok []
  | starred e :: es => do
    match (← evaluate s e).elements? s with
    | none => .error .unsupported
    | some xs => (evaluateItems s es).map (xs ++ ·)
  | e :: es => do
    let x ← evaluate s e
    (evaluateItems s es).map (x :: ·)
termination_by structural es => es

/-- The keys and values that the entries of a mapping denote; a starred entry is another mapping. -/
def evaluateEntries (s : Schema) : List Expr → Except Fault (List Thing)
  | starred e :: es => do
    match ← evaluate s e with
    | .mapping xs => (evaluateEntries s es).map (xs ++ ·)
    | _ => .error .unsupported
  | k :: v :: es => do
    let key ← evaluate s k
    let x ← evaluate s v
    if key.isKey then (evaluateEntries s es).map (key :: x :: ·) else .error .unsupported
  | _ => .ok []
termination_by structural es => es

/-- The things that some arguments denote, those that are spread out or have a name as one each. -/
def evaluateArguments (s : Schema) : List Expr → Except Fault (List Thing)
  | [] => .ok []
  | e :: es => do
    let x ← evaluate s e
    (evaluateArguments s es).map (x :: ·)
termination_by structural es => es

/-- What a chain of comparisons denotes, after the operand in front of it: it ends at the first
comparison that does not hold. -/
def evaluateChain (s : Schema) (x : Thing) (signs : List String) :
    List Expr → Except Fault Thing
  | [] => .ok x
  | e :: es => do
    let y ← evaluate s e
    let result ← Thing.compares s (signs.headD "") x y
    if !result || es.isEmpty then .ok (.value (.bool result))
    else evaluateChain s y signs.tail es
termination_by structural es => es

end

end Expr
end RecordQuery.Annotation
