import RecordQuery.Annotation.Lexeme

/-!
# Expressions of annotations

The expressions that an annotation given as text can be: names, constants, displays of collections,
attributes, arguments in brackets and parentheses, and operators between them.

* `Expr` is an expression;
* `Expr.ofText?` reads a text as one, if it is one.

Operators bind, from the loosest to the tightest: `lambda`, `if … else`, `or`, `and`, `not`,
comparisons, `|`, `^`, `&`, shifts, sums, products, signs, `**`, and what follows an operand
directly.
-/

namespace RecordQuery.Annotation

/-- The brackets around the elements of a collection. -/
inductive Bracket where
  | tuple
  | list
  | set
  deriving DecidableEq, Repr

/-- An expression. -/
inductive Expr where
  | name (s : String)
  | constant (v : Value)
  | ellipsis
  | display (b : Bracket) (items : List Expr)
  /-- Keys and values by turns. -/
  | mapping (items : List Expr)
  | attribute (e : Expr) (name : String)
  | subscript (e index : Expr)
  | slice (start stop step : Expr)
  | call (f : Expr) (arguments : List Expr)
  | signed (sign : String) (e : Expr)
  | operator (sign : String) (a b : Expr)
  /-- An operand, and the signs and operands that follow it. -/
  | comparison (first : Expr) (signs : List String) (others : List Expr)
  | both (a b : Expr)
  | either (a b : Expr)
  | negated (e : Expr)
  | choice (condition yes no : Expr)
  | lambda
  | starred (e : Expr)
  /-- The elements that are made from those of another expression, and the brackets around them; a
  generator has none. -/
  | generated (b : Option Bracket) (source : Expr)
  deriving Inhabited

namespace Expr

/-- Whether an expression is spread out into its elements. -/
def isStarred : Expr → Bool
  | starred _ => true
  | _ => false

/-- The signs of operators from the loosest to the tightest level. -/
def levels : List (List String) :=
  [["|"], ["^"], ["&"], ["<<", ">>"], ["+", "-"], ["*", "/", "//", "%", "@"]]

/-- The sign of a comparison at the beginning of some words, and the rest. -/
def comparisonSign? : List Lexeme → Option (String × List Lexeme)
  | .name "not" :: .name "in" :: ts => some ("not in", ts)
  | .name "is" :: .name "not" :: ts => some ("is not", ts)
  | .name "in" :: ts => some ("in", ts)
  | .name "is" :: ts => some ("is", ts)
  | .sign s :: ts => if ["==", "!=", "<", "<=", ">", ">="].contains s then some (s, ts) else none
  | _ => none

/-- The constant of adjacent texts, which are one, or of adjacent bytes, and the rest. -/
def joinedTexts? : Value → List Lexeme → Option (Expr × List Lexeme)
  | .text s, .text t :: ts => joinedTexts? (.text (s ++ t)) ts
  | .bytes b, .bytes c :: ts => joinedTexts? (.bytes (b ++ c)) ts
  | .text _, .bytes _ :: _ | .bytes _, .text _ :: _ => none
  | v, ts => some (.constant v, ts)
termination_by structural _ ts => ts

/-- The expression of a word that stands for itself, and the rest. -/
def word? : List Lexeme → Option (Expr × List Lexeme)
  | .name "None" :: ts => some (.constant .null, ts)
  | .name "True" :: ts => some (.constant (.bool true), ts)
  | .name "False" :: ts => some (.constant (.bool false), ts)
  | .name s :: ts => if keywords.contains s then none else some (.name s, ts)
  | .number v :: ts => some (.constant v, ts)
  | .text s :: ts => joinedTexts? (.text s) ts
  | .bytes b :: ts => joinedTexts? (.bytes b) ts
  | .sign "..." :: ts => some (.ellipsis, ts)
  | _ => none

/-- An absent bound of a slice. -/
def noBound : Expr := .constant .null

/-- The items between parentheses: without a comma a single one stands for itself, and cannot be
starred. -/
def grouped? (items : List Expr) (hasComma : Bool) : Option Expr :=
  match items, hasComma with
  | [.starred _], false => none
  | [e], false => some e
  | es, _ => some (.display .tuple es)

/-- The items between the brackets of an index: without a comma a single one stands for itself. -/
def indexOf (items : List Expr) (hasComma : Bool) : Expr :=
  match items, hasComma with
  | [.starred e], false => .display .tuple [.starred e]
  | [e], false => e
  | es, _ => .display .tuple es

/-- What closes a bracket. -/
def closingSign : Bracket → String
  | .tuple => ")"
  | .list => "]"
  | .set => "\x7d"

mutual

/-- Reads an expression; each step of reading takes up one unit of the first argument. -/
def expression? : Nat → List Lexeme → Option (Expr × List Lexeme)
  | 0, _ => none
  | n + 1, .name "lambda" :: ts => do
    let rest ← parameters? n ts
    let (_, rest) ← expression? n rest
    some (.lambda, rest)
  | n + 1, ts => do
    let (e, rest) ← disjunction? n ts
    match rest with
    | .name "if" :: more => do
      let (condition, rest) ← disjunction? n more
      match rest with
      | .name "else" :: more => do
        let (other, rest) ← expression? n more
        some (.choice condition e other, rest)
      | _ => none
    | rest => some (e, rest)

/-- Reads the parameters of a function and the colon after them. -/
def parameters? : Nat → List Lexeme → Option (List Lexeme)
  | 0, _ => none
  | _ + 1, .sign ":" :: ts => some ts
  | n + 1, .sign s :: ts =>
    if ["*", "**", "/", ","].contains s then parameters? n ts else none
  | n + 1, .name s :: .sign "=" :: ts => do
    if keywords.contains s then none
    let (_, rest) ← expression? n ts
    afterParameter? n rest
  | n + 1, .name s :: ts => if keywords.contains s then none else afterParameter? n ts
  | _ + 1, _ => none

/-- Reads what follows a parameter: further ones after a comma, or the colon. -/
def afterParameter? : Nat → List Lexeme → Option (List Lexeme)
  | 0, _ => none
  | n + 1, .sign "," :: ts => parameters? n ts
  | _ + 1, .sign ":" :: ts => some ts
  | _ + 1, _ => none

/-- Reads operands with `or` between them. -/
def disjunction? : Nat → List Lexeme → Option (Expr × List Lexeme)
  | 0, _ => none
  | n + 1, ts => do
    let (e, rest) ← conjunction? n ts
    match rest with
    | .name "or" :: more => (disjunction? n more).map fun p => (.either e p.1, p.2)
    | rest => some (e, rest)

/-- Reads operands with `and` between them. -/
def conjunction? : Nat → List Lexeme → Option (Expr × List Lexeme)
  | 0, _ => none
  | n + 1, ts => do
    let (e, rest) ← inversion? n ts
    match rest with
    | .name "and" :: more => (conjunction? n more).map fun p => (.both e p.1, p.2)
    | rest => some (e, rest)

/-- Reads a comparison, perhaps with `not` in front of it. -/
def inversion? : Nat → List Lexeme → Option (Expr × List Lexeme)
  | 0, _ => none
  | n + 1, .name "not" :: ts => (inversion? n ts).map fun p => (.negated p.1, p.2)
  | n + 1, ts => do
    let (e, rest) ← operators? n levels ts
    let (signs, others, rest) ← comparisons? n rest
    some (if signs.isEmpty then e else .comparison e signs others, rest)

/-- Reads the signs and operands that follow the first operand of a comparison. -/
def comparisons? : Nat → List Lexeme → Option (List String × List Expr × List Lexeme)
  | 0, _ => none
  | n + 1, ts =>
    match comparisonSign? ts with
    | none => some ([], [], ts)
    | some (sign, more) => do
      let (e, rest) ← operators? n levels more
      let (signs, others, rest) ← comparisons? n rest
      some (sign :: signs, e :: others, rest)

/-- Reads operands with operators of some levels between them. -/
def operators? : Nat → List (List String) → List Lexeme → Option (Expr × List Lexeme)
  | 0, _, _ => none
  | n + 1, [], ts => factor? n ts
  | n + 1, level :: tighter, ts => do
    let (e, rest) ← operators? n tighter ts
    afterOperand? n level tighter e rest

/-- Reads the operators of a level that follow an operand, from left to right. -/
def afterOperand? : Nat → List String → List (List String) → Expr → List Lexeme →
    Option (Expr × List Lexeme)
  | 0, _, _, _, _ => none
  | n + 1, level, tighter, e, .sign s :: ts =>
    if level.contains s then do
      let (other, rest) ← operators? n tighter ts
      afterOperand? n level tighter (.operator s e other) rest
    else some (e, .sign s :: ts)
  | _ + 1, _, _, e, ts => some (e, ts)

/-- Reads an operand with signs in front of it. -/
def factor? : Nat → List Lexeme → Option (Expr × List Lexeme)
  | 0, _ => none
  | n + 1, .sign s :: ts =>
    if ["+", "-", "~"].contains s then (factor? n ts).map fun p => (.signed s p.1, p.2)
    else power? n (.sign s :: ts)
  | n + 1, ts => power? n ts

/-- Reads an operand, perhaps with an exponent. -/
def power? : Nat → List Lexeme → Option (Expr × List Lexeme)
  | 0, _ => none
  | n + 1, ts => do
    let (e, rest) ← atom? n ts
    let (e, rest) ← trailers? n e rest
    match rest with
    -- an exponent may have signs in front of it, and binds to the right
    | .sign "**" :: more => (factor? n more).map fun p => (.operator "**" e p.1, p.2)
    | rest => some (e, rest)

/-- Reads the attributes, indices and arguments that follow an operand. -/
def trailers? : Nat → Expr → List Lexeme → Option (Expr × List Lexeme)
  | 0, _, _ => none
  | n + 1, e, .sign "." :: .name s :: ts =>
    if keywords.contains s then none else trailers? n (.attribute e s) ts
  | _ + 1, _, .sign "." :: _ => none
  | n + 1, e, .sign "[" :: ts => do
    let (items, hasComma, rest) ← indices? n ts
    if items.isEmpty then none
    trailers? n (.subscript e (indexOf items hasComma)) rest
  | n + 1, e, .sign "(" :: ts => do
    let (arguments, rest) ← arguments? n ts
    trailers? n (.call e arguments) rest
  | _ + 1, e, ts => some (e, ts)

/-- Reads a single operand. -/
def atom? : Nat → List Lexeme → Option (Expr × List Lexeme)
  | 0, _ => none
  | n + 1, .sign "(" :: ts => do
    let (items, hasComma, rest) ← items? n .tuple ts
    match items with
    | [.generated none source] =>
      if hasComma then none else some (.generated none source, rest)
    | [] => some (.display .tuple [], rest)
    | items => (grouped? items hasComma).map fun e => (e, rest)
  | n + 1, .sign "[" :: ts => do
    let (items, hasComma, rest) ← items? n .list ts
    match items with
    | [.generated none source] =>
      if hasComma then none else some (.generated (some .list) source, rest)
    | items => some (.display .list items, rest)
  | _ + 1, .sign "\x7b" :: .sign "\x7d" :: ts => some (.mapping [], ts)
  | n + 1, .sign "\x7b" :: ts =>
    -- keys and values are tried first; what is no mapping may be a set
    match entries? n ts with
    | some found => some found
    | none => do
      let (items, hasComma, rest) ← items? n .set ts
      match items with
      | [.generated none source] =>
        if hasComma then none else some (.generated (some .set) source, rest)
      | items => some (.display .set items, rest)
  | _ + 1, ts => word? ts

/-- Reads one item: an expression, perhaps starred or under a new name. -/
def item? : Nat → List Lexeme → Option (Expr × List Lexeme)
  | 0, _ => none
  | n + 1, .sign "*" :: ts => (operators? n levels ts).map fun p => (.starred p.1, p.2)
  -- the new name says nothing about what the expression denotes
  | n + 1, .name s :: .sign ":=" :: ts => if keywords.contains s then none else expression? n ts
  | n + 1, ts => expression? n ts

/-- Reads the items up to a closing bracket, and tells whether there is a comma among them. Items
that are made from others are a single one. -/
def items? : Nat → Bracket → List Lexeme → Option (List Expr × Bool × List Lexeme)
  | 0, _, _ => none
  | n + 1, b, .sign s :: ts =>
    if s = closingSign b then some ([], false, ts) else itemsFrom? n b (.sign s :: ts)
  | n + 1, b, ts => itemsFrom? n b ts

/-- Reads at least one item up to a closing bracket. -/
def itemsFrom? : Nat → Bracket → List Lexeme → Option (List Expr × Bool × List Lexeme)
  | 0, _, _ => none
  | n + 1, b, ts => do
    let (e, rest) ← item? n ts
    match rest with
    -- after a comma the bracket may close, or a further item follow
    | .sign "," :: more => (items? n b more).map fun p => (e :: p.1, true, p.2.2)
    | .name "for" :: more => do
      if e.isStarred then none
      let (source, rest) ← source? n more
      match rest with
      | .sign s :: rest =>
        if s = closingSign b then some ([.generated none source], false, rest) else none
      | _ => none
    | .sign s :: rest => if s = closingSign b then some ([e], false, rest) else none
    | _ => none

/-- Reads where items come from: targets, the source of their values, and conditions. -/
def source? : Nat → List Lexeme → Option (Expr × List Lexeme)
  | 0, _ => none
  | n + 1, ts => do
    let rest ← targets? n ts
    let (source, rest) ← disjunction? n rest
    let rest ← conditions? n rest
    some (source, rest)

/-- Reads the targets of values up to the word after them. -/
def targets? : Nat → List Lexeme → Option (List Lexeme)
  | 0, _ => none
  | n + 1, ts => do
    let (_, rest) ← operators? n levels ts
    match rest with
    | .name "in" :: rest => some rest
    -- a comma may stand after the last target
    | .sign "," :: .name "in" :: rest => some rest
    | .sign "," :: rest => targets? n rest
    | _ => none

/-- Reads the conditions on values, and further sources. -/
def conditions? : Nat → List Lexeme → Option (List Lexeme)
  | 0, _ => none
  | n + 1, .name "if" :: ts => do
    let (_, rest) ← disjunction? n ts
    conditions? n rest
  | n + 1, .name "for" :: ts => do
    let (_, rest) ← source? n ts
    some rest
  | _ + 1, ts => some ts

/-- Reads the keys and values of a mapping up to its closing bracket. -/
def entries? : Nat → List Lexeme → Option (Expr × List Lexeme)
  | 0, _ => none
  | n + 1, .sign "**" :: ts => do
    let (e, rest) ← operators? n levels ts
    moreEntries? n [.starred e] rest
  | n + 1, ts => do
    let (key, rest) ← expression? n ts
    match rest with
    | .sign ":" :: more => do
      let (value, rest) ← expression? n more
      moreEntries? n [key, value] rest
    | _ => none

/-- Reads what follows an entry of a mapping. -/
def moreEntries? : Nat → List Expr → List Lexeme → Option (Expr × List Lexeme)
  | 0, _, _ => none
  | _ + 1, entry, .sign "\x7d" :: ts | _ + 1, entry, .sign "," :: .sign "\x7d" :: ts =>
    some (.mapping entry, ts)
  | n + 1, entry, .sign "," :: ts => do
    let (rest, more) ← entries? n ts
    match rest with
    | .mapping entries => some (.mapping (entry ++ entries), more)
    | _ => none
  | n + 1, _, .name "for" :: ts => do
    let (source, rest) ← source? n ts
    match rest with
    | .sign "\x7d" :: rest => some (.generated (some .set) source, rest)
    | _ => none
  | _ + 1, _, _ => none

/-- Reads the indices up to the closing bracket, and tells whether there is a comma among them. -/
def indices? : Nat → List Lexeme → Option (List Expr × Bool × List Lexeme)
  | 0, _ => none
  | _ + 1, .sign "]" :: ts => some ([], false, ts)
  | n + 1, ts => do
    let (e, rest) ← index? n ts
    match rest with
    | .sign "," :: more => (indices? n more).map fun p => (e :: p.1, true, p.2.2)
    | .sign "]" :: rest => some ([e], false, rest)
    | _ => none

/-- Reads one index: an item or a slice. -/
def index? : Nat → List Lexeme → Option (Expr × List Lexeme)
  | 0, _ => none
  | n + 1, .sign ":" :: ts => slice? n noBound ts
  | n + 1, ts => do
    let (start, rest) ← item? n ts
    match rest with
    | .sign ":" :: more => slice? n start more
    | rest => some (start, rest)

/-- Reads what follows the first colon of a slice. -/
def slice? : Nat → Expr → List Lexeme → Option (Expr × List Lexeme)
  | 0, _, _ => none
  | n + 1, start, ts => do
    let (stop, rest) ← bound? n ts
    match rest with
    | .sign ":" :: more => (bound? n more).map fun p => (.slice start stop p.1, p.2)
    | rest => some (.slice start stop noBound, rest)

/-- Reads a bound of a slice, which may be missing. -/
def bound? : Nat → List Lexeme → Option (Expr × List Lexeme)
  | 0, _ => none
  | n + 1, .sign s :: ts =>
    if [":", "]", ","].contains s then some (noBound, .sign s :: ts)
    else expression? n (.sign s :: ts)
  | n + 1, ts => expression? n ts

/-- Reads the arguments of a call up to the closing parenthesis. -/
def arguments? : Nat → List Lexeme → Option (List Expr × List Lexeme)
  | 0, _ => none
  | _ + 1, .sign ")" :: ts => some ([], ts)
  | n + 1, ts => do
    let (e, rest) ← argument? n ts
    match rest with
    | .sign "," :: more => (arguments? n more).map fun p => (e :: p.1, p.2)
    | .sign ")" :: rest => some ([e], rest)
    | .name "for" :: more => do
      if e.isStarred then none
      let (source, rest) ← source? n more
      match rest with
      | .sign ")" :: rest => some ([.generated none source], rest)
      | _ => none
    | _ => none

/-- Reads one argument, perhaps under a name or spread out of a collection or a mapping. -/
def argument? : Nat → List Lexeme → Option (Expr × List Lexeme)
  | 0, _ => none
  | n + 1, .sign "**" :: ts => (expression? n ts).map fun p => (.starred p.1, p.2)
  | n + 1, .name s :: .sign "=" :: ts =>
    if keywords.contains s then none
    else (expression? n ts).map fun p => (.starred p.1, p.2)
  | n + 1, ts => item? n ts

end

/-- The steps that reading takes at most for each word, and for the end. -/
def stepsPerWord : Nat := 32

/-- Reads one or more expressions with commas between them up to the end, and tells whether there
is a comma. -/
def expressions? : Nat → List Lexeme → Option (List Expr × Bool)
  | 0, _ => none
  | n + 1, ts => do
    let (e, rest) ← expression? n ts
    match rest with
    | [] => some ([e], false)
    | [.sign ","] => some ([e], true)
    | .sign "," :: more => (expressions? n more).map fun p => (e :: p.1, true)
    | _ => none

/-- The expression that some words are. -/
def ofLexemes? (ts : List Lexeme) : Option Expr := do
  let (items, hasComma) ← expressions? (stepsPerWord * (ts.length + 1)) ts
  grouped? items hasComma

/-- The expression that a text is. -/
def ofText? (s : String) : Option Expr := (lexemes? s.toList).bind ofLexemes?

end Expr
end RecordQuery.Annotation
