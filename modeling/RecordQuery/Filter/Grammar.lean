import RecordQuery.Filter

/-!
# Filter text

The grammar of filters:

* `column:op(value)` is a leaf, with one of the eleven operators; the value is kept as it is
  written, and its parentheses balance;
* `column:value` is a leaf that tests for equality with the trimmed value;
* `and(…)` and `or(…)` are groups, `column:any(…)` and `column:all(…)` quantified filters, each with
  one or more arguments between commas.

Words are read in any letter case. Main definitions:

* `splitArguments` cuts a text at the commas outside parentheses;
* `callBody` is the text between a parenthesis and its partner, which has to end the text;
* `Filter.parse` and `Filter.parseAll` read one filter and a list of filters;
* `checkValue` accepts the values that can stand between parentheses.
-/

namespace RecordQuery

open Text

/-! ### Parentheses -/

/-- Puts a character in front of the first of some texts. -/
def consFirst (c : Char) : List (List Char) → List (List Char)
  | [] => [[c]]
  | p :: ps => (c :: p) :: ps

/-- The texts between the commas outside parentheses, for a text that stands inside `depth` of
them and begins at `index`; or the index of the first parenthesis that closes nothing, or that of
the end if some are left open. -/
def splitFrom (depth index : Nat) : List Char → Except Nat (List (List Char))
  | [] => if depth = 0 then .ok [[]] else .error index
  | c :: cs =>
    if c = '(' then (splitFrom (depth + 1) (index + 1) cs).map (consFirst c)
    else if c = ')' then
      if depth = 0 then .error index else (splitFrom (depth - 1) (index + 1) cs).map (consFirst c)
    else if c = ',' ∧ depth = 0 then (splitFrom 0 (index + 1) cs).map ([] :: ·)
    else (splitFrom depth (index + 1) cs).map (consFirst c)

/-- The trimmed texts between the commas outside parentheses. -/
def splitArguments (cs : List Char) : Except Error (List (List Char)) :=
  match splitFrom 0 0 cs with
  | .ok parts => .ok (parts.map trim)
  | .error index => .error (.grammar .unbalanced (some (.plain (String.ofList cs))) (some index))

/-- The index of the first parenthesis that closes nothing, or that of the end of a text with open
ones; none if the parentheses balance. -/
def imbalanceFrom (depth index : Nat) : List Char → Option Nat
  | [] => if depth = 0 then none else some index
  | c :: cs =>
    if c = '(' then imbalanceFrom (depth + 1) (index + 1) cs
    else if c = ')' then
      if depth = 0 then some index else imbalanceFrom (depth - 1) (index + 1) cs
    else imbalanceFrom depth (index + 1) cs

/-- The text itself, if its parentheses balance, so that it can stand between parentheses and be
read back. -/
def checkValue (raw : RawText) : Except Error RawText :=
  match imbalanceFrom 0 0 raw.text.toList with
  | none => .ok raw
  | some index => .error (.grammar .unbalancedValue (some raw) (some index))

/-- The text up to the parenthesis that closes the innermost open one, and the text after it. -/
def closing (depth : Nat) : List Char → Option (List Char × List Char)
  | [] => none
  | c :: cs =>
    if c = ')' then
      match depth with
      | 0 => some ([], cs)
      | d + 1 => (closing d cs).map fun p => (c :: p.1, p.2)
    else
      (closing (if c = '(' then depth + 1 else depth) cs).map fun p => (c :: p.1, p.2)

/-- The text between the parenthesis at an index and its partner, which only blanks may follow. -/
def callBody (cs : List Char) (index : Nat) : Except Error (List Char) :=
  match closing 0 (cs.drop (index + 1)) with
  | none => .error (.grammar .unbalanced (some (.plain (String.ofList cs))) (some index))
  | some (body, rest) =>
    if rest.all isBlank then .ok body
    else
      .error (.grammar .trailingText (some (.plain (String.ofList cs)))
        (some (index + body.length + 2)))

/-- The arguments of a combinator: at least one, and none of them blank. -/
def combinatorArguments (body text : List Char) : Except Error (List (List Char)) := do
  let args ← splitArguments body
  -- an empty body has one empty argument, which gets a message of its own
  if args = [[]] then .error (.inText .noArguments (String.ofList text))
  else if args.any List.isEmpty then .error (.inText .emptyArgument (String.ofList text))
  else .ok args

/-! ### Calls -/

/-- A word before a parenthesis and the index of the parenthesis, when a text begins with a word of
letters, up to blanks, and a parenthesis. -/
def call? (cs : List Char) : Option (String × Nat) :=
  let (before, rest) := cs.span isBlank
  let (word, rest) := rest.span Char.isAlpha
  let (between, rest) := rest.span isBlank
  match word, rest with
  | _ :: _, '(' :: _ => some (String.ofList word, before.length + word.length + between.length)
  | _, _ => none

/-- The connective before the first parenthesis and the index of the parenthesis, when a text
begins with a connective, up to blanks, and a parenthesis. -/
def connectiveCall? (cs : List Char) : Option (Connective × Nat) :=
  match cs.span (· != '(') with
  | (word, _ :: _) =>
    if word.contains ':' then none
    else (Connective.ofToken? (String.ofList word)).map fun k => (k, word.length)
  | _ => none

/-! ### Filters -/

namespace Filter

/-- Reads a filter whose parentheses are nested at most so deep; the length of the text suffices,
since an argument is shorter than its call. -/
def readNested : Nat → List Char → Except Error Filter
  | 0, cs => .error (.inText .emptyFilter (String.ofList cs))
  | depth + 1, cs =>
    let text := trim cs
    if text.isEmpty then .error (.inText .emptyFilter (String.ofList cs))
    else
      -- a connective and a parenthesis: from here on nothing but a group will do
      match connectiveCall? text with
      | some (k, index) => do
        let body ← callBody text index
        let args ← combinatorArguments body text
        let children ← args.mapM (readNested depth)
        .ok (.group k children)
      | none =>
        match cut ':' text with
        | none => .error (.inText .missingSeparator (String.ofList text))
        | some (before, after) => do
          let column ← ColumnPath.parse (String.ofList before)
          if after.all isBlank then
            .error (.inText (.missingValue column.text) (String.ofList text))
          else
            match call? after with
            | none => .ok (.leaf column .eq (.plain (String.ofList (trim after))))
            | some (word, index) =>
              -- a known word has to be a call now, an unknown one is part of a value
              match Quantifier.ofToken? word, Operator.ofToken? word with
              | some q, _ => do
                let body ← callBody after index
                let args ← combinatorArguments body text
                let children ← args.mapM (readNested depth)
                .ok (.quantified q column (qualifyAll column children))
              | none, some o => do
                let body ← callBody after index
                .ok (.leaf column o (.plain (String.ofList body)))
              | none, none => .ok (.leaf column .eq (.plain (String.ofList (trim after))))

/-- Reads a filter. -/
def read (cs : List Char) : Except Error Filter := readNested (cs.length + 1) cs

/-- The filter that a text denotes. -/
def parse (s : String) : Except Error Filter := read s.toList

/-- The filters that a text denotes: none if it is blank, else those between its commas. -/
def parseAll (s : String) : Except Error (List Filter) :=
  if isBlankText s then .ok []
  else do
    let args ← splitArguments s.toList
    if args.any List.isEmpty then .error (.inText .emptyFilter s)
    else args.mapM read

end Filter

/-- The parts that one part stands for where a list is expected: a filter for itself, the absent
value for none, a text for the filters that it denotes, and a collection for its elements. -/
def NodePart.spread : NodePart → Except Error (List NodePart)
  | .node f => .ok [.node f]
  | .value .null => .ok []
  | .value v =>
    match v.asText?, v.items? with
    | some t, _ => (Filter.parseAll t).map (·.map .node)
    | none, some xs => .ok (xs.map .value)
    | none, none => .error (.fault .unsupported)

/-- The parts that one part holds: a filter itself, and a value whatever can be gone through in
it. -/
def NodePart.held : NodePart → Except Error (List NodePart)
  | .node f => .ok [.node f]
  | .value v =>
    match v.items? with
    | some xs => .ok (xs.map .value)
    | none => .error (.fault .unsupported)

/-- What is given where filters are expected: one part, which is spread, or several. -/
inductive FilterInput where
  | one (part : NodePart)
  | several (parts : List NodePart)

/-- What is made of the filters that are given. -/
def FilterInput.withFilters {α : Type} (given : FilterInput)
    (make : List Filter → Except Error α) : Except Error α :=
  match given with
  | .one part => do NodePart.withFilters (← part.spread) make
  | .several parts => NodePart.withFilters parts make

end RecordQuery
