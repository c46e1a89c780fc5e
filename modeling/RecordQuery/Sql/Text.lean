import RecordQuery.Sql.Clause
import RecordQuery.Text.Blank
import RecordQuery.Text.Split
import RecordQuery.Value.Text

/-!
# Text of clauses

How clauses are written. Names are quoted where they have to be, values are written into the text,
and parts are put into brackets where the way in which they are joined asks for it.

* `nameText` and `literal` write names and values;
* `Clause.text` writes a clause inside queries that list some tables already;
* `oneLine` writes a text on a single line.
-/

namespace RecordQuery.Sql

open Text

/-! ### Names -/

/-- Words that are names only in quotes. -/
def reservedWords : List String :=
  ["all", "analyse", "analyze", "and", "any", "array", "as", "asc", "asymmetric", "authorization",
    "between", "binary", "both", "case", "cast", "check", "collate", "column", "constraint",
    "create", "cross", "current_date", "current_role", "current_time", "current_timestamp",
    "current_user", "default", "deferrable", "desc", "distinct", "do", "else", "end", "except",
    "false", "for", "foreign", "freeze", "from", "full", "grant", "group", "having", "ilike", "in",
    "initially", "inner", "intersect", "into", "is", "isnull", "join", "leading", "left", "like",
    "limit", "localtime", "localtimestamp", "natural", "new", "not", "notnull", "null", "off",
    "offset", "old", "on", "only", "or", "order", "outer", "overlaps", "placing", "primary",
    "references", "right", "select", "session_user", "set", "similar", "some", "symmetric",
    "table", "then", "to", "trailing", "true", "union", "unique", "user", "using", "verbose",
    "when", "where"]

/-- Whether a character may stand in a name without quotes. -/
def isPlainChar (c : Char) : Bool := c.isLower || c.isDigit || c == '_' || c == '$'

/-- Whether a name needs no quotes. -/
def isPlainName (s : String) : Bool :=
  match s.toList with
  | [] => false
  | c :: cs => !c.isDigit && c != '$' && (c :: cs).all isPlainChar && !reservedWords.contains s

/-- A text between marks, where the mark itself is written twice. -/
def enclosed (mark : Char) (cs : List Char) : String :=
  String.ofList (mark :: (cs.flatMap fun c => if c = mark then [mark, mark] else [c]) ++ [mark])

/-- A name, in double quotes if it needs them. -/
def nameText (s : String) : String := if isPlainName s then s else enclosed '\x22' s.toList

/-- A column with its table. -/
def ColumnRef.text (c : ColumnRef) : String := nameText c.table ++ "." ++ nameText c.label

/-! ### Values -/

/-- A text as a value. -/
def textLiteral (cs : List Char) : String := enclosed '\x27' cs

/-- A value as it is written into a clause: a member of an enumeration by its name. -/
def literal : Value → String
  | .null => "NULL"
  | .bool b => if b then "true" else "false"
  | .text s => textLiteral s.toList
  | .date d => textLiteral d.render
  | .dateTime m => textLiteral (m.renderWith ' ')
  | .uuid u => textLiteral u.hexDigits
  | .member _ _ name _ => textLiteral name.toList
  | v => v.plain

/-- A text as it is written in a pattern, where some characters mean themselves only after a
slash. -/
def escapePattern (cs : List Char) : List Char :=
  cs.flatMap fun c => if c = '/' || c = '%' || c = '_' then ['/', c] else [c]

/-- The pattern of texts that have a part in a place. -/
def patternText (place : Place) (part : String) : String :=
  let inner := textLiteral (escapePattern part.toList)
  let pattern := match place with
    | .anywhere => "'%' || " ++ inner ++ " || '%'"
    | .start => inner ++ " || '%'"
    | .finish => "'%' || " ++ inner
  pattern ++ " ESCAPE '/'"

/-! ### Clauses -/

/-- The sign of a comparison. -/
def Comparison.sign : Comparison → String
  | eq => "="
  | ne => "!="
  | gt => ">"
  | ge => ">="
  | lt => "<"
  | le => "<="

/-- The word that joins clauses. -/
def connectiveText : Connective → String
  | .and => " AND "
  | .or => " OR "

/-- The word for a pattern test. -/
def likeText (negated : Bool) : String := if negated then " NOT LIKE " else " LIKE "

/-- The text of a membership test. In an empty list nothing is found, not even null. -/
def amongText (negated : Bool) (column : String) (values : List Value) : String :=
  match negated, values with
  | false, [] => column ++ " IN (NULL) AND (1 != 1)"
  | true, [] => "(" ++ column ++ " NOT IN (NULL) OR (1 = 1))"
  | false, vs => column ++ " IN (" ++ join ", " (vs.map literal) ++ ")"
  | true, vs => "(" ++ column ++ " NOT IN (" ++ join ", " (vs.map literal) ++ "))"

namespace Clause

/-- Whether a clause is put into brackets among clauses that are joined in a way. -/
def needsBrackets (k : Connective) : Clause → Bool
  | joined l _ => k == .and && l == .or
  | like _ _ _ _ | related _ _ => true
  | _ => false

/-- A text, in brackets if it needs them. -/
def bracketedIf (needed : Bool) (s : String) : String := if needed then "(" ++ s ++ ")" else s

/-- The tables that a query over a linked table lists: the linked table, and the owner if no query
around it lists it. -/
def tablesOf (link : RowLink) (listed : List String) : List String :=
  if listed.contains link.owner || link.owner == link.target then [link.target]
  else [link.target, link.owner]

mutual

/-- The text of a clause inside queries that list some tables. -/
def text (listed : List String) : Clause → String
  | verdict b | constant b => if b then "true" else "false"
  | compare c column v => column.text ++ " " ++ c.sign ++ " " ++ literal v
  | isNull n column => column.text ++ (if n then " IS NOT NULL" else " IS NULL")
  | among n column vs => amongText n column.text vs
  | like n column place part => column.text ++ likeText n ++ patternText place part
  | caselessLike n column v =>
    "lower(" ++ column.text ++ ")" ++ likeText n ++ "lower(" ++ literal v ++ ")"
  | joined k parts => join (connectiveText k) (partTexts listed k parts)
  | settled (like n column place part) => "(" ++ text listed (like n column place part) ++ ")"
  | settled c => text listed c
  | negation c => "NOT (" ++ text listed c ++ ")"
  | related link c =>
    let tables := tablesOf link listed
    "EXISTS (SELECT 1 FROM " ++ join ", " (tables.map nameText) ++ " WHERE " ++ link.left.text ++
      " = " ++ link.right.text ++ connectiveText .and ++
      bracketedIf (needsBrackets .and c) (text (tables ++ listed) c) ++ ")"
termination_by structural c => c

/-- The texts of clauses that are joined in a way. -/
def partTexts (listed : List String) (k : Connective) : List Clause → List String
  | [] => []
  | c :: cs => bracketedIf (needsBrackets k c) (text listed c) :: partTexts listed k cs
termination_by structural cs => cs

end

end Clause

/-! ### Lines -/

/-- The text with every run of blanks in which a line ends made one space; the blanks before it,
nearest first, are given. -/
def oneLineFrom (blanks : List Char) : List Char → List Char
  | [] => if blanks.contains '\n' then [' '] else blanks.reverse
  | c :: cs =>
    if isBlank c then oneLineFrom (c :: blanks) cs
    else (if blanks.contains '\n' then [' '] else blanks.reverse) ++ c :: oneLineFrom [] cs

/-- The text on a single line. -/
def oneLine (s : String) : String := String.ofList (oneLineFrom [] s.toList)

end RecordQuery.Sql
