import RecordQuery.Number.Binary64
import RecordQuery.Text.Naming
import RecordQuery.Text.Quoted
import RecordQuery.Text.Split
import RecordQuery.Value

/-!
# Lexemes of annotations

An annotation that is given as text is an expression on one logical line: names, numbers, texts and
signs, with blanks and comments between them. Inside brackets a line may end anywhere.

* `Lexeme` is a word of such an expression;
* `lexemes?` cuts an expression into its words, if it has no other parts.
-/

namespace RecordQuery.Annotation

open Text

/-- A word of an expression. -/
inductive Lexeme where
  | name (s : String)
  | number (v : Value)
  | text (s : String)
  | bytes (bs : List UInt8)
  | sign (s : String)
  deriving Inhabited

/-! ### Names -/

/-- Words that are no names. -/
def keywords : List String :=
  ["False", "None", "True", "and", "as", "assert", "async", "await", "break", "class", "continue",
    "def", "del", "elif", "else", "except", "finally", "for", "from", "global", "if", "import",
    "in", "is", "lambda", "nonlocal", "not", "or", "pass", "raise", "return", "try", "while",
    "with", "yield"]

/-- The keywords that stand for a value. -/
def constantWords : List String := ["False", "None", "True"]

/-- The name that a word is, in plain letters. A word in other letters is no keyword, unless it
stands for a value. -/
def nameOf (word : List Char) : String :=
  let plain := String.ofList (plainName word)
  if keywords.contains plain && !constantWords.contains plain then String.ofList word else plain

/-! ### Texts -/

/-- What is written between quotes: the characters up to the closing quote, and the rest. The body
is at most so long, has one or three quotes around it, and is taken as it is if it is raw.
Characters with a backslash in front of them stand for others. -/
def quotedBody (quote : Char) (triple raw bytes : Bool) :
    Nat → List Char → Option (List Char × List Char)
  | 0, _ => none
  | _ + 1, [] => none
  | fuel + 1, c :: cs =>
    let next (found : List Char) (rest : List Char) : Option (List Char × List Char) :=
      (quotedBody quote triple raw bytes fuel rest).map fun p => (found ++ p.1, p.2)
    let coded (base digits : Nat) (rest : List Char) : Option (List Char × List Char) :=
      let code := rest.take digits
      match code.mapM (Numeral.digitIn? base) with
      | some ds =>
        let n := natOfDigits base ds
        if ds.length = digits && n ≤ 0x10FFFF then next [Char.ofNat n] (rest.drop digits) else none
      | none => none
    -- three quotes end a body that has three around it; fewer are part of it
    if c = quote then
      if !triple then some ([], cs)
      else if [quote, quote].isPrefixOf cs then some ([], cs.drop 2)
      else next [c] cs
    -- only a body between three quotes goes on over the end of a line
    else if c = '\n' && !triple then none
    else if bytes && 0x80 ≤ c.toNat then none
    else if c ≠ '\\' then next [c] cs
    else
      match cs with
      | [] => none
      | d :: rest =>
        if raw then next [c, d] rest
        else
          match d with
          | '\n' => next [] rest
          | 'a' => next ['\x07'] rest
          | 'b' => next ['\x08'] rest
          | 'f' => next ['\x0c'] rest
          | 'n' => next ['\n'] rest
          | 'r' => next ['\r'] rest
          | 't' => next ['\t'] rest
          | 'v' => next ['\x0b'] rest
          | 'x' => coded 16 2 rest
          | 'u' => if bytes then next [c, d] rest else coded 16 4 rest
          | 'U' => if bytes then next [c, d] rest else coded 16 8 rest
          | 'N' => if bytes then next [c, d] rest else none
          | _ =>
            if d = '\\' || d = apostrophe || d = quotationMark then next [d] rest
            else
              -- up to three octal digits; a backslash before anything else stays
              let octal := ((d :: rest).take 3).takeWhile fun e => '0' ≤ e && e ≤ '7'
              if octal.isEmpty then next [c, d] rest
              else coded 8 octal.length (d :: rest)

/-- The letters in front of a quote that are no name of their own. -/
def textMarks : List String := ["", "r", "u", "b", "br", "rb", "f", "fr", "rf"]

/-- The text or the bytes at the beginning of some characters, after letters in front of it. A text
that is to be filled in is read if it has no braces. -/
def readText? (marks : String) (cs : List Char) : Option (Lexeme × List Char) :=
  match cs with
  | [] => none
  | quote :: rest =>
    let triple := [quote, quote].isPrefixOf rest
    let raw := marks.contains 'r'
    let bytes := marks.contains 'b'
    let body := if triple then rest.drop 2 else rest
    match quotedBody quote triple raw bytes (cs.length + 1) body with
    | none => none
    | some (found, rest) =>
      if bytes then some (.bytes (found.map fun c => UInt8.ofNat c.toNat), rest)
      else if marks.contains 'f' && found.any fun c => c == '\x7b' || c == '\x7d' then none
      else some (.text (String.ofList found), rest)

/-! ### Numbers -/

/-- The digits at the beginning of some characters, single underscores between them left out, and
the rest. -/
def digitRun (digit : Char → Bool) : List Char → List Char × List Char
  | [] => ([], [])
  | c :: cs =>
    if !digit c then ([], c :: cs)
    else
      match cs with
      | u :: d :: rest =>
        if u = '_' && digit d then
          let p := digitRun digit (d :: rest)
          (c :: p.1, p.2)
        else
          let p := digitRun digit (u :: d :: rest)
          (c :: p.1, p.2)
      | cs =>
        let p := digitRun digit cs
        (c :: p.1, p.2)

/-- The words that may follow a number without a blank. -/
def numberFollowers : List String := ["and", "else", "for", "if", "in", "is", "not", "or"]

/-- A number with what follows it, which has to be no name. -/
def endingNumber (v : Value) (rest : List Char) : Option (Lexeme × List Char) :=
  if (rest.head?.any continuesName) && !(numberFollowers.any fun w => w.toList.isPrefixOf rest)
  then none
  else some (.number v, rest)

/-- An integer in a base that is not ten, after its mark. -/
def readBased? (base : Nat) (cs : List Char) : Option (Lexeme × List Char) :=
  let digit (c : Char) : Bool := c.toNat < 0x80 && (Numeral.digitIn? base c).isSome
  let (ds, rest) := digitRun digit (if cs.head? = some '_' then cs.drop 1 else cs)
  match ds.mapM (Numeral.digitIn? base) with
  | some (d :: ds) => endingNumber (.int (natOfDigits base (d :: ds) : Nat)) rest
  | _ => none

/-- The exponent at the beginning of some characters, if there is one, and the rest. -/
def exponentRun : List Char → List Char × List Char
  | [] => ([], [])
  | e :: cs =>
    if e ≠ 'e' && e ≠ 'E' then ([], e :: cs)
    else
      let (mark, rest) := match cs with
        | s :: rest => if s = '+' || s = '-' then ([s], rest) else ([], cs)
        | [] => ([], [])
      let (ds, rest) := digitRun Char.isDigit rest
      if ds.isEmpty then ([], e :: cs) else ('e' :: mark ++ ds, rest)

/-- The number in base ten at the beginning of some characters. An integer has no zeros in front of
other digits. -/
def readPlain? (cs : List Char) : Option (Lexeme × List Char) :=
  let (whole, rest) := digitRun Char.isDigit cs
  let (fraction, rest) := match rest with
    | '.' :: more => let p := digitRun Char.isDigit more; ('.' :: p.1, p.2)
    | _ => ([], rest)
  let (exponent, rest) := exponentRun rest
  let imaginary := rest.head? == some 'j' || rest.head? == some 'J'
  if fraction.isEmpty && exponent.isEmpty && !imaginary then
    -- zeros alone may be several
    if (whole.head? == some '0' && whole.any (· != '0')) || Numeral.digitLimit < whole.length
    then none
    else (Numeral.readInteger? whole).bind fun n => endingNumber (.int n) rest
  else
    (Binary64.read? (whole ++ fraction ++ exponent)).bind fun x =>
      endingNumber (.float x) (if imaginary then rest.drop 1 else rest)

/-- The number at the beginning of some characters. -/
def readNumber? (cs : List Char) : Option (Lexeme × List Char) :=
  match cs with
  | '0' :: m :: rest =>
    if m = 'x' || m = 'X' then readBased? 16 rest
    else if m = 'o' || m = 'O' then readBased? 8 rest
    else if m = 'b' || m = 'B' then readBased? 2 rest
    else readPlain? cs
  | cs => readPlain? cs

/-! ### Signs -/

/-- The signs, the longer ones first. -/
def signs : List String :=
  ["...", "**", "//", "<<", ">>", "<=", ">=", "==", "!=", ":=", "(", ")", "[", "]", "\x7b", "\x7d",
    ",", ":", ".", ";", "@", "=", "+", "-", "*", "/", "%", "&", "|", "^", "~", "<", ">"]

/-- The sign at the beginning of some characters. -/
def readSign? (cs : List Char) : Option (String × List Char) :=
  (signs.find? fun s => s.toList.isPrefixOf cs).map fun s => (s, cs.drop s.length)

/-- The number of open brackets after a sign. -/
def depthAfter (depth : Nat) (sign : String) : Nat :=
  if ["(", "[", "\x7b"].contains sign then depth + 1
  else if [")", "]", "\x7d"].contains sign then depth - 1
  else depth

/-! ### Lines -/

/-- Whether a character only separates words. -/
def isSpace (c : Char) : Bool := c == ' ' || c == '\t' || c == '\x0c'

/-- Whether a line holds nothing but blanks and a comment. -/
def isEmptyLine (line : List Char) : Bool :=
  match line.dropWhile isSpace with
  | [] => true
  | c :: _ => c == '#'

/-- How far a line is indented; a form feed starts the line anew. -/
def indentation (line : List Char) : Nat :=
  (line.takeWhile isSpace).foldl (fun n c => if c = '\x0c' then 0 else n + 1) 0

/-- Whether nothing but empty lines follow a line, the last of which is not indented unless it has a
comment. -/
def endsWell (lines : List (List Char)) : Bool :=
  lines.all isEmptyLine &&
    (lines.getLast?.all fun line => indentation line = 0 || line.any (· == '#'))

/-- The characters with every line break made one character. -/
def withLineFeeds : List Char → List Char
  | [] => []
  | '\r' :: '\n' :: cs => '\n' :: withLineFeeds cs
  | '\r' :: cs => '\n' :: withLineFeeds cs
  | c :: cs => c :: withLineFeeds cs

/-- The word at the beginning of some characters. -/
def readLexeme? (cs : List Char) : Option (Lexeme × List Char) :=
  match cs with
  | [] => none
  | c :: next =>
    if c = apostrophe || c = quotationMark then readText? "" cs
    else if opensName c then
      let (word, rest) := cs.span continuesName
      let marks := String.ofList (word.map Char.toLower)
      let quoted := rest.head? == some apostrophe || rest.head? == some quotationMark
      -- letters that a quote follows say how the text is written
      if textMarks.contains marks && quoted then readText? marks rest
      else some (.name (nameOf word), rest)
    else if c.isDigit || (c = '.' && next.head?.any Char.isDigit) then readNumber? cs
    else (readSign? cs).map fun p => (.sign p.1, p.2)

/-- The words of at most so many characters inside some brackets. After the end of the line only
empty lines may follow. -/
def readLexemes? : Nat → Nat → List Char → Option (List Lexeme)
  | _, _, [] => some []
  | 0, _, _ :: _ => none
  | fuel + 1, depth, c :: cs =>
    if isSpace c then readLexemes? fuel depth cs
    else if c = '#' then readLexemes? fuel depth (cs.dropWhile (· != '\n'))
    else if c = '\n' then
      -- inside of brackets the end of a line is a blank
      if depth ≠ 0 then readLexemes? fuel depth cs
      else if endsWell (pieces '\n' cs) then some []
      else none
    else if c = '\\' then
      match cs with
      | '\n' :: rest => readLexemes? fuel depth rest
      | _ => none
    else
      match readLexeme? (c :: cs) with
      | none => none
      | some (.sign s, rest) =>
        (readLexemes? fuel (depthAfter depth s) rest).map (Lexeme.sign s :: ·)
      | some (l, rest) => (readLexemes? fuel depth rest).map (l :: ·)

/-- The words of an expression, whose first line is not indented. -/
def lexemes? (cs : List Char) : Option (List Lexeme) :=
  let lines := (pieces '\n' (withLineFeeds cs)).dropWhile isEmptyLine
  let text := List.intercalate ['\n'] lines
  if lines.head?.any fun line => indentation line != 0 then none
  else readLexemes? (text.length + 1) 0 text

end RecordQuery.Annotation
