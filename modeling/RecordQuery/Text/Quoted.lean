import RecordQuery.Text.Printable

/-!
# Quoted text

The form in which messages show a string or a sequence of bytes: between quotes, with a backslash
before the quote in use and before a backslash, and with everything that is not printable written
by its number.

* `quote` is the quoted form of a text, `quoted` that of a string;
* `quoteBytes` is the quoted form of a sequence of bytes.
-/

namespace RecordQuery.Text

/-- The single quotation mark. -/
def apostrophe : Char := '\x27'

/-- The double quotation mark. -/
def quotationMark : Char := '\x22'

/-- Double marks are used only for a text that holds a single one and no double one. -/
def quoteFor (cs : List Char) : Char :=
  if cs.contains apostrophe && !cs.contains quotationMark then quotationMark else apostrophe

/-- A number in lower case hexadecimal digits, padded with zeros to a width. -/
def hexDigits (width n : Nat) : List Char :=
  let ds := Nat.toDigits 16 n
  List.replicate (width - ds.length) '0' ++ ds

/-- Bytes in pairs of hexadecimal digits. -/
def hexBytes (bs : List UInt8) : List Char := bs.flatMap fun b => hexDigits 2 b.toNat

/-- A character inside quotes. -/
def escapeChar (mark c : Char) : List Char :=
  if c = mark || c = '\\' then ['\\', c]
  else if c = '\n' then ['\\', 'n']
  else if c = '\r' then ['\\', 'r']
  else if c = '\t' then ['\\', 't']
  else if isPrintable c then [c]
  else if c.toNat < 0x100 then '\\' :: 'x' :: hexDigits 2 c.toNat
  else if c.toNat < 0x10000 then '\\' :: 'u' :: hexDigits 4 c.toNat
  else '\\' :: 'U' :: hexDigits 8 c.toNat

/-- The quoted form of a text. -/
def quote (cs : List Char) : List Char :=
  let mark := quoteFor cs
  mark :: cs.flatMap (escapeChar mark) ++ [mark]

/-- The quoted form of a string. -/
def quoted (s : String) : String := String.ofList (quote s.toList)

/-- A byte inside quotes. -/
def escapeByte (mark : Char) (b : UInt8) : List Char :=
  let c := Char.ofNat b.toNat
  if c = mark || c = '\\' then ['\\', c]
  else if c = '\n' then ['\\', 'n']
  else if c = '\r' then ['\\', 'r']
  else if c = '\t' then ['\\', 't']
  else if 0x20 ≤ b.toNat && b.toNat < 0x7F then [c]
  else '\\' :: 'x' :: hexDigits 2 b.toNat

/-- The quoted form of a sequence of bytes, marked by a leading letter. -/
def quoteBytes (bs : List UInt8) : List Char :=
  let mark := quoteFor (bs.map fun b => Char.ofNat b.toNat)
  'b' :: mark :: bs.flatMap (escapeByte mark) ++ [mark]

end RecordQuery.Text
