import RecordQuery.Value

/-!
# Functions of values

What can be read by name from single values and collections besides their parts: the functions that
go with their kind. A function is a value too, which equals no other one and has no order.

* `Value.functionNames` lists the names of the functions that a value has, `Value.function?` is the
  function of a name.
-/

namespace RecordQuery

/-! ### Names by kind -/

namespace FunctionNames

/-- Those of integers and truth values. -/
def integer : List String :=
  ["as_integer_ratio", "bit_count", "bit_length", "conjugate", "from_bytes", "to_bytes"]

/-- Those of floating point numbers. -/
def float : List String := ["as_integer_ratio", "conjugate", "fromhex", "hex", "is_integer"]

/-- Those of decimal numbers. -/
def decimal : List String :=
  ["adjusted", "as_integer_ratio", "as_tuple", "canonical", "compare", "compare_signal",
    "compare_total", "compare_total_mag", "conjugate", "copy_abs", "copy_negate", "copy_sign",
    "exp", "fma", "from_float", "is_canonical", "is_finite", "is_infinite", "is_nan", "is_normal",
    "is_qnan", "is_signed", "is_snan", "is_subnormal", "is_zero", "ln", "log10", "logb",
    "logical_and", "logical_invert", "logical_or", "logical_xor", "max", "max_mag", "min",
    "min_mag", "next_minus", "next_plus", "next_toward", "normalize", "number_class", "quantize",
    "radix", "remainder_near", "rotate", "same_quantum", "scaleb", "shift", "sqrt",
    "to_eng_string", "to_integral", "to_integral_exact", "to_integral_value"]

/-- Those that texts and bytes share. -/
def characters : List String :=
  ["capitalize", "center", "count", "endswith", "expandtabs", "find", "index", "isalnum",
    "isalpha", "isascii", "isdigit", "islower", "isspace", "istitle", "isupper", "join", "ljust",
    "lower", "lstrip", "maketrans", "partition", "removeprefix", "removesuffix", "replace",
    "rfind", "rindex", "rjust", "rpartition", "rsplit", "rstrip", "split", "splitlines",
    "startswith", "strip", "swapcase", "title", "translate", "upper", "zfill"]

/-- Those of texts. -/
def text : List String :=
  ["casefold", "encode", "format", "format_map", "isdecimal", "isidentifier", "isnumeric",
    "isprintable"] ++ characters

/-- Those of bytes. -/
def bytes : List String := ["decode", "fromhex", "hex"] ++ characters

/-- Those of days. -/
def date : List String :=
  ["ctime", "fromisocalendar", "fromisoformat", "fromordinal", "fromtimestamp", "isocalendar",
    "isoformat", "isoweekday", "replace", "strftime", "timetuple", "today", "toordinal", "weekday"]

/-- Those of times of day. -/
def time : List String :=
  ["dst", "fromisoformat", "isoformat", "replace", "strftime", "tzname", "utcoffset"]

/-- Those of moments. -/
def dateTime : List String :=
  ["astimezone", "combine", "date", "dst", "now", "strptime", "time", "timestamp", "timetz",
    "tzname", "utcfromtimestamp", "utcnow", "utcoffset", "utctimetuple"] ++ date

/-- Those of tuples. -/
def tuple : List String := ["count", "index"]

/-- Those of lists. -/
def list : List String :=
  ["append", "clear", "copy", "extend", "insert", "pop", "remove", "reverse", "sort"] ++ tuple

/-- Those of sets that cannot change. -/
def frozenSet : List String :=
  ["copy", "difference", "intersection", "isdisjoint", "issubset", "issuperset",
    "symmetric_difference", "union"]

/-- Those of sets. -/
def set : List String :=
  ["add", "clear", "difference_update", "discard", "intersection_update", "pop", "remove",
    "symmetric_difference_update", "update"] ++ frozenSet

end FunctionNames

/-! ### Functions of a value -/

namespace Value

/-- The names of the functions that a value has. -/
def functionNames (v : Value) : List String :=
  match v.unwrapped with
  | bool _ | int _ => FunctionNames.integer
  | float _ => FunctionNames.float
  | decimal _ => FunctionNames.decimal
  | text _ => FunctionNames.text
  | bytes _ => FunctionNames.bytes
  | dateTime _ => FunctionNames.dateTime
  | date _ => FunctionNames.date
  | time _ => FunctionNames.time
  | duration _ => ["total_seconds"]
  | list _ => FunctionNames.list
  | tuple _ => FunctionNames.tuple
  | set _ => FunctionNames.set
  | frozenSet _ => FunctionNames.frozenSet
  | _ => []

/-- A function of a value. -/
def function : Value := .record ⟨.plain, "builtin_function_or_method", [], none⟩ []

/-- The function of a name, if the value has it. -/
def function? (v : Value) (name : String) : Option Value :=
  if v.functionNames.contains name then some function else none

end Value
end RecordQuery
