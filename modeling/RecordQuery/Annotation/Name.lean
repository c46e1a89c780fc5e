import RecordQuery.Schema.Definition
import RecordQuery.Value.Function

/-!
# Names in annotations

What the names in an annotation stand for: the types of a schema, and the types and functions of the
basic module.

* `typeOfName?` is the type of a name;
* `functionNames` and `objectNames` are the names of what is no type, and `typeAttributes` those of
  what the types of the basic module have.
-/

namespace RecordQuery.Annotation

/-! ### Types -/

/-- The kinds of errors, all of which are types without arguments. -/
def errorNames : List String :=
  ["ArithmeticError", "AssertionError", "AttributeError", "BaseException", "BaseExceptionGroup",
    "BlockingIOError", "BrokenPipeError", "BufferError", "BytesWarning", "ChildProcessError",
    "ConnectionAbortedError", "ConnectionError", "ConnectionRefusedError", "ConnectionResetError",
    "DeprecationWarning", "EOFError", "EncodingWarning", "Exception", "ExceptionGroup",
    "FileExistsError", "FileNotFoundError", "FloatingPointError", "FutureWarning", "GeneratorExit",
    "ImportError", "ImportWarning", "IndentationError", "IndexError", "InterruptedError",
    "IsADirectoryError", "KeyError", "KeyboardInterrupt", "LookupError", "MemoryError",
    "ModuleNotFoundError", "NameError", "NotADirectoryError", "NotImplementedError", "OSError",
    "OverflowError", "PendingDeprecationWarning", "PermissionError", "ProcessLookupError",
    "RecursionError", "ReferenceError", "ResourceWarning", "RuntimeError", "RuntimeWarning",
    "StopAsyncIteration", "StopIteration", "SyntaxError", "SyntaxWarning", "SystemError",
    "SystemExit", "TabError", "TimeoutError", "TypeError", "UnboundLocalError",
    "UnicodeDecodeError", "UnicodeEncodeError", "UnicodeError", "UnicodeTranslateError",
    "UnicodeWarning", "UserWarning", "ValueError", "Warning", "ZeroDivisionError"]

/-- The types of the basic module that are neither scalars, nor collections, nor kinds of errors. -/
def otherTypeNames : List String :=
  ["classmethod", "complex", "enumerate", "filter", "map", "memoryview", "property", "range",
    "reversed", "slice", "staticmethod", "super", "type", "zip"]

/-- Further names of the kind of error that the system reports. -/
def systemErrorNames : List String := ["EnvironmentError", "IOError"]

/-- The type of the basic module with a name. -/
def basicType? (name : String) : Option TypeExpr :=
  if name = "object" then some .object
  else if systemErrorNames.contains name then some (.bare (.other "OSError"))
  else if errorNames.contains name || otherTypeNames.contains name then some (.bare (.other name))
  else
    match ScalarType.all.find? fun t => t.home == "builtins" && t.name == name with
    | some t => some (.scalar t)
    | none => (Shape.concrete.find? fun shape => shape.name == name).map .bare

/-- The type of a name: one of the schema, or one of the basic module. -/
def typeOfName? (s : Schema) (name : String) : Option TypeExpr :=
  if s.defines name then some (.named name) else basicType? name

/-! ### Functions and other objects -/

/-- The functions of the basic module. -/
def functionNames : List String :=
  ["__build_class__", "__import__", "abs", "aiter", "all", "anext", "any", "ascii", "bin",
    "breakpoint", "callable", "chr", "compile", "delattr", "dir", "divmod", "eval", "exec",
    "format", "getattr", "globals", "hasattr", "hash", "hex", "id", "input", "isinstance",
    "issubclass", "iter", "len", "locals", "max", "min", "next", "oct", "open", "ord", "pow",
    "print", "repr", "round", "setattr", "sorted", "sum", "vars"]

/-- The functions that can be called without arguments. -/
def freeFunctions : List String := ["dir", "globals", "locals", "vars"]

/-- The objects of the basic module that have no names of their own. -/
def objectNames : List String :=
  ["NotImplemented", "copyright", "credits", "exit", "help", "license", "quit"]

/-! ### Other modules -/

/-- The types of other modules that annotations can refer to, by module and name: texts that are not
shown. -/
def importedTypes : List ((String × String) × TypeExpr) :=
  [(("pydantic", "SecretStr"), .bare (.foreign "pydantic.types" "SecretStr"))]

/-! ### Attributes -/

/-- The attributes that all types have. -/
def commonAttributes : List String :=
  ["__delattr__", "__dir__", "__eq__", "__format__", "__ge__", "__getattribute__", "__gt__",
    "__init__", "__init_subclass__", "__le__", "__lt__", "__ne__", "__new__", "__reduce__",
    "__reduce_ex__", "__repr__", "__setattr__", "__sizeof__", "__str__", "__subclasshook__"]

/-- The attributes that types have besides those of their instances. -/
def classAttributes : List String :=
  ["__call__", "__instancecheck__", "__or__", "__prepare__", "__ror__", "__subclasscheck__",
    "__subclasses__", "mro"]

/-- Whether a type of the basic module makes no instance without arguments. -/
def needsArguments : TypeExpr → Bool
  | .bare (.other name) =>
    ["BaseExceptionGroup", "ExceptionGroup", "UnicodeDecodeError", "UnicodeEncodeError",
      "UnicodeTranslateError", "classmethod", "enumerate", "filter", "map", "memoryview", "range",
      "reversed", "slice", "staticmethod", "type"].contains name
  | _ => false

/-- The operators of numbers. -/
def numberOperators : List String :=
  ["__abs__", "__add__", "__bool__", "__ceil__", "__divmod__", "__float__", "__floor__",
    "__floordiv__", "__getnewargs__", "__int__", "__mod__", "__mul__", "__neg__", "__pos__",
    "__pow__", "__radd__", "__rdivmod__", "__rfloordiv__", "__rmod__", "__rmul__", "__round__",
    "__rpow__", "__rsub__", "__rtruediv__", "__sub__", "__truediv__", "__trunc__"]

/-- The operators of integers that other numbers do not have. -/
def integerOperators : List String :=
  ["__and__", "__index__", "__invert__", "__lshift__", "__or__", "__rand__", "__rlshift__",
    "__ror__", "__rrshift__", "__rshift__", "__rxor__", "__xor__"]

/-- The operators of sequences. -/
def sequenceOperators : List String :=
  ["__add__", "__contains__", "__getitem__", "__iter__", "__len__", "__mul__", "__rmul__"]

/-- The operators of sets that cannot be changed. -/
def setOperators : List String :=
  ["__and__", "__class_getitem__", "__contains__", "__iter__", "__len__", "__or__", "__rand__",
    "__ror__", "__rsub__", "__rxor__", "__sub__", "__xor__"]

/-- The operators of mappings. -/
def mappingOperators : List String :=
  ["__class_getitem__", "__contains__", "__delitem__", "__getitem__", "__ior__", "__iter__",
    "__len__", "__or__", "__reversed__", "__ror__", "__setitem__"]

/-- The operators of a type of the basic module. -/
def operatorNames : TypeExpr → List String
  | .scalar .integer | .scalar .boolean => numberOperators ++ integerOperators
  | .scalar .float => "__getformat__" :: numberOperators
  | .scalar .text => ["__getnewargs__", "__mod__", "__rmod__"] ++ sequenceOperators
  | .scalar .bytes =>
    ["__bytes__", "__getnewargs__", "__mod__", "__rmod__"] ++ sequenceOperators
  | .bare .tuple => ["__class_getitem__", "__getnewargs__"] ++ sequenceOperators
  | .bare .list =>
    ["__class_getitem__", "__delitem__", "__iadd__", "__imul__", "__reversed__",
      "__setitem__"] ++ sequenceOperators
  | .bare .frozenSet => setOperators
  | .bare .set => ["__iand__", "__ior__", "__isub__", "__ixor__"] ++ setOperators
  | .bare .dict => mappingOperators
  | _ => []

/-- The attributes of a type of the basic module besides its operators and those of all types. -/
def typeAttributes : TypeExpr → List String
  | .scalar .integer | .scalar .boolean =>
    ["denominator", "imag", "numerator", "real"] ++ FunctionNames.integer
  | .scalar .float => ["imag", "real"] ++ FunctionNames.float
  | .scalar .text => FunctionNames.text
  | .scalar .bytes => FunctionNames.bytes
  | .scalar .byteArray => FunctionNames.list ++ FunctionNames.bytes
  | .bare .list => FunctionNames.list
  | .bare .tuple => FunctionNames.tuple
  | .bare .frozenSet => FunctionNames.frozenSet
  | .bare .set => FunctionNames.set
  | .bare .dict =>
    ["clear", "copy", "fromkeys", "get", "items", "keys", "pop", "popitem", "setdefault", "update",
      "values"]
  | .bare (.other "type") => ["mro"]
  | .bare (.other "complex") => ["conjugate", "imag", "real"]
  | .bare (.other "range") => ["count", "index", "start", "step", "stop"]
  | .bare (.other "slice") => ["indices", "start", "step", "stop"]
  | .bare (.other "property") => ["deleter", "fdel", "fget", "fset", "getter", "setter"]
  | .bare (.other "memoryview") =>
    ["c_contiguous", "cast", "contiguous", "f_contiguous", "format", "hex", "itemsize", "nbytes",
      "ndim", "obj", "readonly", "release", "shape", "strides", "suboffsets", "tobytes", "tolist",
      "toreadonly"]
  | .bare (.other name) =>
    if errorNames.contains name then ["add_note", "args", "with_traceback"] else []
  | _ => []

end RecordQuery.Annotation
