import PlatformSdk.Python

/-!
# YAML documents and how Python prints them

What `yaml.safe_load` returns is a `DocTree` whose keys are scalars. A
document that refers to itself through an anchor has no finite tree and is not
one of these.

A Python `dict` compares its keys with `==`, and there `1`, `1.0` and `True`
are one key, the one that was written first keeping its place and its
spelling. So a key has two sides: `YamlKey.scalar`, which is what a message
quotes, and `YamlKey.value`, which is what it is compared by.

`Yaml.repr` is Python's `repr` of such a value, which is what an error
message quotes. A scalar that YAML knows and JSON does not – a date, a byte
string – carries its `repr` and its truth value with it, and so does a float;
nothing here looks further into either.
-/

/-- **A key of a YAML mapping.** A float comes with the number its `repr` spells;
a date, a byte string or a set with a text it has in common with exactly those
that are equal to it. -/
inductive YamlKey where
  | str (s : String)
  | null
  | bool (b : Bool)
  | int (i : ℤ)
  | float (repr : String) (value : FloatValue)
  | other (repr same : String)
  deriving DecidableEq

/-- **What a key is compared by**: a truth value is a number, and so are an
integer and a float. There is one `nan` in all documents, which is the same
key as itself. -/
inductive KeyValue where
  | str (s : String)
  | null
  | number (q : FloatValue)
  | other (same : String)
  deriving DecidableEq

/-- What `==` and `hash` see of a key. -/
def YamlKey.value : YamlKey → KeyValue
  | .str s => .str s
  | .null => .null
  | .bool b => .number (.finite (if b then 1 else 0))
  | .int i => .number (.finite i)
  | .float _ q => .number q
  | .other _ same => .other same

/-- The scalars `yaml.safe_load` returns; floats, dates and bytes by their
`repr`. -/
inductive YamlScalar where
  | null
  | bool (b : Bool)
  | int (i : ℤ)
  /-- A float, by its `repr`. -/
  | float (repr : String)
  | str (s : String)
  /-- A date, a byte string or a set, by its `repr` and its truth value. -/
  | other (repr : String) (truthy : Bool)
  deriving DecidableEq

/-- A key as a value. Of those whose truth value has to be told, only the empty
byte string is false. -/
def YamlKey.scalar : YamlKey → YamlScalar
  | .str s => .str s
  | .null => .null
  | .bool b => .bool b
  | .int i => .int i
  | .float r _ => .float r
  | .other r _ => .other r (r != "b''")

/-- **A YAML document**: a tree of lists and of mappings, whose keys are in
insertion order. -/
abbrev Yaml := DocTree YamlKey YamlScalar

namespace Yaml

/-- `None`. -/
abbrev null : Yaml := .leaf .null

/-- A string. -/
abbrev str (s : String) : Yaml := .leaf (.str s)

/-- The truth value of a document, as `x or {}` reads it. -/
def truthy : Yaml → Bool
  | .leaf .null => false
  | .leaf (.bool b) => b
  | .leaf (.int i) => i != 0
  | .leaf (.float r) => r != "0.0" && r != "-0.0"
  | .leaf (.str s) => s != ""
  | .leaf (.other _ b) => b
  | .list xs => !xs.isEmpty
  | .map d => !d.isEmpty

/-! ## The entries of a mapping -/

/-- The entries of a mapping under what their keys are compared by. -/
def byValue (d : Dict YamlKey Yaml) : Dict KeyValue Yaml := Dict.rekey YamlKey.value d

theorem byValue_cons (k : YamlKey) (v : Yaml) (d : Dict YamlKey Yaml) :
    byValue ((k, v) :: d) = (k.value, v) :: byValue d := rfl

/-- `d[k] = v`. -/
def put (d : Dict YamlKey Yaml) (k : YamlKey) (v : Yaml) : Dict YamlKey Yaml :=
  Dict.setBy YamlKey.value d k v

theorem byValue_put (d : Dict YamlKey Yaml) (k : YamlKey) (v : Yaml) :
    byValue (put d k v) = (byValue d).set k.value v := Dict.rekey_setBy _ d k v

example : put [(.int 1, str "a")] (.bool true) (str "b") = [(.int 1, str "b")] := by decide +kernel

/-! ## `repr`

Outside ASCII, whether a character is written as it is or escaped is
`str.isprintable`, a table of the Unicode database and here a parameter. -/

section Repr

variable (isPrintable : Char → Bool)

/-- The last `n` hexadecimal digits of a number. -/
def hexDigits : ℕ → ℕ → List Char
  | 0, _ => []
  | n + 1, k => hexDigits n (k / 16) ++ [hexDigit (k % 16)]

/-- One character of the `repr` of a string quoted with `q`. -/
def reprChar (q c : Char) : List Char :=
  if c = q ∨ c = '\\' then ['\\', c]
  else if c = '\n' then ['\\', 'n']
  else if c = '\r' then ['\\', 'r']
  else if c = '\t' then ['\\', 't']
  else if c.toNat < 32 ∨ c.toNat = 127 then '\\' :: 'x' :: hexDigits 2 c.toNat
  else if c.toNat < 127 ∨ isPrintable c then [c]
  else if c.toNat < 256 then '\\' :: 'x' :: hexDigits 2 c.toNat
  else if c.toNat < 65536 then '\\' :: 'u' :: hexDigits 4 c.toNat
  else '\\' :: 'U' :: hexDigits 8 c.toNat

/-- The `repr` of a string: in single quotes unless it contains one and no
double quote. -/
def reprStr (s : String) : List Char :=
  let q := if '\'' ∈ s.toList ∧ '"' ∉ s.toList then '"' else '\''
  q :: (s.toList.flatMap (reprChar isPrintable q) ++ [q])

/-- The `repr` of a scalar, strings in Python's quotes. -/
def reprScalar : YamlScalar → List Char
  | .null => "None".toList
  | .bool true => "True".toList
  | .bool false => "False".toList
  | .int i => i.repr.toList
  | .float r => r.toList
  | .str s => reprStr isPrintable s
  | .other r _ => r.toList

/-- The `repr` of a key. -/
def reprKey (k : YamlKey) : List Char := reprScalar isPrintable k.scalar

mutual

/-- The characters of `repr(v)`. -/
def reprAux : Yaml → List Char
  | .leaf a => reprScalar isPrintable a
  | .list xs => '[' :: reprList xs ++ [']']
  | .map d => '\x7b' :: reprMap d ++ ['\x7d']

/-- The members of a list, separated. -/
def reprList : List Yaml → List Char
  | [] => []
  | [x] => reprAux x
  | x :: xs => reprAux x ++ ", ".toList ++ reprList xs

/-- The entries of a mapping, separated. -/
def reprMap : List (YamlKey × Yaml) → List Char
  | [] => []
  | [(k, x)] => reprKey isPrintable k ++ ": ".toList ++ reprAux x
  | (k, x) :: d => reprKey isPrintable k ++ ": ".toList ++ reprAux x ++ ", ".toList ++ reprMap d

end

/-- **`repr(v)`.** -/
protected def repr (v : Yaml) : String := String.ofList (reprAux isPrintable v)

end Repr

end Yaml

example : Yaml.repr (fun _ => true)
    (.map [(.str "port", .leaf (.int 80)), (.str "host", .list [Yaml.str "a'b", Yaml.null])])
      = "\x7b'port': 80, 'host': [\"a'b\", None]\x7d" := by decide
