import Mathlib.Data.List.Sort
import Mathlib.Data.String.Basic
import Mathlib.Tactic.NormNum
import Std.Data.String.ToInt
import PlatformSdk.Bytes
import PlatformSdk.DocTree

/-!
# JSON values and the text `json.dumps` writes

A JSON value is a `DocTree` with string keys. `Json.dumps` is the text Python's
`json.dumps` writes with its defaults – `", "` and `": "` as separators,
every character outside printable ASCII escaped – and `Json.dumpsSorted` the
text under `sort_keys=True`, which sorts the keys of every mapping in the
tree.

What a text says about its value is the point of the module:
`Json.dumps_injective` says that two values with one text are one value, so
that whatever is computed from the text – a digest, a signature – separates
values exactly as well as it separates texts. The proof reads the text from
the left: a string gives back its characters (`readEscaped_escapeChar`), a
number is the longest run of number characters, and a sequence or a mapping
ends at its own bracket.

A float is carried as its `repr`, the shortest decimal that reads back as
it: two floats are the same exactly when their `repr`s are, a `NaN` counting
as one value.
-/

/-! ## Scalars -/

/-- A character that can stand in a number, `NaN` and `Infinity` included. -/
def isNumChar (c : Char) : Bool :=
  c.isDigit || "+-.eNaIinfty".toList.contains c

/-- Whether a text starts as a number does: with a digit, a minus, or the
first letter of `NaN` or `Infinity`. -/
def startsNumber : List Char → Bool
  | [] => false
  | c :: _ => c.isDigit || "-NI".toList.contains c

/-- The texts `float.__repr__` and `json.dumps` write for a float: number
characters only, starting as a number does, with something in it that no
integer has. -/
def isFloatText (t : List Char) : Bool :=
  t.all isNumChar && startsNumber t && t.any (fun c => !(c.isDigit || c == '-'))

/-- **A float, by its `repr`**, which tells every two floats apart that
`json.dumps` can write. -/
structure PyFloat where
  /-- The `repr`. -/
  text : List Char
  /-- It is the text of a float and of no integer. -/
  isFloat : isFloatText text = true
  deriving DecidableEq

/-- The scalars of JSON, integers and floats apart as Python has them. -/
inductive JsonScalar where
  | null
  | bool (b : Bool)
  | int (i : ℤ)
  | float (f : PyFloat)
  | str (s : String)
  deriving DecidableEq

/-- **A JSON value**: a tree of arrays and of objects, whose keys are in
insertion order. -/
abbrev Json := DocTree String JsonScalar

namespace Json

/-- `null`. -/
abbrev null : Json := .leaf .null

/-- A boolean. -/
abbrev bool (b : Bool) : Json := .leaf (.bool b)

/-- An integer. -/
abbrev int (i : ℤ) : Json := .leaf (.int i)

/-- A string. -/
abbrev str (s : String) : Json := .leaf (.str s)

/-- An array. -/
abbrev arr (xs : List Json) : Json := .list xs

/-- An object. -/
abbrev obj (d : Dict String Json) : Json := .map d

/-! ## The text -/

/-- The escape `\uXXXX` of one UTF-16 unit, in lower-case hexadecimal digits. -/
def escapeUnit (n : ℕ) : List Char :=
  ['\\', 'u', hexDigit (n / 4096), hexDigit (n / 256 % 16), hexDigit (n / 16 % 16),
    hexDigit (n % 16)]

/-- How `json.dumps` writes one character of a string: nothing but printable
ASCII as it is. -/
def escapeChar (c : Char) : List Char :=
  if c = '"' then ['\\', '"']
  else if c = '\\' then ['\\', '\\']
  else if c = '\n' then ['\\', 'n']
  else if c = '\r' then ['\\', 'r']
  else if c = '\t' then ['\\', 't']
  else if c = '\x08' then ['\\', 'b']
  else if c = '\x0c' then ['\\', 'f']
  else if 32 ≤ c.toNat ∧ c.toNat ≤ 126 then [c]
  else if c.toNat < 65536 then escapeUnit c.toNat
  else
    escapeUnit (55296 + (c.toNat - 65536) / 1024)
      ++ escapeUnit (56320 + (c.toNat - 65536) % 1024)

/-- A string between its quotes, every character outside ASCII being escaped. -/
def renderString (s : String) : List Char :=
  '"' :: (s.toList.flatMap escapeChar ++ ['"'])

/-- A scalar, as `json.dumps` writes it, with the names of JavaScript for the
values Python spells otherwise. -/
def renderScalar : JsonScalar → List Char
  | .null => "null".toList
  | .bool true => "true".toList
  | .bool false => "false".toList
  | .int i => i.repr.toList
  | .float f => f.text
  | .str s => renderString s

mutual

/-- The text of a value, with a space behind each comma and colon. -/
def render : Json → List Char
  | .leaf a => renderScalar a
  | .list xs => '[' :: renderList xs
  | .map d => '{' :: renderMap d

/-- The members of an array and its closing bracket. -/
def renderList : List Json → List Char
  | [] => [']']
  | x :: xs => render x ++ renderListTail xs

/-- The members after the first, each behind its separator. -/
def renderListTail : List Json → List Char
  | [] => [']']
  | x :: xs => ',' :: ' ' :: (render x ++ renderListTail xs)

/-- The entries of an object and its closing bracket. -/
def renderMap : List (String × Json) → List Char
  | [] => ['}']
  | (k, x) :: d => renderString k ++ (':' :: ' ' :: (render x ++ renderMapTail d))

/-- The entries after the first, each behind its separator. -/
def renderMapTail : List (String × Json) → List Char
  | [] => ['}']
  | (k, x) :: d =>
    ',' :: ' ' :: (renderString k ++ (':' :: ' ' :: (render x ++ renderMapTail d)))

end

/-- **`json.dumps`** with its defaults: separators with spaces, ASCII only, keys
in insertion order. -/
def dumps (v : Json) : String := String.ofList (render v)

mutual

/-- The keys of every mapping of the tree in order. -/
def sortKeys : Json → Json
  | .leaf a => .leaf a
  | .list xs => .list (sortKeysList xs)
  | .map d => .map ((sortKeysMap d).insertionSort (fun a b => a.1 ≤ b.1))

/-- `sortKeys` on the members of an array, whose order is kept. -/
def sortKeysList : List Json → List Json
  | [] => []
  | x :: xs => sortKeys x :: sortKeysList xs

/-- `sortKeys` on the values of an object, each at its key. -/
def sortKeysMap : List (String × Json) → List (String × Json)
  | [] => []
  | (k, x) :: d => (k, sortKeys x) :: sortKeysMap d

end

/-- **`json.dumps`** with `sort_keys=True`, at every level. -/
def dumpsSorted (v : Json) : String := dumps (sortKeys v)

/-- Whether Python refuses to write a scalar: it writes no integer of more than
4300 digits unless `sys.set_int_max_str_digits` says otherwise, and `str`,
`repr` and `json.dumps` raise a `ValueError` on one. -/
def isTooLongScalar : JsonScalar → Bool
  | .int i => decide (10 ^ 4300 ≤ i.natAbs)
  | _ => false

/-- **Whether a value has no text**, since an integer somewhere in it has too
many digits. The texts above are those of the other values. -/
def isTooLong (v : Json) : Bool := v.leaves.any isTooLongScalar

example : dumpsSorted (obj [("b", arr [int (-3), null]), ("a", str "x\"\n")])
    = "\x7b\"a\": \"x\\\"\\n\", \"b\": [-3, null]\x7d" := by decide

/-! ## A string gives back its characters -/

/-- The UTF-16 unit four hexadecimal digits spell, the inverse of the escape. -/
def readUnit (a b c d : Char) : ℕ :=
  hexValue a * 4096 + hexValue b * 256 + hexValue c * 16 + hexValue d

/-- Read one character of a string back, with what follows it. -/
def readEscaped : List Char → Option (Char × List Char)
  | '\\' :: 'u' :: a :: b :: c :: d :: r =>
    if 55296 ≤ readUnit a b c d ∧ readUnit a b c d < 56320 then
      match r with
      | '\\' :: 'u' :: a' :: b' :: c' :: d' :: r' =>
        some (Char.ofNat (65536 + (readUnit a b c d - 55296) * 1024
          + (readUnit a' b' c' d' - 56320)), r')
      | _ => none
    else some (Char.ofNat (readUnit a b c d), r)
  | '\\' :: 'n' :: r => some ('\n', r)
  | '\\' :: 'r' :: r => some ('\r', r)
  | '\\' :: 't' :: r => some ('\t', r)
  | '\\' :: 'b' :: r => some ('\x08', r)
  | '\\' :: 'f' :: r => some ('\x0c', r)
  | '\\' :: c :: r => some (c, r)
  | c :: r => some (c, r)
  | [] => none

/-- The four digits of an escape spell its unit. -/
theorem readUnit_escapeUnit {n : ℕ} (h : n < 65536) :
    readUnit (hexDigit (n / 4096)) (hexDigit (n / 256 % 16)) (hexDigit (n / 16 % 16))
      (hexDigit (n % 16)) = n := by
  rw [readUnit, hexValue_hexDigit (by omega), hexValue_hexDigit (by omega),
    hexValue_hexDigit (by omega), hexValue_hexDigit (by omega)]
  omega

/-- A character is not a surrogate, so its escape is read back as the character
and not as half of a pair. -/
theorem not_surrogate (c : Char) : ¬ (55296 ≤ c.toNat ∧ c.toNat < 57344) := by
  have h := c.valid
  rintro ⟨h₁, h₂⟩
  have hlt := UInt32.toNat_lt c.val
  rcases h with h | ⟨h, -⟩ <;> simp only [Char.toNat] at h₁ h₂ <;> omega

/-- A character that is no backslash stands for itself. -/
theorem readEscaped_of_ne {c : Char} (h : c ≠ '\\') (r : List Char) :
    readEscaped (c :: r) = some (c, r) := by
  rw [readEscaped.eq_def]
  split <;> simp_all

/-- A unit that is no high surrogate stands for its character. -/
theorem readEscaped_escapeUnit {n : ℕ} (hn : n < 65536) (hs : ¬ (55296 ≤ n ∧ n < 56320))
    (r : List Char) : readEscaped (escapeUnit n ++ r) = some (Char.ofNat n, r) := by
  have hread := readUnit_escapeUnit hn
  simp only [escapeUnit, List.cons_append, List.nil_append, readEscaped, hread, if_neg hs]

/-- Two units, the first of them a high surrogate, stand for one character. -/
theorem readEscaped_surrogates {m n : ℕ} (hm : 55296 ≤ m ∧ m < 56320) (hn : n < 65536)
    (r : List Char) :
    readEscaped (escapeUnit m ++ (escapeUnit n ++ r))
      = some (Char.ofNat (65536 + (m - 55296) * 1024 + (n - 56320)), r) := by
  have hhi := readUnit_escapeUnit (show m < 65536 by omega)
  have hlo := readUnit_escapeUnit hn
  simp only [escapeUnit, List.cons_append, List.nil_append, readEscaped, hhi, hlo, if_pos hm]

/-- **Reading back what was written**: a character is recovered from its
escape, whatever follows it. -/
theorem readEscaped_escapeChar (c : Char) (r : List Char) :
    readEscaped (escapeChar c ++ r) = some (c, r) := by
  by_cases hquote : c = '"'
  · subst hquote; rfl
  by_cases hback : c = '\\'
  · subst hback; rfl
  by_cases hn : c = '\n'
  · subst hn; rfl
  by_cases hr : c = '\r'
  · subst hr; rfl
  by_cases ht : c = '\t'
  · subst ht; rfl
  by_cases hb : c = '\x08'
  · subst hb; rfl
  by_cases hf : c = '\x0c'
  · subst hf; rfl
  rw [escapeChar, if_neg hquote, if_neg hback, if_neg hn, if_neg hr, if_neg ht, if_neg hb,
    if_neg hf]
  by_cases hplain : 32 ≤ c.toNat ∧ c.toNat ≤ 126
  · rw [if_pos hplain]
    exact readEscaped_of_ne hback r
  rw [if_neg hplain]
  by_cases hlt : c.toNat < 65536
  · have hs : ¬ (55296 ≤ c.toNat ∧ c.toNat < 56320) := fun h =>
      not_surrogate c ⟨h.1, by omega⟩
    rw [if_pos hlt, readEscaped_escapeUnit hlt hs, Char.ofNat_toNat]
  · -- an astral character is two surrogates, and they spell it
    have hmax : c.toNat < 1114112 := by
      have h := c.valid
      rcases h with h | ⟨-, h⟩ <;> simp only [Char.toNat] <;> omega
    have hc : 65536 + (55296 + (c.toNat - 65536) / 1024 - 55296) * 1024
        + (56320 + (c.toNat - 65536) % 1024 - 56320) = c.toNat := by omega
    rw [if_neg hlt, List.append_assoc, readEscaped_surrogates (by omega) (by omega), hc,
      Char.ofNat_toNat]

/-- No escape starts with the closing quote, so a string ends where its text
does. -/
theorem escapeChar_ne_quote (c : Char) (r r' : List Char) :
    escapeChar c ++ r ≠ '"' :: r' := by
  intro h
  have hread := readEscaped_escapeChar c r
  rw [h, show readEscaped ('"' :: r') = some ('"', r') from rfl] at hread
  obtain ⟨rfl, -⟩ := Prod.mk.inj (Option.some.inj hread)
  exact absurd (List.cons.inj h).1 (by decide)

/-- **A string is recovered from its text, and so is what follows it.** -/
theorem escape_append_inj {cs ds r r' : List Char}
    (h : cs.flatMap escapeChar ++ '"' :: r = ds.flatMap escapeChar ++ '"' :: r') :
    cs = ds ∧ r = r' := by
  induction cs generalizing ds with
  | nil =>
    cases ds with
    | nil => exact ⟨rfl, (List.cons.inj h).2⟩
    | cons d ds =>
      rw [List.flatMap_cons, List.append_assoc] at h
      exact absurd h.symm (escapeChar_ne_quote d _ _)
  | cons c cs ih =>
    cases ds with
    | nil =>
      rw [List.flatMap_cons, List.append_assoc] at h
      exact absurd h (escapeChar_ne_quote c _ _)
    | cons d ds =>
      rw [List.flatMap_cons, List.flatMap_cons, List.append_assoc, List.append_assoc] at h
      have hread := congrArg readEscaped h
      rw [readEscaped_escapeChar, readEscaped_escapeChar] at hread
      obtain ⟨hcd, hrest⟩ := Prod.mk.inj (Option.some.inj hread)
      obtain ⟨hcs, hr⟩ := ih hrest
      exact ⟨by rw [hcd, hcs], hr⟩

/-- A string in its quotes is told from what follows it, as its closing quote is
the first that is not escaped. -/
theorem renderString_append_inj {s t : String} {r r' : List Char}
    (h : renderString s ++ r = renderString t ++ r') : s = t ∧ r = r' := by
  simp only [renderString, List.cons_append, List.append_assoc, List.cons.injEq, true_and,
    List.nil_append] at h
  obtain ⟨hst, hr⟩ := escape_append_inj h
  exact ⟨String.toList_inj.mp hst, hr⟩

/-! ## A number is the longest run of number characters -/

/-- **What may follow a number**: nothing, or a character no number has. -/
def Delimited : List Char → Prop
  | [] => True
  | c :: _ => isNumChar c = false

/-- Two number texts that start one text are one text. -/
theorem number_append_inj {t u r r' : List Char} (ht : ∀ c ∈ t, isNumChar c = true)
    (hu : ∀ c ∈ u, isNumChar c = true) (hr : Delimited r) (hr' : Delimited r')
    (h : t ++ r = u ++ r') : t = u ∧ r = r' := by
  induction t generalizing u with
  | nil =>
    cases u with
    | nil => exact ⟨rfl, h⟩
    | cons d u =>
      rw [List.nil_append, List.cons_append] at h
      rw [h, Delimited, hu d List.mem_cons_self] at hr
      exact absurd hr (by decide)
  | cons c t ih =>
    cases u with
    | nil =>
      rw [List.nil_append, List.cons_append] at h
      rw [← h, Delimited, ht c List.mem_cons_self] at hr'
      exact absurd hr' (by decide)
    | cons d u =>
      obtain ⟨hcd, hrest⟩ := List.cons.inj h
      obtain ⟨htu, hrr⟩ := ih (fun x hx => ht x (List.mem_cons_of_mem _ hx))
        (fun x hx => hu x (List.mem_cons_of_mem _ hx)) hrest
      exact ⟨by rw [hcd, htu], hrr⟩

/-- An integer's text is a minus and digits, so that it ends where the number
does. -/
theorem int_repr_chars (i : ℤ) (c : Char) (h : c ∈ i.repr.toList) :
    (c.isDigit || c == '-') = true := by
  have hnat : ∀ (n : ℕ) (c : Char), c ∈ n.repr.toList → c.isDigit = true := fun n c h => by
    rw [Nat.toList_repr] at h
    exact Nat.isDigit_of_mem_toDigits (by decide) (by decide) h
  cases i with
  | ofNat n =>
    rw [Bool.or_eq_true]
    exact Or.inl (hnat n c h)
  | negSucc n =>
    rw [Bool.or_eq_true, beq_iff_eq]
    rw [show (Int.negSucc n).repr = "-" ++ (n + 1).repr from rfl, String.toList_append,
      List.mem_append] at h
    rcases h with h | h
    · exact Or.inr (List.mem_singleton.mp h)
    · exact Or.inl (hnat _ c h)

/-- A digit or a minus is a number character. -/
theorem isNumChar_of_int {c : Char} (h : (c.isDigit || c == '-') = true) :
    isNumChar c = true := by
  rw [Bool.or_eq_true, beq_iff_eq] at h
  rw [isNumChar, Bool.or_eq_true]
  rcases h with h | rfl
  · exact Or.inl h
  · exact Or.inr (by decide)

/-- The text of a float has only the characters of numbers, so what follows it
is not read as part of it. -/
theorem float_chars (f : PyFloat) (c : Char) (h : c ∈ f.text) : isNumChar c = true := by
  have hf := f.isFloat
  rw [isFloatText, Bool.and_eq_true, Bool.and_eq_true] at hf
  exact List.all_eq_true.mp hf.1.1 c h

/-- No float is written as an integer: its text has a dot, an exponent or a
word. -/
theorem float_text_ne_int (f : PyFloat) (i : ℤ) : f.text ≠ i.repr.toList := by
  intro h
  have hf := f.isFloat
  rw [isFloatText, Bool.and_eq_true] at hf
  obtain ⟨c, hc, hnot⟩ := List.any_eq_true.mp hf.2
  rw [h] at hc
  rw [int_repr_chars i c hc] at hnot
  exact absurd hnot (by decide)

/-- A float starts as a number does, and with no quote or bracket. -/
theorem startsNumber_float (f : PyFloat) : startsNumber f.text = true := by
  have hf := f.isFloat
  rw [isFloatText, Bool.and_eq_true, Bool.and_eq_true] at hf
  exact hf.1.2

/-- The text of an integer starts as numbers do: with a digit, or with a minus.
-/
theorem startsNumber_int (i : ℤ) : startsNumber i.repr.toList = true := by
  have hne : i.repr.toList ≠ [] := by
    cases i with
    | ofNat n => exact Nat.toList_repr ▸ Nat.toDigits_ne_nil
    | negSucc n =>
      rw [show (Int.negSucc n).repr = "-" ++ (n + 1).repr from rfl, String.toList_append]
      exact List.cons_ne_nil _ _
  obtain ⟨c, cs, hcs⟩ := List.exists_cons_of_ne_nil hne
  have hc := int_repr_chars i c (hcs ▸ List.mem_cons_self)
  rw [hcs, startsNumber]
  rw [Bool.or_eq_true, beq_iff_eq] at hc
  rw [Bool.or_eq_true]
  rcases hc with hc | rfl
  · exact Or.inl hc
  · exact Or.inr (by decide)

/-! ## The first character says which kind of value follows -/

/-- The kinds of value a text can start with, a closing bracket being none
of them. -/
inductive Kind where
  | null | true | false | number | string | array | object | closing
  deriving DecidableEq

/-- The kind of a value, which the first character of its text decides. -/
def kind : Json → Kind
  | .leaf .null => .null
  | .leaf (.bool Bool.true) => .true
  | .leaf (.bool Bool.false) => .false
  | .leaf (.int _) => .number
  | .leaf (.float _) => .number
  | .leaf (.str _) => .string
  | .list _ => .array
  | .map _ => .object

/-- The kind of value a text starts with, told by its first character. -/
def headKind : List Char → Kind
  | [] => .closing
  | c :: _ =>
    if c = 'n' then .null
    else if c = 't' then .true
    else if c = 'f' then .false
    else if c = '"' then .string
    else if c = '[' then .array
    else if c = '\x7b' then .object
    else if c = ']' ∨ c = '\x7d' then .closing
    else .number

/-- A text that starts as a number does is one. -/
theorem headKind_number {t : List Char} (h : startsNumber t = Bool.true) (r : List Char) :
    headKind (t ++ r) = .number := by
  cases t with
  | nil => exact absurd h (by decide)
  | cons c t =>
    rw [startsNumber, Bool.or_eq_true] at h
    have hne : ∀ d : Char, d.isDigit = Bool.false → "-NI".toList.contains d = Bool.false →
        c ≠ d := by
      rintro d h₁ h₂ rfl
      rw [h₁, h₂] at h
      exact absurd h (by decide)
    have h₁ := hne 'n' (by decide) (by decide)
    have h₂ := hne 't' (by decide) (by decide)
    have h₃ := hne 'f' (by decide) (by decide)
    have h₄ := hne '"' (by decide) (by decide)
    have h₅ := hne '[' (by decide) (by decide)
    have h₆ := hne '\x7b' (by decide) (by decide)
    have h₇ := hne ']' (by decide) (by decide)
    have h₈ := hne '\x7d' (by decide) (by decide)
    rw [List.cons_append, headKind, if_neg h₁, if_neg h₂, if_neg h₃, if_neg h₄, if_neg h₅,
      if_neg h₆, if_neg (by simp [h₇, h₈])]

/-- **The first character of a text is that of its value's kind.** -/
theorem headKind_render (v : Json) (r : List Char) : headKind (render v ++ r) = kind v := by
  cases v with
  | leaf a =>
    cases a with
    | null => rfl
    | bool b => cases b <;> rfl
    | int i => exact headKind_number (startsNumber_int i) r
    | float f => exact headKind_number (startsNumber_float f) r
    | str s => rfl
  | list xs => rfl
  | map d => rfl

/-- **Values whose texts start alike are of one kind.** -/
theorem kind_eq_of_render_append {v w : Json} {r r' : List Char}
    (h : render v ++ r = render w ++ r') : kind w = kind v := by
  rw [← headKind_render w r', ← h, headKind_render]

/-- A value's text does not start with a closing bracket. -/
theorem kind_ne_closing (v : Json) : kind v ≠ .closing := by
  cases v with
  | leaf a =>
    cases a with
    | bool b => cases b <;> decide
    | _ => exact fun h => Kind.noConfusion h
  | list xs => exact fun h => Kind.noConfusion h
  | map d => exact fun h => Kind.noConfusion h

/-! ## The text determines the value -/

/-- What follows a text in an array cannot be taken for a part of it. -/
theorem delimited_renderListTail (xs : List Json) (r : List Char) :
    Delimited (renderListTail xs ++ r) := by
  cases xs with
  | nil => exact (by decide : isNumChar ']' = Bool.false)
  | cons x xs => exact (by decide : isNumChar ',' = Bool.false)

/-- Nor can what follows a text in an object. -/
theorem delimited_renderMapTail (d : Dict String Json) (r : List Char) :
    Delimited (renderMapTail d ++ r) := by
  cases d with
  | nil => exact (by decide : isNumChar '\x7d' = Bool.false)
  | cons e d => exact (by decide : isNumChar ',' = Bool.false)

/-- **A value is recovered from its text**, when what follows cannot be
taken for a part of a number: the statement an induction carries. -/
def Recovered (v : Json) : Prop :=
  ∀ (w : Json) (r r' : List Char), Delimited r → Delimited r' →
    render v ++ r = render w ++ r' → v = w ∧ r = r'

/-- The members of an array after the first are recovered if each one is. -/
theorem renderListTail_append_inj {xs : List Json} (hxs : ∀ x ∈ xs, Recovered x) :
    ∀ (ys : List Json) (r r' : List Char),
      renderListTail xs ++ r = renderListTail ys ++ r' → xs = ys ∧ r = r' := by
  induction xs with
  | nil =>
    intro ys r r' h
    cases ys with
    | nil => exact ⟨rfl, (List.cons.inj h).2⟩
    | cons y ys => exact absurd (List.cons.inj h).1 (by decide)
  | cons x xs ih =>
    intro ys r r' h
    cases ys with
    | nil => exact absurd (List.cons.inj h).1 (by decide)
    | cons y ys =>
      have h' := (List.cons.inj (List.cons.inj h).2).2
      simp only [List.append_eq, List.append_assoc] at h'
      obtain ⟨hxy, hrest⟩ := hxs x List.mem_cons_self y _ _
        (delimited_renderListTail xs r) (delimited_renderListTail ys r') h'
      obtain ⟨hs, hr⟩ := ih (fun z hz => hxs z (List.mem_cons_of_mem _ hz)) ys r r' hrest
      exact ⟨by rw [hxy, hs], hr⟩

/-- So are the entries of an object after the first. -/
theorem renderMapTail_append_inj {d : Dict String Json} (hd : ∀ e ∈ d, Recovered e.2) :
    ∀ (d' : Dict String Json) (r r' : List Char),
      renderMapTail d ++ r = renderMapTail d' ++ r' → d = d' ∧ r = r' := by
  induction d with
  | nil =>
    intro d' r r' h
    cases d' with
    | nil => exact ⟨rfl, (List.cons.inj h).2⟩
    | cons e d' => exact absurd (List.cons.inj h).1 (by simp)
  | cons e d ih =>
    intro d' r r' h
    obtain ⟨k, x⟩ := e
    cases d' with
    | nil => exact absurd (List.cons.inj h).1 (by simp)
    | cons e' d' =>
      obtain ⟨l, y⟩ := e'
      have h' := (List.cons.inj (List.cons.inj h).2).2
      simp only [List.append_eq, List.append_assoc, List.cons_append] at h'
      obtain ⟨hkl, hrest⟩ := renderString_append_inj h'
      have h'' := (List.cons.inj (List.cons.inj hrest).2).2
      obtain ⟨hxy, hrest⟩ := hd (k, x) List.mem_cons_self y _ _
        (delimited_renderMapTail d r) (delimited_renderMapTail d' r') h''
      obtain ⟨hs, hr⟩ := ih (fun z hz => hd z (List.mem_cons_of_mem _ hz)) d' r r' hrest
      exact ⟨by rw [hkl, show x = y from hxy, hs], hr⟩

/-- A number is an integer or a float, told apart by how it is written. -/
theorem kind_number {w : Json} (h : kind w = .number) :
    (∃ i, w = .leaf (.int i)) ∨ ∃ f, w = .leaf (.float f) := by
  cases w with
  | leaf b =>
    cases b with
    | int i => exact Or.inl ⟨i, rfl⟩
    | float f => exact Or.inr ⟨f, rfl⟩
    | bool b => cases b <;> exact Kind.noConfusion h
    | _ => exact Kind.noConfusion h
  | _ => exact Kind.noConfusion h

theorem kind_string {w : Json} (h : kind w = .string) : ∃ t, w = .leaf (.str t) := by
  cases w with
  | leaf b =>
    cases b with
    | str t => exact ⟨t, rfl⟩
    | bool b => cases b <;> exact Kind.noConfusion h
    | _ => exact Kind.noConfusion h
  | _ => exact Kind.noConfusion h

theorem kind_array {w : Json} (h : kind w = .array) : ∃ ys, w = .list ys := by
  cases w with
  | leaf b =>
    cases b with
    | bool b => cases b <;> exact Kind.noConfusion h
    | _ => exact Kind.noConfusion h
  | map d => exact Kind.noConfusion h
  | list ys => exact ⟨ys, rfl⟩

theorem kind_object {w : Json} (h : kind w = .object) : ∃ d, w = .map d := by
  cases w with
  | leaf b =>
    cases b with
    | bool b => cases b <;> exact Kind.noConfusion h
    | _ => exact Kind.noConfusion h
  | list ys => exact Kind.noConfusion h
  | map d => exact ⟨d, rfl⟩

/-- A text starting with one of the three literals is that literal. -/
theorem recovered_literal {v w : Json} (hk : kind v = kind w)
    (hv : kind v = .null ∨ kind v = .true ∨ kind v = .false) : v = w := by
  have hsingle : ∀ u : Json, kind u = .null ∨ kind u = .true ∨ kind u = .false →
      u = .leaf .null ∧ kind u = .null ∨ u = .leaf (.bool Bool.true) ∧ kind u = .true
        ∨ u = .leaf (.bool Bool.false) ∧ kind u = .false := by
    intro u hu
    cases u with
    | leaf a =>
      cases a with
      | null => exact Or.inl ⟨rfl, rfl⟩
      | bool b =>
        cases b
        · exact Or.inr (Or.inr ⟨rfl, rfl⟩)
        · exact Or.inr (Or.inl ⟨rfl, rfl⟩)
      | _ => simp [kind] at hu
    | _ => simp [kind] at hu
  rcases hsingle v hv with ⟨rfl, h₁⟩ | ⟨rfl, h₁⟩ | ⟨rfl, h₁⟩ <;>
    rcases hsingle w (hk ▸ hv) with ⟨rfl, h₂⟩ | ⟨rfl, h₂⟩ | ⟨rfl, h₂⟩ <;>
    first
    | rfl
    | exact absurd hk (by decide)

/-- An integer is recovered from its text, whatever follows that is not a part
of a number. -/
theorem recovered_int (i : ℤ) : Recovered (.leaf (.int i)) := by
  intro w r r' hr hr' h
  have hi : ∀ j : ℤ, ∀ c ∈ j.repr.toList, isNumChar c = Bool.true :=
    fun j c hc => isNumChar_of_int (int_repr_chars j c hc)
  rcases kind_number (kind_eq_of_render_append h) with ⟨j, rfl⟩ | ⟨f, rfl⟩
  · obtain ⟨ht, hrr⟩ := number_append_inj (hi i) (hi j) hr hr' h
    rw [Int.repr_injective (String.toList_inj.mp ht)]
    exact ⟨rfl, hrr⟩
  · obtain ⟨ht, -⟩ := number_append_inj (hi i) (float_chars f) hr hr' h
    exact absurd ht.symm (float_text_ne_int f i)

/-- A float is recovered from its text, which is not that of an integer. -/
theorem recovered_float (f : PyFloat) : Recovered (.leaf (.float f)) := by
  intro w r r' hr hr' h
  rcases kind_number (kind_eq_of_render_append h) with ⟨j, rfl⟩ | ⟨g, rfl⟩
  · obtain ⟨ht, -⟩ := number_append_inj (float_chars f)
      (fun c hc => isNumChar_of_int (int_repr_chars j c hc)) hr hr' h
    exact absurd ht (float_text_ne_int f j)
  · obtain ⟨ht, hrr⟩ := number_append_inj (float_chars f) (float_chars g) hr hr' h
    obtain ⟨t, ht'⟩ := f
    obtain ⟨u, hu'⟩ := g
    obtain rfl : t = u := ht
    exact ⟨rfl, hrr⟩

/-- A string is recovered from its text, as the quotes around it are the only
ones not escaped. -/
theorem recovered_str (s : String) : Recovered (.leaf (.str s)) := by
  intro w r r' _ _ h
  obtain ⟨t, rfl⟩ := kind_string (kind_eq_of_render_append h)
  obtain ⟨rfl, hr⟩ := renderString_append_inj h
  exact ⟨rfl, hr⟩

/-- An array is recovered from its text if its members are. -/
theorem recovered_list {xs : List Json} (ih : ∀ x ∈ xs, Recovered x) :
    Recovered (.list xs) := by
  intro w r r' _ _ h
  obtain ⟨ys, rfl⟩ := kind_array (kind_eq_of_render_append h)
  have h' : renderList xs ++ r = renderList ys ++ r' := (List.cons.inj h).2
  cases xs with
  | nil =>
    cases ys with
    | nil => exact ⟨rfl, (List.cons.inj h').2⟩
    | cons y ys =>
      have hy := headKind_render y (renderListTail ys ++ r')
      rw [← List.append_assoc, show render y ++ renderListTail ys = renderList (y :: ys)
        from rfl, ← h'] at hy
      exact absurd hy.symm (kind_ne_closing y)
  | cons x xs =>
    cases ys with
    | nil =>
      have hx := headKind_render x (renderListTail xs ++ r)
      rw [← List.append_assoc, show render x ++ renderListTail xs = renderList (x :: xs)
        from rfl, h'] at hx
      exact absurd hx.symm (kind_ne_closing x)
    | cons y ys =>
      simp only [renderList, List.append_assoc] at h'
      obtain ⟨rfl, hrest⟩ := ih x List.mem_cons_self y _ _
        (delimited_renderListTail xs r) (delimited_renderListTail ys r') h'
      obtain ⟨rfl, hr⟩ := renderListTail_append_inj
        (fun z hz => ih z (List.mem_cons_of_mem _ hz)) ys r r' hrest
      exact ⟨rfl, hr⟩

/-- An object is recovered from its text if its values are. -/
theorem recovered_map {d : Dict String Json} (ih : ∀ e ∈ d, Recovered e.2) :
    Recovered (.map d) := by
  intro w r r' _ _ h
  obtain ⟨d', rfl⟩ := kind_object (kind_eq_of_render_append h)
  have h' : renderMap d ++ r = renderMap d' ++ r' := (List.cons.inj h).2
  cases d with
  | nil =>
    cases d' with
    | nil => exact ⟨rfl, (List.cons.inj h').2⟩
    | cons e d' => exact absurd (List.cons.inj h').1 (by decide)
  | cons e d =>
    cases d' with
    | nil => exact absurd (List.cons.inj h').1 (by decide)
    | cons e' d' =>
      obtain ⟨k, x⟩ := e
      obtain ⟨l, y⟩ := e'
      simp only [renderMap, List.append_assoc, List.cons_append] at h'
      obtain ⟨rfl, hrest⟩ := renderString_append_inj h'
      obtain ⟨hxy, hrest⟩ := ih (k, x) List.mem_cons_self y _ _
        (delimited_renderMapTail d r) (delimited_renderMapTail d' r')
        (List.cons.inj (List.cons.inj hrest).2).2
      obtain ⟨rfl, hr⟩ := renderMapTail_append_inj
        (fun z hz => ih z (List.mem_cons_of_mem _ hz)) d' r r' hrest
      exact ⟨by rw [show x = y from hxy], hr⟩

/-- **Every value is recovered from its text**, by induction on the value: the
first character says of what kind it is, and what follows is read one part at a
time. -/
theorem recovered (v : Json) : Recovered v := by
  induction v using DocTree.induct with
  | leaf a =>
    cases a with
    | int i => exact recovered_int i
    | float f => exact recovered_float f
    | str s => exact recovered_str s
    | null =>
      intro w r r' _ _ h
      obtain rfl := recovered_literal (v := .leaf .null) (w := w)
        (kind_eq_of_render_append h).symm (Or.inl rfl)
      exact ⟨rfl, List.append_cancel_left h⟩
    | bool b =>
      intro w r r' _ _ h
      obtain rfl := recovered_literal (v := .leaf (.bool b)) (w := w)
        (kind_eq_of_render_append h).symm (by cases b <;> decide)
      exact ⟨rfl, List.append_cancel_left h⟩
  | list xs ih => exact recovered_list ih
  | map d ih => exact recovered_map ih

/-- **`json.dumps` is injective**: two values with one text are one value. -/
theorem dumps_injective {v w : Json} (h : dumps v = dumps w) : v = w := by
  have h' : render v ++ [] = render w ++ [] := by
    rw [List.append_nil, List.append_nil]
    exact String.ofList_injective h
  exact (recovered v w [] [] trivial trivial h').1

/-- **Under `sort_keys` two values have one text exactly when they differ by
the order of their keys alone.** -/
theorem dumpsSorted_eq_iff (v w : Json) :
    dumpsSorted v = dumpsSorted w ↔ sortKeys v = sortKeys w :=
  ⟨dumps_injective, congrArg dumps⟩

/-- Sorting the values of an object leaves its keys alone. -/
theorem keys_sortKeysMap (d : Dict String Json) : Dict.keys (sortKeysMap d) = d.keys := by
  induction d with
  | nil => rfl
  | cons e d ih =>
    obtain ⟨k, x⟩ := e
    rw [sortKeysMap, Dict.keys_cons, Dict.keys_cons, ih]

/-- **Two objects differ by the order of keys alone** exactly when their
entries, each sorted, are the same up to order. -/
theorem sortKeys_map_eq_iff {d e : Dict String Json} (hd : d.keys.Nodup) :
    sortKeys (.map d) = sortKeys (.map e) ↔ (sortKeysMap d).Perm (sortKeysMap e) := by
  let le : String × Json → String × Json → Prop := fun a b => a.1 ≤ b.1
  have htotal : ∀ a b, le a b ∨ le b a := fun a b => le_total a.1 b.1
  have htrans : ∀ a b c, le a b → le b c → le a c := fun _ _ _ => le_trans
  have _ : Std.Total le := ⟨htotal⟩
  have _ : IsTrans (String × Json) le := ⟨htrans⟩
  have hperm : ∀ d : Dict String Json, (d.insertionSort le).Perm d := List.perm_insertionSort le
  rw [sortKeys, sortKeys, DocTree.map.injEq]
  constructor
  · intro h
    have h' : (sortKeysMap d).insertionSort le = (sortKeysMap e).insertionSort le := h
    exact ((hperm _).symm.trans (h' ▸ List.Perm.refl _)).trans (hperm _)
  · intro h
    refine List.Perm.eq_of_pairwise (fun a b ha hb hab hba => ?_)
      (List.pairwise_insertionSort le _) (List.pairwise_insertionSort le _)
      (((hperm _).trans h).trans (hperm _).symm)
    -- two entries with one key are one entry, since the keys are distinct
    have hkeys : (Dict.keys (sortKeysMap d)).Nodup := by rwa [keys_sortKeysMap]
    have ha' : a ∈ sortKeysMap d := (hperm _).mem_iff.mp ha
    have hb' : b ∈ sortKeysMap d := h.mem_iff.mpr ((hperm _).mem_iff.mp hb)
    exact List.inj_on_of_nodup_map hkeys ha' hb' (le_antisymm hab hba)

end Json
