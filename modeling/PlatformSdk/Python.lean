import Mathlib.Algebra.Order.Ring.Rat
import Mathlib.Data.List.DropRight
import PlatformSdk.Json

/-!
# What the source takes from Python

The exceptions the modelled code raises and catches, the values of a float,
the truth value of a JSON value, and the few string methods the code calls. A
Python `str` is a `String`, a sequence of Unicode scalar values.

A call that can raise is an `Except PyExc`. Every exception here derives
from `Exception`, so `except Exception` catches each of them.
-/

/-- **The exceptions of the modelled code.** The ones with text carry it. -/
inductive PyExc where
  | valueError (msg : String)
  | typeError (msg : String)
  | attributeError (msg : String)
  | runtimeError (msg : String)
  /-- `json.JSONDecodeError`, a `ValueError`. -/
  | jsonDecodeError
  /-- `UnicodeDecodeError`, a `ValueError`. -/
  | unicodeDecodeError
  | osError (msg : String)
  /-- `httpx.TimeoutException`. -/
  | timeoutException
  /-- Any other `httpx.RequestError`. -/
  | requestError (msg : String)
  /-- `httpx.HTTPStatusError`, with the status of the response. -/
  | httpStatusError (status : ℕ)
  deriving DecidableEq

/-- **What a float holds**: a rational – every finite double is one –, an
infinity, or `nan`. -/
inductive FloatValue where
  | finite (q : ℚ)
  | inf
  | negInf
  | nan
  deriving DecidableEq

namespace FloatValue

/-- `t + x` for a finite `t`, the rounding of the sum left out. -/
def addTo (t : ℚ) : FloatValue → FloatValue
  | .finite q => .finite (t + q)
  | x => x

/-- `t >= x` for a finite `t`. Nothing compares with `nan`. -/
def reachedBy (t : ℚ) : FloatValue → Bool
  | .finite q => decide (q ≤ t)
  | .inf => false
  | .negInf => true
  | .nan => false

/-- `t < x` for a finite `t`, which `nan` is on neither side of. -/
def isAbove (t : ℚ) : FloatValue → Bool
  | .finite q => decide (t < q)
  | .inf => true
  | .negInf => false
  | .nan => false

/-- `x > 0`, which holds of no `nan`. -/
def isPositive : FloatValue → Bool
  | .finite q => decide (0 < q)
  | .inf => true
  | .negInf => false
  | .nan => false

end FloatValue

/-- The truth value of a JSON value, as `bool(x)` and `if x` read it. -/
def Json.truthy : Json → Bool
  | .leaf .null => false
  | .leaf (.bool b) => b
  | .leaf (.int i) => i != 0
  | .leaf (.float f) => f.text != "0.0".toList && f.text != "-0.0".toList
  | .leaf (.str s) => s != ""
  | .list xs => !xs.isEmpty
  | .map d => !d.isEmpty

/-- `os.environ`, as far as `get` tells of it. -/
abbrev Environ := String → Option String

/-- The characters `str.strip` removes: those Unicode counts as white space, and
four separators of ASCII. -/
def isPySpace (c : Char) : Bool :=
  (9 ≤ c.toNat && c.toNat ≤ 13) || (28 ≤ c.toNat && c.toNat ≤ 32)
    || [133, 160, 5760, 8232, 8233, 8239, 8287, 12288].contains c.toNat
    || (8192 ≤ c.toNat && c.toNat ≤ 8202)

/-- `s.strip()`, which takes what Python counts as white space from both ends.
-/
def pyStrip (cs : List Char) : List Char := (cs.dropWhile isPySpace).rdropWhile isPySpace

/-- Whether `s.strip()` is the empty string, told without stripping. -/
def isBlank (s : String) : Bool := s.toList.all isPySpace

/-- `s.split(c)` for a one-character separator, which leaves empty pieces in. -/
def pySplit (s : String) (c : Char) : List String :=
  (s.toList.splitOn c).map String.ofList

/-- Whether `hmac.compare_digest` accepts a `str`: it raises `TypeError` on
one with a non-ASCII character. -/
def isAscii (s : String) : Bool := s.toList.all (fun c => c.toNat < 128)

/-- **`hmac.compare_digest`** on two strings, which raises unless both are
ASCII. -/
def compareDigest (a b : String) : Except PyExc Bool :=
  if isAscii a && isAscii b then .ok (a == b)
  else .error (.typeError "comparing strings with non-ASCII characters is not supported")

/-- `s.encode()`, the UTF-8 bytes of a string of characters. -/
def encodeUtf8 (s : String) : List UInt8 := s.toUTF8.data.toList

theorem pyStrip_sublist (cs : List Char) : List.Sublist (pyStrip cs) cs :=
  (List.rdropWhile_prefix _ _).sublist.trans (List.dropWhile_sublist _)

/-- What is stripped of blanks has none left to strip. -/
theorem pyStrip_idempotent (cs : List Char) : pyStrip (pyStrip cs) = pyStrip cs := by
  have hhead : (pyStrip cs).dropWhile isPySpace = pyStrip cs := by
    cases hcs : pyStrip cs with
    | nil => rfl
    | cons c t =>
      obtain ⟨u, hu⟩ : pyStrip cs <+: cs.dropWhile isPySpace := List.rdropWhile_prefix _ _
      rw [hcs, List.cons_append] at hu
      have hnot := List.head?_dropWhile_not isPySpace cs
      rw [← hu] at hnot
      exact List.dropWhile_cons_of_neg (Bool.not_eq_true _ ▸ hnot)
  calc pyStrip (pyStrip cs)
      = (pyStrip cs).rdropWhile isPySpace := congrArg (List.rdropWhile isPySpace) hhead
    _ = pyStrip cs := List.rdropWhile_idempotent _ _

/-- Two strings with the same bytes are one string. -/
theorem encodeUtf8_injective : Function.Injective encodeUtf8 := by
  intro s t h
  have hd : s.toUTF8.data = t.toUTF8.data := Array.toList_inj.mp h
  exact String.toByteArray_inj.mp (ByteArray.ext hd)

/-- `b.decode()`, which raises on bytes that are no UTF-8. -/
def decodeUtf8 (bytes : List UInt8) : Except PyExc String :=
  match String.fromUTF8? ⟨bytes.toArray⟩ with
  | some s => .ok s
  | none => .error .unicodeDecodeError

theorem decodeUtf8_encodeUtf8 (s : String) : decodeUtf8 (encodeUtf8 s) = .ok s := by
  have hbytes : (⟨(encodeUtf8 s).toArray⟩ : ByteArray) = s.toUTF8 := by
    rw [encodeUtf8, Array.toArray_toList]
  have hs : String.fromUTF8? s.toUTF8 = some s := dif_pos s.isValidUTF8
  rw [decodeUtf8, hbytes, hs]

/-- A list with the separator in it splits at the first one. -/
theorem splitOn_of_mem {c : Char} {xs : List Char} (h : c ∈ xs) :
    ∃ p q, xs = p ++ c :: q ∧ c ∉ p ∧ xs.splitOn c = p :: q.splitOn c := by
  obtain ⟨p, q, rfl, hp⟩ := List.eq_append_cons_of_mem h
  exact ⟨p, q, rfl, hp, List.splitOn_append_cons_self_of_not_mem hp q⟩

/-- **A split into two pieces** is the text with one separator between two
pieces that have none. -/
theorem splitOn_eq_pair_iff (xs a b : List Char) (c : Char) :
    xs.splitOn c = [a, b] ↔ xs = a ++ c :: b ∧ c ∉ a ∧ c ∉ b := by
  constructor
  · intro h
    by_cases hc : c ∈ xs
    · obtain ⟨p, q, rfl, hp, hs⟩ := splitOn_of_mem hc
      rw [hs] at h
      obtain ⟨rfl, hq⟩ := List.cons.inj h
      by_cases hcq : c ∈ q
      · obtain ⟨p', q', -, -, hs'⟩ := splitOn_of_mem hcq
        rw [hs'] at hq
        exact absurd (List.cons.inj hq).2 (List.splitOn_ne_nil c q')
      · rw [List.splitOn_eq_singleton hcq] at hq
        obtain ⟨rfl, -⟩ := List.cons.inj hq
        exact ⟨rfl, hp, hcq⟩
    · rw [List.splitOn_eq_singleton hc] at h
      exact absurd (List.cons.inj h).2 (by simp)
  · rintro ⟨rfl, ha, hb⟩
    rw [List.splitOn_append_cons_self_of_not_mem ha, List.splitOn_eq_singleton hb]

/-- A string is split in two exactly at its only separator. -/
theorem pySplit_eq_pair_iff (s a b : String) (c : Char) :
    pySplit s c = [a, b]
      ↔ s.toList = a.toList ++ c :: b.toList ∧ c ∉ a.toList ∧ c ∉ b.toList := by
  rw [← splitOn_eq_pair_iff, pySplit]
  constructor
  · intro h
    have h' := congrArg (List.map String.toList) h
    rw [List.map_map] at h'
    have hid : String.toList ∘ String.ofList = id := funext fun l => String.toList_ofList
    rw [hid, List.map_id] at h'
    exact h'
  · intro h
    rw [h, List.map_cons, List.map_cons, List.map_nil, String.ofList_toList,
      String.ofList_toList]

example : pySplit "a.b" '.' = ["a", "b"] := by decide
example : isBlank " \t\n" = true := by decide
example : decodeUtf8 [0xff] = .error .unicodeDecodeError := rfl
