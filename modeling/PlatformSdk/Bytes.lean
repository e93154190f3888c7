import Mathlib.Data.List.Basic
import Mathlib.Logic.Function.Basic

/-!
# Bytes as text

Two encodings of a list of bytes as a text: lower-case hexadecimal, and
base64 with its padding. Both are read back by a decoder
(`b64decode_b64encode`, `unhex_hexdigest`), so that both are injective, and
neither text has a dot or a character outside ASCII in it: whoever joins
texts of either kind with a dot can take them apart again.

The decoders are written for what the encoders write; they say nothing about
other texts.
-/

/-! ## Hexadecimal -/

/-- A hexadecimal digit, in lower case. -/
def hexDigit (n : ℕ) : Char := "0123456789abcdef".toList.getD n '0'

/-- The value of a hexadecimal digit. -/
def hexValue (c : Char) : ℕ := "0123456789abcdef".toList.idxOf c

/-- **`hexdigest`**: two digits for each byte. -/
def hexdigest : List UInt8 → List Char
  | [] => []
  | a :: bytes => hexDigit (a.toNat / 16) :: hexDigit (a.toNat % 16) :: hexdigest bytes

/-- The bytes of a hexadecimal text. -/
def unhex : List Char → List UInt8
  | p :: q :: cs => UInt8.ofNat (hexValue p * 16 + hexValue q) :: unhex cs
  | _ => []

theorem hexValue_hexDigit {n : ℕ} (h : n < 16) : hexValue (hexDigit n) = n := by
  have key : ∀ m : Fin 16, hexValue (hexDigit m) = m := by decide
  exact key ⟨n, h⟩

/-- A digit is in ASCII and no dot. -/
theorem hexDigit_plain {n : ℕ} (h : n < 16) :
    (hexDigit n).toNat < 128 ∧ hexDigit n ≠ '.' := by
  have key : ∀ m : Fin 16, (hexDigit m).toNat < 128 ∧ hexDigit m ≠ '.' := by decide
  exact key ⟨n, h⟩

/-- A byte is less than 256, so that taking the number of a byte for a byte
again changes nothing. -/
theorem uint8_ofNat_eq {n : ℕ} {a : UInt8} (h : n = a.toNat) : UInt8.ofNat n = a := by
  rw [h, UInt8.ofNat_toNat]

/-- **Hexadecimal is read back**: the two digits of a byte are its quotient and
remainder by sixteen. -/
theorem unhex_hexdigest (bytes : List UInt8) : unhex (hexdigest bytes) = bytes := by
  induction bytes with
  | nil => rfl
  | cons a bytes ih =>
    have ha := a.toNat_lt
    rw [hexdigest, unhex, hexValue_hexDigit (by omega), hexValue_hexDigit (by omega), ih,
      uint8_ofNat_eq (a := a) (by omega)]

theorem hexdigest_injective : Function.Injective hexdigest :=
  Function.LeftInverse.injective unhex_hexdigest

/-- **A hexadecimal text is plain**: in ASCII, and without a dot. -/
theorem hexdigest_plain (bytes : List UInt8) :
    ∀ c ∈ hexdigest bytes, c.toNat < 128 ∧ c ≠ '.' := by
  induction bytes with
  | nil => simp [hexdigest]
  | cons a bytes ih =>
    have ha := a.toNat_lt
    simp only [hexdigest, List.forall_mem_cons]
    exact ⟨hexDigit_plain (by omega), hexDigit_plain (by omega), ih⟩

/-! ## Base64 -/

/-- The alphabet of URL-safe Base64, by value. -/
def b64Alphabet : List Char :=
  "ABCDEFGHIJKLMNOPQRSTUVWXYZabcdefghijklmnopqrstuvwxyz0123456789+/".toList

/-- The character of a six-bit number. -/
def b64Char (n : ℕ) : Char := b64Alphabet.getD n '='

/-- The six-bit number of a character. -/
def b64Value (c : Char) : ℕ := b64Alphabet.idxOf c

/-- **`base64.b64encode`**: three bytes in four characters, the last group
padded. -/
def b64encode : List UInt8 → List Char
  | [] => []
  | [a] => [b64Char (a.toNat / 4), b64Char (a.toNat % 4 * 16), '=', '=']
  | [a, b] =>
    [b64Char (a.toNat / 4), b64Char (a.toNat % 4 * 16 + b.toNat / 16),
      b64Char (b.toNat % 16 * 4), '=']
  | a :: b :: c :: bytes =>
    b64Char (a.toNat / 4) :: b64Char (a.toNat % 4 * 16 + b.toNat / 16)
      :: b64Char (b.toNat % 16 * 4 + c.toNat / 64) :: b64Char (c.toNat % 64)
      :: b64encode bytes

/-- The bytes of a base64 text. -/
def b64decode : List Char → List UInt8
  | p :: q :: r :: s :: cs =>
    let a := UInt8.ofNat (b64Value p * 4 + b64Value q / 16)
    let b := UInt8.ofNat (b64Value q % 16 * 16 + b64Value r / 4)
    let c := UInt8.ofNat (b64Value r % 4 * 64 + b64Value s)
    if s = '=' then (if r = '=' then [a] else [a, b]) else a :: b :: c :: b64decode cs
  | _ => []

/-- Each six-bit number has its own character, which is no padding. -/
theorem b64Value_b64Char (n : ℕ) (h : n < 64) :
    b64Value (b64Char n) = n ∧ b64Char n ≠ '=' := by
  have key : ∀ m : Fin 64, b64Value (b64Char m) = m ∧ b64Char m ≠ '=' := by
    unfold b64Value b64Char b64Alphabet
    rw [String.toList_ofList]
    decide +kernel
  exact key ⟨n, h⟩

/-- **Base64 is read back.** Three bytes are four characters; a rest of one byte
or two is padded, and the padding says which. -/
theorem b64decode_b64encode (bytes : List UInt8) : b64decode (b64encode bytes) = bytes := by
  induction bytes using b64encode.induct with
  | case1 => rfl
  | case2 a =>
    have ha := a.toNat_lt
    have h₁ := b64Value_b64Char (a.toNat / 4) (by omega)
    have h₂ := b64Value_b64Char (a.toNat % 4 * 16) (by omega)
    simp only [b64encode, b64decode, if_true, h₁, h₂]
    exact congrArg (· :: []) (uint8_ofNat_eq (by omega))
  | case3 a b =>
    have ha := a.toNat_lt
    have hb := b.toNat_lt
    have h₁ := b64Value_b64Char (a.toNat / 4) (by omega)
    have h₂ := b64Value_b64Char (a.toNat % 4 * 16 + b.toNat / 16) (by omega)
    have h₃ := b64Value_b64Char (b.toNat % 16 * 4) (by omega)
    simp only [b64encode, b64decode, if_true, if_false, h₁, h₂, h₃]
    rw [uint8_ofNat_eq (a := a) (by omega), uint8_ofNat_eq (a := b) (by omega)]
  | case4 a b c bytes ih =>
    have ha := a.toNat_lt
    have hb := b.toNat_lt
    have hc := c.toNat_lt
    have h₁ := b64Value_b64Char (a.toNat / 4) (by omega)
    have h₂ := b64Value_b64Char (a.toNat % 4 * 16 + b.toNat / 16) (by omega)
    have h₃ := b64Value_b64Char (b.toNat % 16 * 4 + c.toNat / 64) (by omega)
    have h₄ := b64Value_b64Char (c.toNat % 64) (by omega)
    simp only [b64encode, b64decode, if_false, h₁, h₂, h₃, h₄, ih]
    rw [uint8_ofNat_eq (a := a) (by omega), uint8_ofNat_eq (a := b) (by omega),
      uint8_ofNat_eq (a := c) (by omega)]

theorem b64encode_injective : Function.Injective b64encode :=
  Function.LeftInverse.injective b64decode_b64encode

/-- Every character of the alphabet, and the padding, is in ASCII and no
dot. -/
theorem b64Char_plain (n : ℕ) : (b64Char n).toNat < 128 ∧ b64Char n ≠ '.' := by
  have hall : ('=' :: b64Alphabet).all (fun c => c.toNat < 128 && c != '.') = true := by
    unfold b64Alphabet
    rw [String.toList_ofList]
    decide +kernel
  suffices hmem : b64Char n ∈ '=' :: b64Alphabet by
    have h := List.all_eq_true.mp hall _ hmem
    simpa using h
  rw [b64Char, List.getD_eq_getElem?_getD]
  cases h : b64Alphabet[n]? with
  | none => exact List.mem_cons_self
  | some c => exact List.mem_cons_of_mem _ (List.mem_of_getElem? h)

/-- **A base64 text is plain**: in ASCII, and without a dot. -/
theorem b64encode_plain (bytes : List UInt8) :
    ∀ c ∈ b64encode bytes, c.toNat < 128 ∧ c ≠ '.' := by
  have hpad : '='.toNat < 128 ∧ '=' ≠ '.' := by decide
  induction bytes using b64encode.induct with
  | case1 => simp [b64encode]
  | case2 a =>
    simp only [b64encode, List.forall_mem_cons]
    exact ⟨b64Char_plain _, b64Char_plain _, hpad, hpad, by simp⟩
  | case3 a b =>
    simp only [b64encode, List.forall_mem_cons]
    exact ⟨b64Char_plain _, b64Char_plain _, b64Char_plain _, hpad, by simp⟩
  | case4 a b c bytes ih =>
    simp only [b64encode, List.forall_mem_cons]
    exact ⟨b64Char_plain _, b64Char_plain _, b64Char_plain _, b64Char_plain _, ih⟩

example : String.ofList (b64encode [104, 105, 33, 63]) = "aGkhPw==" := by decide
