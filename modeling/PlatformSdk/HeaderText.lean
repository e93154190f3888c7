import PlatformSdk.Auth

/-!
# Headers that are any string

A Python `str` is a sequence of code points, and a code point may be a lone
surrogate, which no character is and UTF-8 does not encode. Here a header, and
each secret of the environment, is any such sequence. On strings without
surrogates the functions are those of the signed contexts
(`PyStr.fromHeader_ofString`).

`from_header` is documented to raise `ValueError` on what is not signed, and
its callers to catch that. A surrogate in the payload or in a secret keeps the
promise, since a `UnicodeEncodeError` is a `ValueError`. A signature with a
character outside ASCII breaks it: `compare_digest` raises a `TypeError`
(`PyStr.rejectsUnverified_iff`).
-/

/-- A code point, surrogates included: a `str` can hold these where a `String`
cannot. -/
abbrev CodePoint := Fin 1114112

/-- The code point of a character, which is no surrogate. -/
def CodePoint.ofChar (c : Char) : CodePoint :=
  ⟨c.toNat, by
    have h := c.valid
    rcases h with h | ⟨-, h⟩ <;> simp only [Char.toNat] <;> omega⟩

/-- The character of a code point, where it is one. -/
def CodePoint.toChar (p : CodePoint) : Char := Char.ofNat p.val

theorem CodePoint.toChar_ofChar (c : Char) : (ofChar c).toChar = c := Char.ofNat_toNat c

theorem CodePoint.ofChar_injective : Function.Injective ofChar :=
  Function.LeftInverse.injective toChar_ofChar

/-- A code point that is no character, and that UTF-8 has no bytes for. -/
def CodePoint.isSurrogate (p : CodePoint) : Bool := 55296 ≤ p.val && p.val < 57344

theorem CodePoint.isSurrogate_ofChar (c : Char) : (ofChar c).isSurrogate = false :=
  Bool.eq_false_iff.mpr fun h =>
    have hrange := Bool.and_eq_true_iff.mp h
    Json.not_surrogate c ⟨of_decide_eq_true hrange.1, of_decide_eq_true hrange.2⟩

/-- **A Python `str`**, as a list of its code points. -/
abbrev PyStr := List CodePoint

namespace PyStr

/-- A string of characters, none of which is a surrogate. -/
def ofString (s : String) : PyStr := s.toList.map CodePoint.ofChar

/-- `'.'`. -/
def dot : CodePoint := CodePoint.ofChar '.'

/-- Whether UTF-8 encodes the string, which it does not where there is a lone
surrogate. -/
def isEncodable (s : PyStr) : Bool := s.all (fun p => !p.isSurrogate)

/-- `s.encode()`. A `UnicodeEncodeError`, which a surrogate raises, is a
`ValueError`. -/
def encode (s : PyStr) : Except PyExc (List UInt8) :=
  if isEncodable s then .ok (encodeUtf8 (String.ofList (s.map CodePoint.toChar)))
  else .error (.valueError "surrogates not allowed")

/-- Whether all code points of the string are in ASCII. -/
def isAscii (s : PyStr) : Bool := s.all (fun p => p.val < 128)

/-- **`hmac.compare_digest`** on two strings: it compares them if both are in
ASCII, and raises if not. -/
def compareDigest (a b : PyStr) : Except PyExc Bool :=
  if isAscii a && isAscii b then .ok (a == b)
  else .error (.typeError "comparing strings with non-ASCII characters is not supported")

/-- `os.environ`, where a byte that is not decoded is a surrogate. -/
abbrev Environ := String → Option PyStr

/-- `_get_jwt_secret`, over an environment whose values may hold surrogates. -/
def getJwtSecret (environ : Environ) : PyStr :=
  (environ "JWT_SECRET").getD (ofString defaultDevSecret)

/-- The text of the HMAC secret: the one of its own, or else the one of the
tokens. -/
def hmacSecretText (environ : Environ) : PyStr :=
  (environ "CONTEXT_HMAC_SECRET").getD (getJwtSecret environ)

/-- The text of the previous secret, if there is one. -/
def previousSecretText (environ : Environ) : Option PyStr :=
  match environ "CONTEXT_HMAC_SECRET_PREVIOUS" with
  | none | some [] => none
  | some prev => some prev

/-- `_get_hmac_secret`, which raises where the text has no bytes. -/
def getHmacSecret (environ : Environ) : Except PyExc (List UInt8) := encode (hmacSecretText environ)

/-- `_get_previous_hmac_secret`, which raises where the text has no bytes. -/
def getPreviousHmacSecret (environ : Environ) : Except PyExc (Option (List UInt8)) :=
  match previousSecretText environ with
  | none => .ok none
  | some prev => (encode prev).map some

section Header

variable (hmac : List UInt8 → List UInt8 → List UInt8) (decode : PyStr → Except PyExc Json)

/-- `hmac.new(key, payload_b64.encode(), hashlib.sha256).hexdigest()`, an
exception of `encode` passing through. -/
def hexHmac (key : List UInt8) (payload : PyStr) : Except PyExc PyStr :=
  match encode payload with
  | .ok msg => .ok ((hexdigest (hmac key msg)).map CodePoint.ofChar)
  | .error exc => .error exc

/-- `_sign`, with the secret of the environment at the time. -/
def sign (environ : Environ) (payload : PyStr) : Except PyExc PyStr :=
  match getHmacSecret environ with
  | .ok key => hexHmac hmac key payload
  | .error exc => .error exc

/-- A try of `_verify_and_split`: the payload if the signature is the expected
one, and whatever follows if it is not. -/
def tryExpected (expected : Except PyExc PyStr) (payload sig : PyStr)
    (otherwise : Except PyExc PyStr) : Except PyExc PyStr :=
  match expected with
  | .error exc => .error exc
  | .ok expected =>
    match compareDigest sig expected with
    | .ok true => .ok payload
    | .ok false => otherwise
    | .error exc => .error exc

/-- **`_verify_and_split`**: the payload of a header that is signed. -/
def verifyAndSplit (environ : Environ) (raw : PyStr) : Except PyExc PyStr :=
  match raw.splitOn dot with
  | [payload, sig] =>
    let mismatch := .error
      (.valueError "X-Agent-Context: HMAC signature mismatch — possible forgery attempt")
    tryExpected (sign hmac environ payload) payload sig
      (match getPreviousHmacSecret environ with
        | .error exc => .error exc
        | .ok none => mismatch
        | .ok (some prev) => tryExpected (hexHmac hmac prev payload) payload sig mismatch)
  | _ =>
    .error (.valueError "X-Agent-Context: expected <payload>.<sig>, got wrong segment count")

/-- **`from_header`**: verify, then decode, on every string a caller can pass.
-/
def fromHeader (environ : Environ) (raw : PyStr) : Except PyExc (AgentContext Json) :=
  match verifyAndSplit hmac environ raw with
  | .error exc => .error exc
  | .ok payload =>
    match decode payload with
    | .error exc => .error exc
    | .ok data => AgentContext.ofData data

/-- **A header that is verified**: two segments, and the second is the HMAC of
the first under the secret or the previous one. -/
def Verified (environ : Environ) (raw : PyStr) : Prop :=
  ∃ payload sig, raw.splitOn dot = [payload, sig]
    ∧ ∃ secret ∈ hmacSecretText environ :: (previousSecretText environ).toList,
        ∃ key msg, encode secret = .ok key ∧ encode payload = .ok msg
          ∧ sig = (hexdigest (hmac key msg)).map CodePoint.ofChar

/-- **What is not verified is rejected with a `ValueError`.** -/
def RejectsUnverified (environ : Environ) (raw : PyStr) : Prop :=
  ¬ Verified hmac environ raw → ∃ msg, fromHeader hmac decode environ raw = .error (.valueError msg)

/-- **A signature that is compared and cannot be**: there are two segments,
the payload and the secret have an encoding, and the signature is not in
ASCII. -/
def ComparesNonAscii (environ : Environ) (raw : PyStr) : Prop :=
  ∃ payload sig, raw.splitOn dot = [payload, sig] ∧ isAscii sig = false
    ∧ isEncodable payload = true ∧ isEncodable (hmacSecretText environ) = true

variable {hmac decode}

/-! ## When a `ValueError` is raised -/

/-- A string is encoded, or a `ValueError` is raised. -/
theorem encode_cases (s : PyStr) :
    isEncodable s = true ∧ (∃ bytes, encode s = .ok bytes)
      ∨ isEncodable s = false ∧ ∃ msg, encode s = .error (.valueError msg) := by
  unfold encode
  cases isEncodable s with
  | true => exact Or.inl ⟨rfl, _, rfl⟩
  | false => exact Or.inr ⟨rfl, _, rfl⟩

/-- A hexadecimal text is in ASCII, so `compare_digest` accepts it. -/
theorem isAscii_hexdigest (bytes : List UInt8) :
    isAscii ((hexdigest bytes).map CodePoint.ofChar) = true := by
  unfold isAscii
  rw [List.all_map]
  exact List.all_eq_true.mpr fun c hc => decide_eq_true (hexdigest_plain bytes c hc).1

/-- **A try with a signature in ASCII** accepts the expected one, and goes on
with any other. -/
theorem tryExpected_of_isAscii {payload sig : PyStr} (hsig : isAscii sig = true)
    (bytes : List UInt8) (otherwise : Except PyExc PyStr) :
    tryExpected (.ok ((hexdigest bytes).map CodePoint.ofChar)) payload sig otherwise
      = if sig = (hexdigest bytes).map CodePoint.ofChar then .ok payload else otherwise := by
  simp only [tryExpected, compareDigest, hsig, isAscii_hexdigest, Bool.and_self, if_true]
  split
  · next h => rw [if_pos (beq_iff_eq.mp (Except.ok.inj h))]
  · next h => rw [if_neg (beq_eq_false_iff_ne.mp (Except.ok.inj h))]
  · next h => cases h

/-- **A try with any other signature raises a `TypeError`.** -/
theorem tryExpected_of_not_isAscii {sig : PyStr} (hsig : isAscii sig = false)
    (expected payload : PyStr) :
    ∃ msg, ∀ otherwise, tryExpected (.ok expected) payload sig otherwise
      = .error (.typeError msg) := by
  simp only [tryExpected, compareDigest, hsig, Bool.false_and, Bool.false_eq_true, if_false]
  exact ⟨_, fun _ => rfl⟩

/-- The signature of a verified header is in ASCII. -/
theorem not_verified_of_not_isAscii {environ : Environ} {raw payload sig : PyStr}
    (hsplit : raw.splitOn dot = [payload, sig]) (hsig : isAscii sig = false) :
    ¬ Verified hmac environ raw := by
  rintro ⟨payload', sig', hsplit', -, -, key, msg, -, -, hsig'⟩
  rw [hsplit] at hsplit'
  obtain ⟨rfl, hrest⟩ := List.cons.inj hsplit'
  rw [(List.cons.inj hrest).1, hsig', isAscii_hexdigest] at hsig
  cases hsig

/-- **What is not verified and is compared with success is a mismatch.** -/
theorem verifyAndSplit_of_not_verified {environ : Environ} {raw : PyStr}
    (hraw : ¬ Verified hmac environ raw) (hcompare : ¬ ComparesNonAscii environ raw) :
    ∃ msg, verifyAndSplit hmac environ raw = .error (.valueError msg) := by
  unfold verifyAndSplit
  split
  · next payload sig hsplit =>
    have hne : ∀ secret ∈ hmacSecretText environ :: (previousSecretText environ).toList,
        ∀ key msg, encode secret = .ok key → encode payload = .ok msg →
          sig ≠ (hexdigest (hmac key msg)).map CodePoint.ofChar :=
      fun secret hsecret key msg hkey hmsg h =>
        hraw ⟨payload, sig, hsplit, secret, hsecret, key, msg, hkey, hmsg, h⟩
    rcases encode_cases (hmacSecretText environ) with ⟨hsecret, key, hkey⟩ | ⟨-, msg, hkey⟩
    · rcases encode_cases payload with ⟨hpayload, bytes, hbytes⟩ | ⟨-, msg, hbytes⟩
      · have hsig : isAscii sig = true := by
          by_contra h
          exact hcompare ⟨payload, sig, hsplit, Bool.not_eq_true _ ▸ h, hpayload, hsecret⟩
        have hsign : sign hmac environ payload
            = .ok ((hexdigest (hmac key bytes)).map CodePoint.ofChar) := by
          simp only [sign, getHmacSecret, hkey, hexHmac, hbytes]
        rw [hsign, tryExpected_of_isAscii hsig,
          if_neg (hne _ List.mem_cons_self key bytes hkey hbytes)]
        -- the current secret refuses it, and so does the previous one
        cases hprev : previousSecretText environ with
        | none =>
          simp only [getPreviousHmacSecret, hprev]
          exact ⟨_, rfl⟩
        | some prev =>
          rcases encode_cases prev with ⟨-, old, hold⟩ | ⟨-, msg, hold⟩
          · have hrefused := hne prev (by rw [hprev]; simp) old bytes hold hbytes
            simp only [getPreviousHmacSecret, hprev, hold, Except.map, hexHmac, hbytes]
            rw [tryExpected_of_isAscii hsig, if_neg hrefused]
            exact ⟨_, rfl⟩
          · simp only [getPreviousHmacSecret, hprev, hold, Except.map]
            exact ⟨msg, rfl⟩
      · simp only [sign, getHmacSecret, hkey, hexHmac, hbytes, tryExpected]
        exact ⟨msg, rfl⟩
    · simp only [sign, getHmacSecret, hkey, tryExpected]
      exact ⟨msg, rfl⟩
  · exact ⟨_, rfl⟩

/-- **A comparison outside ASCII raises a `TypeError`**, which callers that
catch `ValueError` let through. -/
theorem fromHeader_of_comparesNonAscii (hmac : List UInt8 → List UInt8 → List UInt8)
    (decode : PyStr → Except PyExc Json) {environ : Environ} {raw : PyStr}
    (h : ComparesNonAscii environ raw) :
    ¬ Verified hmac environ raw
      ∧ ∃ msg, fromHeader hmac decode environ raw = .error (.typeError msg) := by
  obtain ⟨payload, sig, hsplit, hsig, hpayload, hsecret⟩ := h
  refine ⟨not_verified_of_not_isAscii hsplit hsig, ?_⟩
  have hkey : encode (hmacSecretText environ) = .ok _ := if_pos hsecret
  have hbytes : encode payload = .ok _ := if_pos hpayload
  have hsign : ∃ expected, sign hmac environ payload = .ok expected := by
    simp only [sign, getHmacSecret, hkey, hexHmac, hbytes]
    exact ⟨_, rfl⟩
  obtain ⟨expected, hsign⟩ := hsign
  obtain ⟨msg, hraise⟩ := tryExpected_of_not_isAscii hsig expected payload
  simp only [fromHeader, verifyAndSplit, hsplit, hsign, hraise]
  exact ⟨msg, rfl⟩

/-- **Where `from_header` keeps its promise**: on every header but those whose
signature is compared and is not in ASCII. On these `hmac.compare_digest` raises
`TypeError`, which is not the `ValueError` that callers are told to catch. -/
theorem rejectsUnverified_iff (hmac : List UInt8 → List UInt8 → List UInt8)
    (decode : PyStr → Except PyExc Json) (environ : Environ) (raw : PyStr) :
    RejectsUnverified hmac decode environ raw ↔ ¬ ComparesNonAscii environ raw := by
  constructor
  · intro h hcompare
    obtain ⟨hraw, msg, hraise⟩ := fromHeader_of_comparesNonAscii hmac decode hcompare
    obtain ⟨msg', hvalue⟩ := h hraw
    rw [hraise] at hvalue
    cases hvalue
  · intro hcompare hraw
    obtain ⟨msg, hraise⟩ := verifyAndSplit_of_not_verified hraw hcompare
    rw [fromHeader, hraise]
    exact ⟨msg, rfl⟩

/-- **A signature outside ASCII raises a `TypeError`.** -/
theorem not_rejectsUnverified :
    ¬ RejectsUnverified keyedDigest (fun _ => .error .jsonDecodeError) (fun _ => none)
      (ofString "e30=.é") := by
  intro h
  have hraise : fromHeader keyedDigest (fun _ => .error .jsonDecodeError) (fun _ => none)
      (ofString "e30=.é")
        = .error (.typeError "comparing strings with non-ASCII characters is not supported") := by
    decide
  have hraw : ¬ Verified keyedDigest (fun _ => none) (ofString "e30=.é") :=
    not_verified_of_not_isAscii
      (show (ofString "e30=.é").splitOn dot = [ofString "e30=", ofString "é"] by decide)
      (by decide)
  obtain ⟨msg, hvalue⟩ := h hraw
  rw [hraise] at hvalue
  cases hvalue

end Header

/-! ## Strings of characters -/

theorem ofString_injective : Function.Injective ofString := fun _ _ h =>
  String.toList_inj.mp (List.map_injective_iff.mpr CodePoint.ofChar_injective h)

/-- A string of characters is encoded as ever, so that both models agree on
those. -/
theorem encode_ofString (s : String) : encode (ofString s) = .ok (encodeUtf8 s) := by
  have hencodable : isEncodable (ofString s) = true := by
    unfold isEncodable ofString
    rw [List.all_map]
    exact List.all_eq_true.mpr fun c _ => congrArg Bool.not (CodePoint.isSurrogate_ofChar c)
  have hchars : (ofString s).map CodePoint.toChar = s.toList := by
    rw [ofString, List.map_map]
    exact List.map_id'' CodePoint.toChar_ofChar _
  rw [encode, if_pos hencodable, hchars, String.ofList_toList]

/-- A text splits where its characters do, no surrogate being a dot. -/
theorem splitOn_ofString (s : String) :
    (ofString s).splitOn dot = (pySplit s '.').map ofString := by
  have hsplit : ∀ cs : List Char,
      (cs.map CodePoint.ofChar).splitOn dot = (cs.splitOn '.').map (List.map CodePoint.ofChar) := by
    intro cs
    induction cs with
    | nil => rfl
    | cons c cs ih =>
      rw [List.map_cons, List.splitOn_cons_eq_if_modifyHead, List.splitOn_cons_eq_if_modifyHead, ih]
      by_cases hc : c = '.'
      · subst hc
        rfl
      · have hc' : CodePoint.ofChar c ≠ dot := fun h => hc (CodePoint.ofChar_injective h)
        rw [if_neg (by simpa using hc'), if_neg (by simpa using hc)]
        cases cs.splitOn '.' <;> rfl
  rw [pySplit, List.map_map]
  refine (hsplit s.toList).trans (List.map_congr_left fun l _ => ?_)
  exact congrArg _ (String.toList_ofList).symm

end PyStr

/-- The environment with its strings as they are, read as texts with code
points. -/
def Environ.toPy (environ : Environ) : PyStr.Environ := fun name =>
  (environ name).map PyStr.ofString

section Header

variable (hmac : List UInt8 → List UInt8 → List UInt8) (environ : Environ)

theorem isAscii_ofString (s : String) : PyStr.isAscii (PyStr.ofString s) = isAscii s := by
  unfold PyStr.isAscii PyStr.ofString
  rw [List.all_map]
  rfl

theorem compareDigest_ofString (a b : String) :
    PyStr.compareDigest (PyStr.ofString a) (PyStr.ofString b) = compareDigest a b := by
  have hbeq : (PyStr.ofString a == PyStr.ofString b) = (a == b) := by
    by_cases h : a = b
    · subst h
      simp
    · have h' : PyStr.ofString a ≠ PyStr.ofString b := fun heq => h (PyStr.ofString_injective heq)
      rw [beq_false_of_ne h, beq_false_of_ne h']
  rw [PyStr.compareDigest, isAscii_ofString, isAscii_ofString, hbeq]
  rfl

theorem hmacSecretText_toPy :
    PyStr.hmacSecretText environ.toPy = PyStr.ofString (hmacSecretText environ) := by
  unfold PyStr.hmacSecretText PyStr.getJwtSecret hmacSecretText getJwtSecret Environ.toPy
  cases environ "CONTEXT_HMAC_SECRET" <;> cases environ "JWT_SECRET" <;> rfl

theorem getPreviousHmacSecret_toPy :
    PyStr.getPreviousHmacSecret environ.toPy = .ok (getPreviousHmacSecret environ) := by
  unfold PyStr.getPreviousHmacSecret PyStr.previousSecretText getPreviousHmacSecret Environ.toPy
  cases environ "CONTEXT_HMAC_SECRET_PREVIOUS" with
  | none => rfl
  | some prev =>
    have hencode : PyStr.encode (PyStr.ofString prev) = .ok (encodeUtf8 prev) :=
      PyStr.encode_ofString prev
    simp only [Option.map_some, Option.getD_some]
    by_cases h : prev = ""
    · subst h
      rfl
    · rw [if_pos h]
      cases hp : PyStr.ofString prev with
      | nil => exact absurd (String.toList_eq_nil_iff.mp (List.map_eq_nil_iff.mp hp)) h
      | cons p ps =>
        rw [hp] at hencode
        show (PyStr.encode (p :: ps)).map some = _
        rw [hencode]
        rfl

/-- **A try is the one on strings**, where the header is a string of characters.
-/
theorem tryExpected_ofString (key : List UInt8) (payload sig : String)
    (otherwise : Except PyExc String) :
    PyStr.tryExpected (PyStr.hexHmac hmac key (PyStr.ofString payload)) (PyStr.ofString payload)
        (PyStr.ofString sig) (otherwise.map PyStr.ofString)
      = (tryKey hmac key payload sig otherwise).map PyStr.ofString := by
  have hsignature : PyStr.hexHmac hmac key (PyStr.ofString payload)
      = .ok (PyStr.ofString (signature hmac key payload)) := by
    rw [PyStr.hexHmac, PyStr.encode_ofString, signature, PyStr.ofString, String.toList_ofList]
  rw [hsignature]
  unfold PyStr.tryExpected tryKey
  simp only [compareDigest_ofString]
  cases compareDigest sig (signature hmac key payload) with
  | error exc => rfl
  | ok same => cases same <;> rfl

/-- **A header is verified as ever**, on strings of characters. -/
theorem verifyAndSplit_ofString (raw : String) :
    PyStr.verifyAndSplit hmac environ.toPy (PyStr.ofString raw)
      = (verifyAndSplit hmac environ raw).map PyStr.ofString := by
  have hsign : ∀ payload, PyStr.sign hmac environ.toPy payload
      = PyStr.hexHmac hmac (getHmacSecret environ) payload := by
    intro payload
    rw [PyStr.sign, PyStr.getHmacSecret, hmacSecretText_toPy, PyStr.encode_ofString]
    rfl
  unfold PyStr.verifyAndSplit verifyAndSplit
  rw [PyStr.splitOn_ofString]
  rcases pySplit raw '.' with _ | ⟨payload, _ | ⟨sig, _ | ⟨third, rest⟩⟩⟩
  · rfl
  · rfl
  · simp only [List.map_cons, List.map_nil, hsign, getPreviousHmacSecret_toPy]
    rw [← tryExpected_ofString]
    congr 1
    cases getPreviousHmacSecret environ with
    | none => rfl
    | some prev => exact tryExpected_ofString hmac prev payload sig (.error _)
  · rfl

/-- **`from_header` is the one of the signed contexts**, on strings of
characters. -/
theorem fromHeader_ofString (decode : PyStr → Except PyExc Json) (raw : String) :
    PyStr.fromHeader hmac decode environ.toPy (PyStr.ofString raw)
      = AgentContext.fromHeader hmac (fun payload => decode (PyStr.ofString payload)) environ
          raw := by
  rw [PyStr.fromHeader, verifyAndSplit_ofString, AgentContext.fromHeader]
  cases verifyAndSplit hmac environ raw with
  | error exc => rfl
  | ok payload =>
    show _ = (decode (PyStr.ofString payload) >>= AgentContext.ofData)
    simp only [Except.map]
    cases decode (PyStr.ofString payload) <;> rfl

end Header
