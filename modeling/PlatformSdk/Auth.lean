import PlatformSdk.Python

/-!
# Signed agent contexts

The identity of a caller travels as an `AgentContext`, in a header
`<payload>.<sig>`: the base64 of its JSON, and the hexadecimal HMAC-SHA256 of
that text. A receiver accepts a signature under the current secret or, while
a rotation is under way, under the previous one.

Two things come from outside and are parameters. `hmac key msg` is the digest
of a message. `decode` is `json.loads(base64.b64decode(payload))`; of it the
code relies on no more than that it undoes the encoder, `DecodesContexts`,
and `decodeEncoded` shows that something does.

`verifyAndSplit_eq_ok_iff` says which headers are accepted, with no reference
to how the code looks for them. Round trips and forgeries both follow from
it.

A constructor does not check the types its annotations promise, and a payload
can hold any JSON. So a context has its fields in a type `α`: `String` where
the annotations are kept, `Json` for what a header decodes to.
-/

/-! ## Secrets -/

/-- `_DEFAULT_DEV_SECRET`, which every copy of the repository knows. -/
def defaultDevSecret : String := "dev-secret-change-in-prod"

/-- `_get_jwt_secret`, which falls back to the default of development. -/
def getJwtSecret (environ : Environ) : String :=
  (environ "JWT_SECRET").getD defaultDevSecret

/-- The text of the HMAC secret: the one of its own, or else the one of the
tokens. -/
def hmacSecretText (environ : Environ) : String :=
  (environ "CONTEXT_HMAC_SECRET").getD (getJwtSecret environ)

/-- `_get_hmac_secret`, the bytes of that text, with which a context is signed
and checked. -/
def getHmacSecret (environ : Environ) : List UInt8 := encodeUtf8 (hmacSecretText environ)

/-- `_get_previous_hmac_secret`, accepted beside the current one where it is
set. -/
def getPreviousHmacSecret (environ : Environ) : Option (List UInt8) :=
  let prev := (environ "CONTEXT_HMAC_SECRET_PREVIOUS").getD ""
  if prev ≠ "" then some (encodeUtf8 prev) else none

/-- **`assert_secrets_configured`**: outside `dev` the default is refused, of
`JWT_SECRET` only. -/
def assertSecretsConfigured (environment : Option String) (environ : Environ) :
    Except PyExc Unit :=
  let env := match environment with
    | none | some "" => (environ "ENVIRONMENT").getD "prod"
    | some e => e
  if env ≠ "dev" ∧ getJwtSecret environ = defaultDevSecret then
    .error (.runtimeError ("JWT_SECRET has not been rotated from the default value in the '"
      ++ env ++ "' environment.  Set JWT_SECRET to a strong random secret.  "
      ++ "If running locally, set ENVIRONMENT=dev to suppress this check."))
  else .ok ()

/-! ## The context -/

/-- **An agent context**, its fields in `α`: texts where the code builds one,
and any JSON where it reads one. -/
structure AgentContext (α : Type) where
  rmId : α
  rmName : α
  role : α
  teamId : α
  assignedAccountIds : List α
  complianceClearance : List α
  userEmail : α
  userRole : α
  deriving DecidableEq

namespace AgentContext

/-- `_VALID_USER_ROLES`, of which the empty one stands for no role. -/
def validUserRoles : List String := ["admin", "analyst", "viewer", ""]

/-- A context of strings, as a context of JSON values. -/
def toJson (c : AgentContext String) : AgentContext Json where
  rmId := Json.str c.rmId
  rmName := Json.str c.rmName
  role := Json.str c.role
  teamId := Json.str c.teamId
  assignedAccountIds := c.assignedAccountIds.map Json.str
  complianceClearance := c.complianceClearance.map Json.str
  userEmail := Json.str c.userEmail
  userRole := Json.str c.userRole

/-- **`__post_init__`**: an empty clearance becomes the standard one, an
unknown role none. Looking a list or a mapping up in a set raises. -/
def postInit (c : AgentContext Json) : Except PyExc (AgentContext Json) :=
  let c := if c.complianceClearance = [] then
    { c with complianceClearance := [Json.str "standard"] } else c
  if Json.truthy c.userRole then
    match c.userRole with
    | .list _ => .error (.typeError "unhashable type: 'list'")
    | .map _ => .error (.typeError "unhashable type: 'dict'")
    | role =>
      if role ∈ validUserRoles.map Json.str then .ok c
      else .ok { c with userRole := Json.str "" }
  else .ok c

/-- The constructor on strings: an empty clearance becomes the standard one, and
a user role that is none of the known ones becomes empty. -/
def new (c : AgentContext String) : AgentContext String :=
  { c with
    complianceClearance :=
      if c.complianceClearance = [] then ["standard"] else c.complianceClearance
    userRole := if c.userRole ∈ validUserRoles then c.userRole else "" }

/-- **The constructor keeps what it is given in order**: on strings,
`__post_init__` is `new`. -/
theorem postInit_toJson (c : AgentContext String) : postInit c.toJson = .ok (new c).toJson := by
  have hmem : Json.str c.userRole ∈ validUserRoles.map Json.str ↔ c.userRole ∈ validUserRoles := by
    simp [validUserRoles]
  have hclearance : (c.complianceClearance.map Json.str = []) ↔ c.complianceClearance = [] :=
    List.map_eq_nil_iff
  have hempty : "" ∈ validUserRoles := by decide
  by_cases hrole : c.userRole = ""
  · by_cases hc : c.complianceClearance = [] <;>
      simp [postInit, toJson, new, Json.truthy, hrole, hempty, hc]
  · by_cases hv : c.userRole ∈ validUserRoles <;> by_cases hc : c.complianceClearance = [] <;>
      simp [postInit, toJson, new, Json.truthy, hrole, hmem, hv, hc]

/-- A constructed context is one the constructor leaves alone. -/
theorem new_new (c : AgentContext String) : new (new c) = new c := by
  have hempty : "" ∈ validUserRoles := by decide
  by_cases hv : c.userRole ∈ validUserRoles <;> by_cases hc : c.complianceClearance = [] <;>
    simp [new, hv, hc, hempty]

/-- `to_dict`: every field under its own name, in the order of the class. -/
def toDict (c : AgentContext Json) : Dict String Json :=
  [("rm_id", c.rmId), ("rm_name", c.rmName), ("role", c.role), ("team_id", c.teamId),
    ("assigned_account_ids", .list c.assignedAccountIds),
    ("compliance_clearance", .list c.complianceClearance),
    ("user_email", c.userEmail), ("user_role", c.userRole)]

/-- `anonymous`: the context of least privilege, for callers without a valid
header. -/
def anonymous : AgentContext String :=
  new
    { rmId := "anonymous", rmName := "Unauthenticated", role := "readonly", teamId := ""
      assignedAccountIds := [], complianceClearance := ["standard"]
      userEmail := "", userRole := "" }

end AgentContext

/-! ## The header -/

/-- `base64.b64encode(json.dumps(v).encode()).decode()`, the part of a header
before its dot. -/
def encodePayload (v : Json) : String := String.ofList (b64encode (encodeUtf8 (Json.dumps v)))

/-- **The payload tells values apart.** Its JSON is read back, and so is the
Base64 it is written in; two values with one payload are one value. -/
theorem encodePayload_injective : Function.Injective encodePayload := by
  intro v w h
  exact Json.dumps_injective
    (encodeUtf8_injective (b64encode_injective (String.ofList_injective h)))

/-- A payload has no dot in it, so the first dot of a header ends it. -/
theorem encodePayload_no_dot (v : Json) : '.' ∉ (encodePayload v).toList := by
  rw [encodePayload, String.toList_ofList]
  exact fun h => (b64encode_plain _ _ h).2 rfl

section Header

variable (hmac : List UInt8 → List UInt8 → List UInt8) (decode : String → Except PyExc Json)

/-- The hexadecimal digest of a payload under a key. -/
def signature (key : List UInt8) (payload : String) : String :=
  String.ofList (hexdigest (hmac key (encodeUtf8 payload)))

/-- A payload and its signature, with a dot between the two. -/
def signed (key : List UInt8) (payload : String) : String :=
  payload ++ "." ++ signature hmac key payload

/-- The keys a receiver accepts: the current secret, and the previous one if
it is configured. -/
def acceptedKeys (environ : Environ) : List (List UInt8) :=
  getHmacSecret environ :: (getPreviousHmacSecret environ).toList

/-- One `compare_digest` of `_verify_and_split`: the payload if the signature
is the key's, and whatever follows if it is not. -/
def tryKey (key : List UInt8) (payload sig : String) (otherwise : Except PyExc String) :
    Except PyExc String :=
  match compareDigest sig (signature hmac key payload) with
  | .ok true => .ok payload
  | .ok false => otherwise
  | .error exc => .error exc

/-- **`_verify_and_split`**: the payload of a header that is signed. -/
def verifyAndSplit (environ : Environ) (raw : String) : Except PyExc String :=
  match pySplit raw '.' with
  | [payload, sig] =>
    let mismatch := .error
      (.valueError "X-Agent-Context: HMAC signature mismatch — possible forgery attempt")
    tryKey hmac (getHmacSecret environ) payload sig
      (match getPreviousHmacSecret environ with
        | some prev => tryKey hmac prev payload sig mismatch
        | none => mismatch)
  | _ =>
    .error (.valueError "X-Agent-Context: expected <payload>.<sig>, got wrong segment count")

/-- `tuple(x)`, which takes a list, a text by its characters or an object by its
keys. -/
def tuple : Json → Except PyExc (List Json)
  | .list xs => .ok xs
  | .map d => .ok (d.map (fun e => Json.str e.1))
  | .leaf (.str s) => .ok (s.toList.map (fun c => Json.str (String.singleton c)))
  | _ => .error (.typeError "object is not iterable")

namespace AgentContext

/-- `data.get(key, default)`, where a field of another type passes through as it
is. -/
def get (d : Dict String Json) (key : String) (default : Json) : Json :=
  (d.get? key).getD default

/-- The context a decoded payload stands for, which only an object does. -/
def ofData : Json → Except PyExc (AgentContext Json)
  | .map d => do
    let assigned ← tuple (get d "assigned_account_ids" (.list []))
    let clearance ← tuple (get d "compliance_clearance" (.list [Json.str "standard"]))
    postInit
      { rmId := get d "rm_id" (Json.str "unknown")
        rmName := get d "rm_name" (Json.str "")
        role := get d "role" (Json.str "readonly")
        teamId := get d "team_id" (Json.str "")
        assignedAccountIds := assigned
        complianceClearance := clearance
        userEmail := get d "user_email" (Json.str "")
        userRole := get d "user_role" (Json.str "") }
  | _ => .error (.attributeError "object has no attribute 'get'")

/-- The payload of a context: the Base64 of the JSON of its fields. -/
def payload (c : AgentContext Json) : String := encodePayload (.map c.toDict)

/-- **`to_header_value`**: the payload, signed under the secret of this
environment. -/
def toHeaderValue (environ : Environ) (c : AgentContext Json) : String :=
  signed hmac (getHmacSecret environ) c.payload

/-- **`from_header`**: verify, then decode. What it decodes is taken for the
fields of a context as it is. -/
def fromHeader (environ : Environ) (raw : String) : Except PyExc (AgentContext Json) := do
  let payload ← verifyAndSplit hmac environ raw
  ofData (← decode payload)

end AgentContext

/-- What the code relies on of the decoder: it undoes the encoder on the
payloads of contexts. -/
def DecodesContexts : Prop :=
  ∀ c : AgentContext String, decode c.toJson.payload = .ok (.map c.toJson.toDict)

/-! ## Which headers are accepted -/

variable {hmac decode}

/-- A signature is in ASCII and has no dot in it. -/
theorem signature_plain (key : List UInt8) (payload : String) :
    isAscii (signature hmac key payload) = true
      ∧ '.' ∉ (signature hmac key payload).toList := by
  have h := hexdigest_plain (hmac key (encodeUtf8 payload))
  unfold isAscii signature
  rw [String.toList_ofList]
  exact ⟨List.all_eq_true.mpr fun c hc => decide_eq_true (h c hc).1, fun hc => (h _ hc).2 rfl⟩

/-- Comparing with a signature accepts the signature, and no other text. -/
theorem compareDigest_signature {sig : String} {key : List UInt8} {payload : String} :
    compareDigest sig (signature hmac key payload) = .ok true
      ↔ sig = signature hmac key payload := by
  unfold compareDigest
  split
  · simp
  · next h =>
    refine iff_of_false (by simp) ?_
    rintro rfl
    simp [(signature_plain key payload).1] at h

/-- A try succeeds on the key's own signature, or hands over. -/
theorem tryKey_eq_ok_iff {key : List UInt8} {payload sig p : String}
    {otherwise : Except PyExc String} :
    tryKey hmac key payload sig otherwise = .ok p
      ↔ sig = signature hmac key payload ∧ payload = p
        ∨ compareDigest sig (signature hmac key payload) = .ok false ∧ otherwise = .ok p := by
  have h : compareDigest sig (signature hmac key payload) = .ok true
      ↔ sig = signature hmac key payload := compareDigest_signature
  unfold tryKey
  cases hc : compareDigest sig (signature hmac key payload) with
  | error exc =>
    rw [hc] at h
    simp [← h]
  | ok b =>
    rw [hc] at h
    cases b <;> simp [← h]

/-- The characters of a signed payload: those of the payload, a dot, and those
of the signature in hexadecimal. -/
theorem toList_signed (key : List UInt8) (payload : String) :
    (signed hmac key payload).toList
      = payload.toList ++ '.' :: (signature hmac key payload).toList := by
  unfold signed
  rw [String.toList_append, String.toList_append, List.append_assoc]
  rfl

/-- A text splits into a payload and a signature when it is the two with a
dot between. -/
theorem pySplit_signed_iff {raw payload : String} {key : List UInt8} :
    pySplit raw '.' = [payload, signature hmac key payload]
      ↔ '.' ∉ payload.toList ∧ raw = signed hmac key payload := by
  rw [pySplit_eq_pair_iff, ← toList_signed, String.toList_inj]
  exact ⟨fun h => ⟨h.2.1, h.1⟩, fun h => ⟨h.2, h.1, (signature_plain key payload).2⟩⟩

/-- **Which headers are accepted**: a payload without a dot, signed under an
accepted key. -/
theorem verifyAndSplit_eq_ok_iff {environ : Environ} {raw payload : String} :
    verifyAndSplit hmac environ raw = .ok payload
      ↔ '.' ∉ payload.toList ∧ ∃ key ∈ acceptedKeys environ, raw = signed hmac key payload := by
  constructor
  · intro h
    unfold verifyAndSplit at h
    split at h
    · next p sig hsplit =>
      rcases tryKey_eq_ok_iff.mp h with ⟨rfl, rfl⟩ | ⟨-, h⟩
      · obtain ⟨hdot, hraw⟩ := pySplit_signed_iff.mp hsplit
        exact ⟨hdot, _, List.mem_cons_self, hraw⟩
      · cases hprev : getPreviousHmacSecret environ with
        | none => simp [hprev] at h
        | some prev =>
          rw [hprev] at h
          rcases tryKey_eq_ok_iff.mp h with ⟨rfl, rfl⟩ | ⟨-, h⟩
          · obtain ⟨hdot, hraw⟩ := pySplit_signed_iff.mp hsplit
            refine ⟨hdot, prev, ?_, hraw⟩
            rw [acceptedKeys, hprev]
            simp
          · cases h
    · cases h
  · rintro ⟨hdot, key, hkey, hraw⟩
    -- the current key is tried first; what it refuses the previous one is tried on
    have hsplit := pySplit_signed_iff.mpr ⟨hdot, hraw⟩
    unfold verifyAndSplit
    rw [hsplit]
    by_cases hcur : signature hmac key payload
        = signature hmac (getHmacSecret environ) payload
    · exact tryKey_eq_ok_iff.mpr (.inl ⟨hcur, rfl⟩)
    · have hne : key ≠ getHmacSecret environ := fun h => hcur (h ▸ rfl)
      have hprev : getPreviousHmacSecret environ = some key := by
        simpa [acceptedKeys, hne] using hkey
      refine tryKey_eq_ok_iff.mpr (.inr ⟨?_, ?_⟩)
      · simp [compareDigest, signature_plain, hcur]
      · rw [hprev]
        exact tryKey_eq_ok_iff.mpr (.inl ⟨rfl, rfl⟩)

namespace AgentContext

/-- **The data of a constructed context stands for it.** -/
theorem ofData_toDict (c : AgentContext String) :
    ofData (.map (new c).toJson.toDict) = .ok (new c).toJson := by
  have h := postInit_toJson (new c)
  rw [new_new] at h
  rw [← h]
  rfl

/-- **A header is read back**: what a constructed context is signed as, under
an accepted key, decodes to that context. -/
theorem fromHeader_signed (hdecode : DecodesContexts decode) {environ : Environ}
    {key : List UInt8} (hkey : key ∈ acceptedKeys environ) (c : AgentContext String) :
    fromHeader hmac decode environ (signed hmac key (new c).toJson.payload)
      = .ok (new c).toJson := by
  have hverify : verifyAndSplit hmac environ (signed hmac key (new c).toJson.payload)
      = .ok (new c).toJson.payload :=
    verifyAndSplit_eq_ok_iff.mpr ⟨encodePayload_no_dot _, key, hkey, rfl⟩
  unfold fromHeader
  rw [hverify]
  show (decode (new c).toJson.payload >>= ofData) = _
  rw [hdecode]
  exact ofData_toDict c

end AgentContext

end Header

open Classical in
/-- A decoder that undoes the encoder on every payload there is. -/
noncomputable def decodeEncoded (payload : String) : Except PyExc Json :=
  if h : ∃ v, encodePayload v = payload then .ok h.choose else .error .jsonDecodeError

/-- A decoder that is defined as the inverse of the encoder does decode
contexts, so the hypothesis can be met. -/
theorem decodesContexts_decodeEncoded : DecodesContexts decodeEncoded := by
  intro c
  have h : ∃ v, encodePayload v = c.toJson.payload := ⟨_, rfl⟩
  unfold decodeEncoded
  rw [dif_pos h]
  exact congrArg Except.ok (encodePayload_injective h.choose_spec)

/-- A digest that is the key followed by the message. -/
def keyedDigest (key msg : List UInt8) : List UInt8 := key ++ msg

/-- Two keys never collide on a digest that writes the key into its result, so
the hypothesis on keys can be met. -/
theorem keyedDigest_separates (k₁ k₂ msg : List UInt8)
    (h : keyedDigest k₁ msg = keyedDigest k₂ msg) : k₁ = k₂ :=
  List.append_cancel_right h
