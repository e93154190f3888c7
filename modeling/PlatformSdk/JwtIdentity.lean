import PlatformSdk.McpAuth
import PlatformSdk.Rotation

/-!
# An identity on its way from a token to a tool

A user's identity comes as a JWT. The orchestrator verifies it and makes it an
agent context (`from_jwt`), signs the context into a header for every tool call
(`to_header_value`), and the MCP server verifies that (`verify_auth_context`).
Two secrets are in use, one for each hop, and both are rotated: `from_jwt`
accepts a token under `JWT_SECRET` or `JWT_SECRET_PREVIOUS`, the server a header
under the current and the previous context secret.

PyJWT is a parameter, `Jwt`. What the code relies on is that a token decodes
under the secret it was encoded with to the claims it was made from, and under
any other raises `InvalidSignatureError` (`Jwt.Faithful`).

`identity_arrives` follows an identity over both hops, whatever the services'
generations of the secrets are and whichever of the optional claims a token has:
it arrives unchanged if on each hop the receiver is of the sender's generation
or the next; a token out of its window is refused, and a header out of its
window makes the caller anonymous.
-/

/-! ## `from_jwt` -/

/-- **What `jwt.decode` raises**: `InvalidSignatureError`, or another of its
exceptions. -/
inductive JwtError where
  | invalidSignature
  | other (className : String)
  deriving DecidableEq

/-- **PyJWT**, with the algorithm HS256: what it makes of a payload and a
secret, and of a token. -/
structure Jwt where
  encode : Dict String Json → String → String
  decode : String → String → Except JwtError (Dict String Json)

/-- How `from_jwt` fails: as PyJWT does, on a claim that is not there, or as the
constructor does on the claims. -/
inductive FromJwtError where
  | jwt (e : JwtError)
  | keyError (key : String)
  | raised (exc : PyExc)
  deriving DecidableEq

/-- `_get_previous_jwt_secret`. -/
def getPreviousJwtSecret (environ : Environ) : Option String :=
  match environ "JWT_SECRET_PREVIOUS" with
  | none | some "" => none
  | some prev => some prev

/-- The secrets a token is accepted under. -/
def acceptedJwtSecrets (environ : Environ) : List String :=
  getJwtSecret environ :: (getPreviousJwtSecret environ).toList

/-- The payload of a token, under the current secret or, where the signature is
wrong, under the previous one. -/
def decodeToken (jwt : Jwt) (environ : Environ) (token : String) :
    Except JwtError (Dict String Json) :=
  match jwt.decode token (getJwtSecret environ) with
  | .error .invalidSignature =>
    match getPreviousJwtSecret environ with
    | some prev => jwt.decode token prev
    | none => .error .invalidSignature
  | result => result

namespace AgentContext

/-- The context the claims of a token stand for. -/
def ofClaims (payload : Dict String Json) : Except FromJwtError (AgentContext Json) :=
  match payload.get? "sub" with
  | none => .error (.keyError "sub")
  | some sub =>
    Except.mapError .raised do
      let assigned ← tuple (get payload "assigned_account_ids" (.list []))
      let clearance ← tuple (get payload "compliance_clearance" (.list [Json.str "standard"]))
      postInit
        { rmId := sub
          rmName := get payload "name" (Json.str "")
          role := get payload "role" (Json.str "rm")
          teamId := get payload "team_id" (Json.str "")
          assignedAccountIds := assigned
          complianceClearance := clearance
          userEmail := get payload "user_email" (Json.str "")
          userRole := get payload "user_role" (Json.str "") }

/-- **`from_jwt`**: the current secret is tried first, and the previous one
where there is one. -/
def fromJwt (jwt : Jwt) (environ : Environ) (token : String) :
    Except FromJwtError (AgentContext Json) :=
  match decodeToken jwt environ token with
  | .error e => .error (.jwt e)
  | .ok payload => ofClaims payload

end AgentContext

/-! ## Claims -/

/-- **The claims of a user**: a subject, and whatever else the identity
provider has put in. -/
structure Claims where
  sub : String
  name : Option String := none
  role : Option String := none
  teamId : Option String := none
  assignedAccountIds : Option (List String) := none
  complianceClearance : Option (List String) := none
  userEmail : Option String := none
  userRole : Option String := none

namespace Claims

/-- A claim that may be missing. -/
def claim (key : String) (value : Option Json) : Dict String Json :=
  (value.map (fun v => (key, v))).toList

/-- A list of strings, as a claim has it. -/
def strings (xs : List String) : Json := .list (xs.map Json.str)

/-- The payload of the token: a claim that is missing is left out of it. -/
def payload (c : Claims) : Dict String Json :=
  ("sub", Json.str c.sub)
    :: (claim "name" (c.name.map Json.str) ++ (claim "role" (c.role.map Json.str)
      ++ (claim "team_id" (c.teamId.map Json.str)
      ++ (claim "assigned_account_ids" (c.assignedAccountIds.map strings)
      ++ (claim "compliance_clearance" (c.complianceClearance.map strings)
      ++ (claim "user_email" (c.userEmail.map Json.str)
      ++ claim "user_role" (c.userRole.map Json.str)))))))

/-- What the claims say, a missing one counting as the least there is, but for
the role, which is `rm`. -/
def asserted (c : Claims) : AgentContext String where
  rmId := c.sub
  rmName := c.name.getD ""
  role := c.role.getD "rm"
  teamId := c.teamId.getD ""
  assignedAccountIds := c.assignedAccountIds.getD []
  complianceClearance := c.complianceClearance.getD ["standard"]
  userEmail := c.userEmail.getD ""
  userRole := c.userRole.getD ""

/-- **Whom the claims are about**, with the defaults of the claims that are
missing. -/
def context (c : Claims) : AgentContext String := AgentContext.new c.asserted

/-- A claim is read where it is, and passed by elsewhere. -/
theorem get?_claim_append (key k : String) (value : Option Json) (d : Dict String Json) :
    Dict.get? (claim key value ++ d) k
      = if key = k then value.orElse (fun _ => d.get? k) else d.get? k := by
  cases value with
  | none => exact (ite_self _).symm
  | some v => exact Dict.get?_cons key k v d

theorem get?_claim (key k : String) (value : Option Json) :
    Dict.get? (claim key value) k = if key = k then value else none := by
  cases value with
  | none => exact (ite_self _).symm
  | some v => exact Dict.get?_cons key k v []

/-- A claim of lists, as a tuple with its default. -/
theorem tuple_getD_map_strings (o : Option (List String)) (xs : List String) :
    tuple ((o.map strings).getD (strings xs)) = .ok ((o.getD xs).map Json.str) := by
  cases o <;> rfl

/-- **The payload of a user's claims stands for the user.** -/
theorem ofClaims_payload (c : Claims) :
    AgentContext.ofClaims c.payload = .ok c.context.toJson := by
  have hassigned : AgentContext.get c.payload "assigned_account_ids" (.list [])
      = (c.assignedAccountIds.map strings).getD (strings []) := by
    simp [AgentContext.get, payload, Dict.get?_cons, get?_claim_append, get?_claim, strings]
  have hclearance : AgentContext.get c.payload "compliance_clearance"
      (.list [Json.str "standard"])
      = (c.complianceClearance.map strings).getD (strings ["standard"]) := by
    simp [AgentContext.get, payload, Dict.get?_cons, get?_claim_append, get?_claim, strings]
  have hname : AgentContext.get c.payload "name" (Json.str "") = Json.str (c.name.getD "") := by
    simp [AgentContext.get, payload, Dict.get?_cons, get?_claim_append, get?_claim]
  have hrole : AgentContext.get c.payload "role" (Json.str "rm")
      = Json.str (c.role.getD "rm") := by
    simp [AgentContext.get, payload, Dict.get?_cons, get?_claim_append, get?_claim]
  have hteam : AgentContext.get c.payload "team_id" (Json.str "")
      = Json.str (c.teamId.getD "") := by
    simp [AgentContext.get, payload, Dict.get?_cons, get?_claim_append, get?_claim]
  have hemail : AgentContext.get c.payload "user_email" (Json.str "")
      = Json.str (c.userEmail.getD "") := by
    simp [AgentContext.get, payload, Dict.get?_cons, get?_claim_append, get?_claim]
  have huser : AgentContext.get c.payload "user_role" (Json.str "")
      = Json.str (c.userRole.getD "") := by
    simp [AgentContext.get, payload, Dict.get?_cons, get?_claim_append, get?_claim]
  have hsub : c.payload.get? "sub" = some (Json.str c.sub) := rfl
  rw [AgentContext.ofClaims, hsub]
  simp only [hassigned, hclearance, hname, hrole, hteam, hemail, huser, tuple_getD_map_strings]
  exact congrArg (Except.mapError FromJwtError.raised) (AgentContext.postInit_toJson c.asserted)

end Claims

/-- **What the code relies on of PyJWT**: a token is read back under the secret
it was encoded with, and under another one its signature is wrong. -/
structure Jwt.Faithful (jwt : Jwt) : Prop where
  reads : ∀ (c : Claims) (key : String), key ≠ "" →
    jwt.decode (jwt.encode c.payload key) key = .ok c.payload
  separates : ∀ (c : Claims) (key key' : String), key ≠ key' →
    jwt.decode (jwt.encode c.payload key) key' = .error .invalidSignature

/-- A token is decoded exactly under an accepted secret. -/
theorem decodeToken_encode {jwt : Jwt} (hjwt : jwt.Faithful) {environ : Environ} {key : String}
    (hkey : key ≠ "") (c : Claims) :
    decodeToken jwt environ (jwt.encode c.payload key)
      = if key ∈ acceptedJwtSecrets environ then .ok c.payload else .error .invalidSignature := by
  by_cases hcurrent : key = getJwtSecret environ
  · have hmem : key ∈ acceptedJwtSecrets environ := hcurrent ▸ List.mem_cons_self
    rw [decodeToken, ← hcurrent, hjwt.reads c key hkey, if_pos hmem]
  · have hmem : key ∈ acceptedJwtSecrets environ ↔ getPreviousJwtSecret environ = some key := by
      rw [acceptedJwtSecrets, List.mem_cons, or_iff_right hcurrent, Option.mem_toList]
    rw [decodeToken, hjwt.separates c key _ hcurrent]
    cases hprev : getPreviousJwtSecret environ with
    | none =>
      rw [if_neg (fun h => by cases hprev.symm.trans (hmem.mp h))]
    | some prev =>
      by_cases hsame : key = prev
      · rw [if_pos (hmem.mpr (hsame ▸ hprev))]
        exact hsame ▸ hjwt.reads c key hkey
      · rw [if_neg (fun h => hsame (Option.some.inj ((hmem.mp h).symm.trans hprev)))]
        exact hjwt.separates c key prev hsame

/-- **Which tokens `from_jwt` accepts**: those encoded with an accepted
secret. -/
theorem AgentContext.fromJwt_encode {jwt : Jwt} (hjwt : jwt.Faithful) {environ : Environ}
    {key : String} (hkey : key ≠ "") (c : Claims) :
    fromJwt jwt environ (jwt.encode c.payload key)
      = if key ∈ acceptedJwtSecrets environ then .ok c.context.toJson
        else .error (.jwt .invalidSignature) := by
  rw [fromJwt, decodeToken_encode hjwt hkey c]
  by_cases hmem : key ∈ acceptedJwtSecrets environ
  · rw [if_pos hmem, if_pos hmem]
    exact c.ofClaims_payload
  · rw [if_neg hmem, if_neg hmem]

/-! ## Generations of secrets -/

/-- **A schedule of rotations**: the two secrets of every generation, none of
which is empty or comes back. -/
structure Schedule where
  jwt : ℕ → String
  context : ℕ → String
  jwt_injective : Function.Injective jwt
  context_injective : Function.Injective context
  jwt_ne_empty : ∀ n, jwt n ≠ ""
  context_ne_empty : ∀ n, context n ≠ ""

namespace Schedule

/-- The secret of the generation before. -/
def previous (secret : ℕ → String) : ℕ → Option String
  | 0 => none
  | n + 1 => some (secret n)

/-- The environment of a service of a generation. -/
def environ (s : Schedule) (n : ℕ) : Environ :=
  secretsEnviron (s.jwt n) (previous s.jwt n) (some (s.context n)) (previous s.context n)

/-- **The window of a secret**: its own generation, and the next. -/
def Within (signed now : ℕ) : Prop := now = signed ∨ now = signed + 1

instance (signed now : ℕ) : Decidable (Within signed now) :=
  inferInstanceAs (Decidable (now = signed ∨ now = signed + 1))

/-- The secret before is the one of the generation before. -/
theorem previous_eq_some_iff {secret : ℕ → String} (h : Function.Injective secret)
    {signed now : ℕ} : previous secret now = some (secret signed) ↔ now = signed + 1 := by
  cases now with
  | zero => simp [previous]
  | succ n =>
    rw [previous, Option.some.injEq, h.eq_iff]
    omega

/-- A token is accepted in the window of its secret. -/
theorem mem_acceptedJwtSecrets_iff (s : Schedule) {issued now : ℕ} :
    s.jwt issued ∈ acceptedJwtSecrets (s.environ now) ↔ Within issued now := by
  have hprev : getPreviousJwtSecret (s.environ now) = previous s.jwt now := by
    cases now with
    | zero => rfl
    | succ n =>
      show (match some (s.jwt n) with
        | none | some "" => none
        | some prev => some prev) = some (s.jwt n)
      split
      · cases ‹some (s.jwt n) = none›
      · exact absurd (Option.some.inj ‹_›) (s.jwt_ne_empty n)
      · next hsome => exact hsome.symm
  rw [acceptedJwtSecrets, List.mem_cons, Option.mem_toList, hprev,
    previous_eq_some_iff s.jwt_injective]
  exact or_congr_left (s.jwt_injective.eq_iff.trans eq_comm)

/-- A header is accepted in the window of its secret. -/
theorem getHmacSecret_mem_iff (s : Schedule) {signer now : ℕ} :
    getHmacSecret (s.environ signer) ∈ acceptedKeys (s.environ now) ↔ Within signer now := by
  have hsecret : ∀ n, getHmacSecret (s.environ n) = encodeUtf8 (s.context n) := fun n => rfl
  rw [acceptedKeys, List.mem_cons, Option.mem_toList, getPreviousHmacSecret_eq_some_iff,
    hsecret, hsecret, encodeUtf8_injective.eq_iff, s.context_injective.eq_iff, Within,
    eq_comm, ← previous_eq_some_iff s.context_injective]
  refine or_congr_right ⟨?_, fun h => ⟨_, h, s.context_ne_empty signer, rfl⟩⟩
  rintro ⟨prev, hprev, -, hsame⟩
  rw [encodeUtf8_injective hsame]
  exact hprev

end Schedule

section Arrives

variable {hmac : List UInt8 → List UInt8 → List UInt8} {decode : String → Except PyExc Json}

/-- **An identity arrives, or nobody does.** A token is issued, turned into a
context and signed, and verified, by parties of any generations of the secrets.
The orchestrator gets the identity of the claims exactly in the window of the
token's secret, and an `InvalidSignatureError` out of it; the server gets the
very same identity in the window of the orchestrator's secret, and the anonymous
one out of it. -/
theorem identity_arrives {jwt : Jwt} (hjwt : jwt.Faithful) (hdecode : DecodesContexts decode)
    (hsep : ∀ k₁ k₂ msg, hmac k₁ msg = hmac k₂ msg → k₁ = k₂) (s : Schedule)
    (issued signer server : ℕ) (c : Claims) :
    AgentContext.fromJwt jwt (s.environ signer) (jwt.encode c.payload (s.jwt issued))
        = (if Schedule.Within issued signer then .ok c.context.toJson
          else .error (.jwt .invalidSignature))
      ∧ verifyAuthContext hmac decode (s.environ server)
          (AgentContext.toHeaderValue hmac (s.environ signer) c.context.toJson)
        = .ok (if Schedule.Within signer server then c.context.toJson
          else AgentContext.anonymous.toJson) := by
  constructor
  · rw [AgentContext.fromJwt_encode hjwt (s.jwt_ne_empty issued) c]
    exact if_congr s.mem_acceptedJwtSecrets_iff rfl rfl
  · by_cases hwithin : Schedule.Within signer server
    · rw [if_pos hwithin]
      exact verifyAuthContext_signed hdecode (s.getHmacSecret_mem_iff.mpr hwithin) _
    · rw [if_neg hwithin]
      have hkey : getHmacSecret (s.environ signer) ∉ acceptedKeys (s.environ server) :=
        fun h => hwithin (s.getHmacSecret_mem_iff.mp h)
      obtain ⟨exc, hexc⟩ : ∃ exc, AgentContext.fromHeader hmac decode (s.environ server)
          (signed hmac (getHmacSecret (s.environ signer)) c.context.toJson.payload) = .error exc :=
        fromHeader_signed_error hsep hkey _
      rw [AgentContext.toHeaderValue, verifyAuthContext]
      split
      · rfl
      · rw [hexc]

end Arrives

/-! ## A PyJWT of its own -/

/-- Tokens that are a payload and its digest. -/
def encodeSigned (payload : Dict String Json) (key : String) : String :=
  signed keyedDigest (encodeUtf8 key) (encodePayload (.map payload))

/-- Such a token has one payload and one secret. -/
theorem encodeSigned_inj {d d' : Dict String Json} {key key' : String}
    (h : encodeSigned d key = encodeSigned d' key') : d = d' ∧ key = key' := by
  obtain ⟨hpayload, hsig⟩ := signed_inj (encodePayload_no_dot _) h
  rw [← hpayload] at hsig
  have hkey := keyedDigest_separates _ _ _
    (hexdigest_injective (String.ofList_injective hsig))
  exact ⟨DocTree.map.inj (encodePayload_injective hpayload), encodeUtf8_injective hkey⟩

open Classical in
/-- A decoder that undoes the encoder. -/
noncomputable def signedJwt : Jwt where
  encode := encodeSigned
  decode token key :=
    if h : ∃ d, encodeSigned d key = token then .ok h.choose
    else if ∃ d key', encodeSigned d key' = token then .error .invalidSignature
    else .error (.other "DecodeError")

theorem signedJwt_faithful : signedJwt.Faithful where
  reads c key _ := by
    have h : ∃ d, encodeSigned d key = encodeSigned c.payload key := ⟨_, rfl⟩
    exact (dif_pos h).trans (congrArg Except.ok (encodeSigned_inj h.choose_spec).1)
  separates c key key' hne := by
    have h : ¬ ∃ d, encodeSigned d key' = encodeSigned c.payload key :=
      fun ⟨d, hd⟩ => hne (encodeSigned_inj hd).2.symm
    exact (dif_neg h).trans (if_pos ⟨_, _, rfl⟩)

/-- Secrets that are numbered, so that no two generations have one. -/
def numberedSecrets : Schedule where
  jwt n := String.ofList ('j' :: List.replicate n 'x')
  context n := String.ofList ('c' :: List.replicate n 'x')
  jwt_injective m n h := by
    have hlength := congrArg List.length (String.ofList_injective h)
    simpa using hlength
  context_injective m n h := by
    have hlength := congrArg List.length (String.ofList_injective h)
    simpa using hlength
  jwt_ne_empty n h := by
    have hlist := congrArg String.toList h
    rw [String.toList_ofList] at hlist
    cases hlist
  context_ne_empty n h := by
    have hlist := congrArg String.toList h
    rw [String.toList_ofList] at hlist
    cases hlist

/-- **Two hops, one generation apart each**: the identity arrives; and one that
is two generations old on the second hop is nobody's. -/
theorem identity_arrives_rotating :
    AgentContext.fromJwt signedJwt (numberedSecrets.environ 1)
        (signedJwt.encode (Claims.payload { sub := "rm-7", role := some "manager" })
          (numberedSecrets.jwt 0))
        = .ok (Claims.context { sub := "rm-7", role := some "manager" }).toJson
      ∧ verifyAuthContext keyedDigest decodeEncoded (numberedSecrets.environ 3)
          (AgentContext.toHeaderValue keyedDigest (numberedSecrets.environ 1)
            (Claims.context { sub := "rm-7", role := some "manager" }).toJson)
        = .ok AgentContext.anonymous.toJson :=
  identity_arrives signedJwt_faithful decodesContexts_decodeEncoded keyedDigest_separates
    numberedSecrets 0 1 3 { sub := "rm-7", role := some "manager" }
