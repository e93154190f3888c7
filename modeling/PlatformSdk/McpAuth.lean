import PlatformSdk.Auth

/-!
# Verifying a caller's token

`verify_auth_context` turns whatever a caller sent into a context: a blank
token, and every token that fails to verify or to decode, is the anonymous
one. `verifyAuthContext_spec` says what that comes to over all tokens. It
never raises; a token some service signed, under a secret this one accepts,
is read back as the context it was made from; and a token that is no payload
with its signature under an accepted secret grants least privilege.

`getAgentContext` is the other way a caller's identity arrives: what the
middleware binds for the duration of a request.
-/

section Verify

variable (hmac : List UInt8 → List UInt8 → List UInt8) (decode : String → Except PyExc Json)

/-- **`verify_auth_context`**: the context of the header, and the anonymous one
where the header is blank or `from_header` raises. -/
def verifyAuthContext (environ : Environ) (rawToken : String) :
    Except PyExc (AgentContext Json) :=
  if rawToken = "" ∨ isBlank rawToken then .ok AgentContext.anonymous.toJson
  else
    match AgentContext.fromHeader hmac decode environ rawToken with
    | .ok c => .ok c
    | .error _ => .ok AgentContext.anonymous.toJson

variable {hmac decode}

/-- A signed text is not blank: it has a dot in it. -/
theorem isBlank_signed {key : List UInt8} {payload : String} :
    signed hmac key payload ≠ "" ∧ isBlank (signed hmac key payload) = false := by
  have hmem : '.' ∈ (signed hmac key payload).toList := by
    rw [toList_signed]
    exact List.mem_append_right _ List.mem_cons_self
  have hdot : isPySpace '.' = false := by decide
  constructor
  · intro h
    rw [h] at hmem
    exact absurd hmem (by decide)
  · rw [isBlank, List.all_eq_false]
    exact ⟨'.', hmem, by simp [hdot]⟩

/-- A token that is not signed under an accepted key does not verify. -/
theorem verifyAuthContext_of_not_signed {environ : Environ} {rawToken : String}
    (h : ∀ key ∈ acceptedKeys environ, ∀ payload, rawToken ≠ signed hmac key payload) :
    verifyAuthContext hmac decode environ rawToken = .ok AgentContext.anonymous.toJson := by
  unfold verifyAuthContext
  split
  · rfl
  · cases hv : verifyAndSplit hmac environ rawToken with
    | error exc =>
      unfold AgentContext.fromHeader
      rw [hv]
      rfl
    | ok payload =>
      obtain ⟨-, key, hkey, hraw⟩ := verifyAndSplit_eq_ok_iff.mp hv
      exact absurd hraw (h key hkey payload)

/-- A token signed under an accepted key is read back. -/
theorem verifyAuthContext_signed (hdecode : DecodesContexts decode) {environ : Environ}
    {key : List UInt8} (hkey : key ∈ acceptedKeys environ) (c : AgentContext String) :
    verifyAuthContext hmac decode environ (signed hmac key (AgentContext.new c).toJson.payload)
      = .ok (AgentContext.new c).toJson := by
  have hblank : signed hmac key (AgentContext.new c).toJson.payload ≠ ""
      ∧ isBlank (signed hmac key (AgentContext.new c).toJson.payload) = false := isBlank_signed
  unfold verifyAuthContext
  rw [if_neg (by simp [hblank]), AgentContext.fromHeader_signed hdecode hkey]

/-- **What `verify_auth_context` makes of a token.** It returns; a token made
by `to_header_value` of a constructed context, in an environment whose secret
is accepted here, comes back as that context; and a token that is no payload
with its signature under an accepted secret comes back anonymous. -/
theorem verifyAuthContext_spec (hdecode : DecodesContexts decode) (environ : Environ)
    (rawToken : String) :
    (∃ c, verifyAuthContext hmac decode environ rawToken = .ok c)
      ∧ (∀ (signer : Environ) (c : AgentContext String),
          getHmacSecret signer ∈ acceptedKeys environ →
          rawToken = AgentContext.toHeaderValue hmac signer (AgentContext.new c).toJson →
          verifyAuthContext hmac decode environ rawToken = .ok (AgentContext.new c).toJson)
      ∧ ((∀ key ∈ acceptedKeys environ, ∀ payload, rawToken ≠ signed hmac key payload) →
          verifyAuthContext hmac decode environ rawToken
            = .ok AgentContext.anonymous.toJson) := by
  refine ⟨?_, ?_, verifyAuthContext_of_not_signed⟩
  · unfold verifyAuthContext
    split
    · exact ⟨_, rfl⟩
    · cases AgentContext.fromHeader hmac decode environ rawToken with
      | ok c => exact ⟨c, rfl⟩
      | error exc => exact ⟨_, rfl⟩
  · rintro signer c hkey rfl
    exact verifyAuthContext_signed hdecode hkey c

/-! ## The middleware -/

variable (hmac decode) in
/-- **`get_agent_context`** during a request with this `x-agent-context`
header, empty if there is none: what `AgentContextMiddleware` has bound, which
is the context the header decodes to, or nothing. -/
def getAgentContext (environ : Environ) (raw : String) : Option (AgentContext Json) :=
  if raw = "" then none
  else
    match AgentContext.fromHeader hmac decode environ raw with
    | .ok ctx => some ctx
    | .error _ => none

/-- A request signed under an accepted key runs under the context it carries. -/
theorem getAgentContext_toHeaderValue (hdecode : DecodesContexts decode)
    {environ signer : Environ} (hkey : getHmacSecret signer ∈ acceptedKeys environ)
    (c : AgentContext String) :
    getAgentContext hmac decode environ
        (AgentContext.toHeaderValue hmac signer (AgentContext.new c).toJson)
      = some (AgentContext.new c).toJson := by
  have hne : AgentContext.toHeaderValue hmac signer (AgentContext.new c).toJson ≠ "" :=
    isBlank_signed.1
  have hfrom : AgentContext.fromHeader hmac decode environ
      (AgentContext.toHeaderValue hmac signer (AgentContext.new c).toJson)
        = .ok (AgentContext.new c).toJson :=
    AgentContext.fromHeader_signed hdecode hkey c
  rw [getAgentContext, if_neg hne, hfrom]

end Verify

/-- A receiver in the middle of a rotation from `old` to `new`. -/
def rotatingEnviron : Environ := fun name =>
  if name = "CONTEXT_HMAC_SECRET" then some "new"
  else if name = "CONTEXT_HMAC_SECRET_PREVIOUS" then some "old"
  else none

/-- A signer that still has the old secret. -/
def oldEnviron : Environ := fun name =>
  if name = "CONTEXT_HMAC_SECRET" then some "old" else none

/-- A manager's context, with accounts and a clearance of its own. -/
def managerContext : AgentContext String :=
  { rmId := "rm-7", rmName := "Ada", role := "manager", teamId := "t1"
    assignedAccountIds := ["a1", "a2"], complianceClearance := ["aml_view"]
    userEmail := "ada@example.com", userRole := "admin" }

/-- The old secret is accepted during the rotation. -/
theorem oldSecret_mem_acceptedKeys : getHmacSecret oldEnviron ∈ acceptedKeys rotatingEnviron := by
  have hold : hmacSecretText oldEnviron = "old" := by decide
  have hprev : getPreviousHmacSecret rotatingEnviron = some (encodeUtf8 "old") := by
    unfold getPreviousHmacSecret
    exact if_pos (by decide)
  rw [acceptedKeys, hprev, getHmacSecret, getHmacSecret, hold]
  exact List.mem_cons_of_mem _ List.mem_cons_self

/-- A token signed under the previous secret is read back. -/
theorem verifyAuthContext_rotating :
    verifyAuthContext keyedDigest decodeEncoded rotatingEnviron
        (AgentContext.toHeaderValue keyedDigest oldEnviron
          (AgentContext.new managerContext).toJson)
      = .ok managerContext.toJson := by
  have hnew : AgentContext.new managerContext = managerContext := by decide
  have h : verifyAuthContext keyedDigest decodeEncoded rotatingEnviron _ = _ :=
    (verifyAuthContext_spec decodesContexts_decodeEncoded rotatingEnviron _).2.1 oldEnviron
      managerContext oldSecret_mem_acceptedKeys rfl
  rwa [hnew] at h
