import PlatformSdk.Auth

/-!
# What the startup check guards against

`assert_secrets_configured` is there so that no service outside `dev` runs
with the published default secret, "making forged `X-Agent-Context` headers
possible". It reads `JWT_SECRET`. The verifier reads `CONTEXT_HMAC_SECRET`,
falling back to `JWT_SECRET` only where it is unset, and the previous secret
besides.

So past the check a default can still be in `CONTEXT_HMAC_SECRET` or in
`CONTEXT_HMAC_SECRET_PREVIOUS`, and an empty `CONTEXT_HMAC_SECRET`, or an
empty `JWT_SECRET` behind it, is an empty key; the previous-secret path alone
takes an empty value as none. `rejectsForgeries_iff` says that these are the
only ways a forgery is accepted.
-/

section Forgery

variable (hmac : List UInt8 → List UInt8 → List UInt8) (decode : String → Except PyExc Json)

/-- The keys anybody knows: the published default and the empty one. -/
def publicKeys : List (List UInt8) := [encodeUtf8 defaultDevSecret, encodeUtf8 ""]

/-- **Forgeries are rejected**: past the startup check, outside `dev`, no
header signed under a public key is accepted. -/
def RejectsForgeries (environ : Environ) : Prop :=
  assertSecretsConfigured none environ = .ok () → environ "ENVIRONMENT" ≠ some "dev" →
    ∀ key ∈ publicKeys, ∀ payload,
      ∃ exc, AgentContext.fromHeader hmac decode environ (signed hmac key payload) = .error exc

/-- **The secrets the verifier reads are sound**: the effective one is neither
the default nor empty, and the previous one is not the default. -/
structure SecretsSound (environ : Environ) : Prop where
  notDefault : hmacSecretText environ ≠ defaultDevSecret
  notEmpty : hmacSecretText environ ≠ ""
  previous : environ "CONTEXT_HMAC_SECRET_PREVIOUS" ≠ some defaultDevSecret

/-- The previous secret is a key unless it is unset or empty. -/
theorem getPreviousHmacSecret_eq_some_iff {environ : Environ} {key : List UInt8} :
    getPreviousHmacSecret environ = some key
      ↔ ∃ prev, environ "CONTEXT_HMAC_SECRET_PREVIOUS" = some prev ∧ prev ≠ ""
          ∧ key = encodeUtf8 prev := by
  unfold getPreviousHmacSecret
  cases environ "CONTEXT_HMAC_SECRET_PREVIOUS" with
  | none => simp
  | some prev =>
    by_cases h : prev = ""
    · simp [h]
    · simp [h, eq_comm]

/-- **Sound secrets** are the ones that make no public key an accepted one. -/
theorem secretsSound_iff (environ : Environ) :
    SecretsSound environ ↔ ∀ key ∈ publicKeys, key ∉ acceptedKeys environ := by
  have hdefault : defaultDevSecret ≠ "" := by decide
  have hcur : ∀ s, encodeUtf8 s = getHmacSecret environ ↔ s = hmacSecretText environ :=
    fun s => encodeUtf8_injective.eq_iff
  have hprev : ∀ s, encodeUtf8 s ∈ (getPreviousHmacSecret environ).toList
      ↔ environ "CONTEXT_HMAC_SECRET_PREVIOUS" = some s ∧ s ≠ "" := by
    intro s
    rw [Option.mem_toList, getPreviousHmacSecret_eq_some_iff]
    constructor
    · rintro ⟨prev, henv, hne, h⟩
      obtain rfl := encodeUtf8_injective h
      exact ⟨henv, hne⟩
    · exact fun h => ⟨s, h.1, h.2, rfl⟩
  constructor
  · rintro ⟨hd, he, hp⟩ key hkey hmem
    simp only [publicKeys, List.mem_cons, List.not_mem_nil, or_false] at hkey
    rcases hkey with rfl | rfl <;> rcases List.mem_cons.mp hmem with h | h
    · exact hd ((hcur _).mp h).symm
    · exact hp ((hprev _).mp h).1
    · exact he ((hcur _).mp h).symm
    · exact ((hprev _).mp h).2 rfl
  · intro h
    have h₁ := h (encodeUtf8 defaultDevSecret) List.mem_cons_self
    have h₂ := h (encodeUtf8 "") (List.mem_cons_of_mem _ List.mem_cons_self)
    simp only [acceptedKeys, List.mem_cons, not_or, hcur, hprev] at h₁ h₂
    exact ⟨fun h => h₁.1 h.symm, fun h => h₂.1 h.symm, fun h => h₁.2 ⟨h, hdefault⟩⟩

variable {hmac decode}

/-- A text signed with a payload that has no dot has no other payload and no
other signature. -/
theorem signed_inj {k₁ k₂ : List UInt8} {p₁ p₂ : String} (hdot : '.' ∉ p₁.toList)
    (h : signed hmac k₁ p₁ = signed hmac k₂ p₂) :
    p₁ = p₂ ∧ signature hmac k₁ p₁ = signature hmac k₂ p₂ := by
  have h' := congrArg String.toList h
  rw [toList_signed, toList_signed,
    List.append_cons_inj_of_notMem hdot (signature_plain k₁ p₁).2] at h'
  exact ⟨String.toList_inj.mp h'.1, String.toList_inj.mp h'.2.2⟩

/-- A header under a key the receiver does not accept is rejected, where keys
never collide. -/
theorem fromHeader_signed_error
    (hsep : ∀ k₁ k₂ msg, hmac k₁ msg = hmac k₂ msg → k₁ = k₂) {environ : Environ}
    {key : List UInt8} (hkey : key ∉ acceptedKeys environ) (payload : String) :
    ∃ exc, AgentContext.fromHeader hmac decode environ (signed hmac key payload)
      = .error exc := by
  unfold AgentContext.fromHeader
  cases hv : verifyAndSplit hmac environ (signed hmac key payload) with
  | error exc => exact ⟨exc, rfl⟩
  | ok p =>
    obtain ⟨hdot, key', hkey', hraw⟩ := verifyAndSplit_eq_ok_iff.mp hv
    obtain ⟨rfl, hsig⟩ := signed_inj hdot hraw.symm
    have hdigest := hexdigest_injective (String.ofList_injective hsig)
    exact absurd (hsep _ _ _ hdigest ▸ hkey') hkey

/-- **Forgeries are rejected exactly where the secrets the verifier reads are
sound**, or the check refuses to start, or the environment is `dev` – for a
decoder that undoes the encoder and keys that never collide. -/
theorem rejectsForgeries_iff (hdecode : DecodesContexts decode)
    (hsep : ∀ k₁ k₂ msg, hmac k₁ msg = hmac k₂ msg → k₁ = k₂) (environ : Environ) :
    RejectsForgeries hmac decode environ
      ↔ (∃ exc, assertSecretsConfigured none environ = .error exc)
        ∨ environ "ENVIRONMENT" = some "dev" ∨ SecretsSound environ := by
  constructor
  · intro h
    cases hassert : assertSecretsConfigured none environ with
    | error exc => exact .inl ⟨exc, rfl⟩
    | ok u =>
      refine .inr (or_iff_not_imp_left.mpr fun hdev => ?_)
      refine (secretsSound_iff environ).mpr fun key hkey haccepted => ?_
      obtain ⟨exc, hexc⟩ := h hassert hdev key hkey _
      rw [AgentContext.fromHeader_signed hdecode haccepted AgentContext.anonymous] at hexc
      cases hexc
  · rintro (⟨exc, hexc⟩ | hdev | hsound) hassert hdev' key hkey payload
    · rw [hexc] at hassert
      cases hassert
    · exact absurd hdev hdev'
    · exact fromHeader_signed_error hsep ((secretsSound_iff environ).mp hsound key hkey) payload

end Forgery

/-- A production process with a secret of its own for tokens, and the given
one for context headers. -/
def prodEnviron (contextSecret : String) : Environ := fun name =>
  if name = "ENVIRONMENT" then some "prod"
  else if name = "JWT_SECRET" then some "a-strong-random-secret"
  else if name = "CONTEXT_HMAC_SECRET" then some contextSecret
  else none

/-- Its context secret is the one given. -/
theorem hmacSecretText_prodEnviron (s : String) : hmacSecretText (prodEnviron s) = s := by
  simp [hmacSecretText, prodEnviron]

/-- A process with a strong context secret rejects forgeries. -/
theorem rejectsForgeries_prodEnviron :
    RejectsForgeries keyedDigest decodeEncoded (prodEnviron "another-strong-secret") := by
  have hsound : SecretsSound (prodEnviron "another-strong-secret") :=
    ⟨by decide, by decide, by decide⟩
  exact (rejectsForgeries_iff decodesContexts_decodeEncoded keyedDigest_separates _).mpr
    (.inr (.inr hsound))

/-- **A forgery past the startup check**: with `JWT_SECRET` rotated and
`CONTEXT_HMAC_SECRET` left at the default, the check passes and a header
signed under the default is accepted. -/
theorem not_rejectsForgeries :
    ¬ RejectsForgeries keyedDigest decodeEncoded (prodEnviron defaultDevSecret) := by
  intro h
  have hassert : assertSecretsConfigured none (prodEnviron defaultDevSecret) = .ok () := by
    unfold assertSecretsConfigured
    exact if_neg (by decide)
  have hkey : encodeUtf8 defaultDevSecret ∈ acceptedKeys (prodEnviron defaultDevSecret) := by
    rw [acceptedKeys, getHmacSecret, hmacSecretText_prodEnviron]
    exact List.mem_cons_self
  obtain ⟨exc, hexc⟩ := h hassert (by decide) (encodeUtf8 defaultDevSecret) List.mem_cons_self
    (AgentContext.new AgentContext.anonymous).toJson.payload
  rw [AgentContext.fromHeader_signed decodesContexts_decodeEncoded hkey] at hexc
  cases hexc
