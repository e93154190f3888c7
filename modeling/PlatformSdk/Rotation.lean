import PlatformSdk.Forgery

/-!
# Rotating the secrets

While the secrets are rotated some services still run in the old environment
and some already in the new one, which knows the old secrets as its previous
ones. Every header any of them signs should be accepted by those that are
already in the new environment.

The current key falls back to `JWT_SECRET` where `CONTEXT_HMAC_SECRET` is
unset. The previous key does not fall back to `JWT_SECRET_PREVIOUS`, and an
empty one counts as none. So a rotation is safe where the old environment had
a context secret of its own, and otherwise only if the key does not change
(`rotationSafe_iff`).
-/

section Rotation

variable (hmac : List UInt8 → List UInt8 → List UInt8) (decode : String → Except PyExc Json)

/-- **A rotation** from an old environment to a new one: a context secret that
was set stays set, and the old secrets are the previous ones of the new
environment. -/
structure Rotates (old new : Environ) : Prop where
  jwt : ∃ a, old "JWT_SECRET" = some a ∧ new "JWT_SECRET_PREVIOUS" = some a
  newJwt : ∃ a, new "JWT_SECRET" = some a
  stillUnset : new "CONTEXT_HMAC_SECRET" = none → old "CONTEXT_HMAC_SECRET" = none
  previous : new "CONTEXT_HMAC_SECRET_PREVIOUS" = old "CONTEXT_HMAC_SECRET"

/-- **A rotation is safe**: a service in the new environment reads back every
header a service signs, in the old environment or in the new one. -/
def RotationSafe (old new : Environ) : Prop :=
  ∀ signer ∈ [old, new], ∀ c : AgentContext String,
    AgentContext.fromHeader hmac decode new
        (AgentContext.toHeaderValue hmac signer (AgentContext.new c).toJson)
      = .ok (AgentContext.new c).toJson

variable {hmac decode}

/-- What an environment signs is read back in another one exactly when that
accepts its key. -/
theorem fromHeader_toHeaderValue_iff (hdecode : DecodesContexts decode)
    (hsep : ∀ k₁ k₂ msg, hmac k₁ msg = hmac k₂ msg → k₁ = k₂) {signer environ : Environ} :
    (∀ c : AgentContext String, AgentContext.fromHeader hmac decode environ
        (AgentContext.toHeaderValue hmac signer (AgentContext.new c).toJson)
          = .ok (AgentContext.new c).toJson)
      ↔ getHmacSecret signer ∈ acceptedKeys environ := by
  constructor
  · intro h
    by_contra hkey
    have hok := h AgentContext.anonymous
    rw [AgentContext.toHeaderValue] at hok
    obtain ⟨exc, hexc⟩ := fromHeader_signed_error hsep hkey
      (AgentContext.new AgentContext.anonymous).toJson.payload
    rw [hexc] at hok
    cases hok
  · exact fun hkey c => AgentContext.fromHeader_signed hdecode hkey c

/-- **The old key is accepted** in the new environment when it is still the
current one, or was a context secret that is not empty. -/
theorem Rotates.getHmacSecret_mem_iff {old new : Environ} (h : Rotates old new) :
    getHmacSecret old ∈ acceptedKeys new
      ↔ hmacSecretText old = hmacSecretText new
        ∨ ∃ c, old "CONTEXT_HMAC_SECRET" = some c ∧ c ≠ "" := by
  rw [acceptedKeys, List.mem_cons, Option.mem_toList, getPreviousHmacSecret_eq_some_iff,
    h.previous]
  refine or_congr encodeUtf8_injective.eq_iff ⟨?_, ?_⟩
  · rintro ⟨c, hc, hne, -⟩
    exact ⟨c, hc, hne⟩
  · rintro ⟨c, hc, hne⟩
    refine ⟨c, hc, hne, ?_⟩
    rw [getHmacSecret, hmacSecretText, hc, Option.getD_some]

/-- **When a rotation is safe**: the key of the context headers stays the
same, or the old environment had a context secret of its own that was not
empty – for a decoder that undoes the encoder and keys that never collide. -/
theorem rotationSafe_iff (hdecode : DecodesContexts decode)
    (hsep : ∀ k₁ k₂ msg, hmac k₁ msg = hmac k₂ msg → k₁ = k₂) {old new : Environ}
    (h : Rotates old new) :
    RotationSafe hmac decode old new
      ↔ hmacSecretText old = hmacSecretText new
        ∨ ∃ c, old "CONTEXT_HMAC_SECRET" = some c ∧ c ≠ "" := by
  rw [← h.getHmacSecret_mem_iff, ← fromHeader_toHeaderValue_iff hdecode hsep]
  constructor
  · exact fun hsafe => hsafe old List.mem_cons_self
  · intro hold signer hsigner
    rcases List.mem_cons.mp hsigner with rfl | hsigner
    · exact hold
    · -- the new environment accepts its own key
      rw [List.mem_singleton.mp hsigner]
      exact fun c => AgentContext.fromHeader_signed hdecode List.mem_cons_self c

end Rotation

/-- An environment with the given secrets. -/
def secretsEnviron (jwt : String) (jwtPrevious context contextPrevious : Option String) :
    Environ := fun name =>
  if name = "JWT_SECRET" then some jwt
  else if name = "JWT_SECRET_PREVIOUS" then jwtPrevious
  else if name = "CONTEXT_HMAC_SECRET" then context
  else if name = "CONTEXT_HMAC_SECRET_PREVIOUS" then contextPrevious
  else none

/-- A rotation of both secrets, each old one being kept as the previous one, is
a rotation. -/
theorem rotates_secretsEnviron (a a' : String) (c c' : Option String)
    (h : c' = none → c = none) :
    Rotates (secretsEnviron a none c none) (secretsEnviron a' (some a) c' c) :=
  ⟨⟨a, rfl, rfl⟩, ⟨a', rfl⟩, h, rfl⟩

/-- Rotating a context secret of its own is safe, since the old one is then read
from `CONTEXT_HMAC_SECRET_PREVIOUS`. -/
theorem rotationSafe_contextSecret :
    RotationSafe keyedDigest decodeEncoded (secretsEnviron "jwt-1" none (some "hmac-1") none)
      (secretsEnviron "jwt-2" (some "jwt-1") (some "hmac-2") (some "hmac-1")) :=
  (rotationSafe_iff decodesContexts_decodeEncoded keyedDigest_separates
    (rotates_secretsEnviron "jwt-1" "jwt-2" (some "hmac-1") (some "hmac-2") (by decide))).mpr
    (.inr ⟨"hmac-1", rfl, by decide⟩)

/-- **Rotating the token secret alone is not**: with no context secret set,
what was signed under the old `JWT_SECRET` is rejected, `JWT_SECRET_PREVIOUS`
or not. -/
theorem not_rotationSafe :
    ¬ RotationSafe keyedDigest decodeEncoded (secretsEnviron "jwt-1" none none none)
      (secretsEnviron "jwt-2" (some "jwt-1") none none) := by
  intro h
  have hkey : getHmacSecret (secretsEnviron "jwt-1" none none none)
      ∈ acceptedKeys (secretsEnviron "jwt-2" (some "jwt-1") none none) :=
    (fromHeader_toHeaderValue_iff decodesContexts_decodeEncoded keyedDigest_separates).mp
      (h _ List.mem_cons_self)
  rcases (rotates_secretsEnviron "jwt-1" "jwt-2" none none id).getHmacSecret_mem_iff.mp hkey
    with htext | ⟨c, hc, -⟩
  · exact absurd htext (by decide)
  · cases hc
