import PlatformSdk.ConfigModels
import PlatformSdk.InternalHttp

/-!
# A request from one service to another

Two halves keep the environments apart: the client of a service stamps its
requests with the environment and the key of its config, and the dependency of
the service that is called compares both. Between them stand the HTTP client,
the server and `HTTPBearer`, which are the parameter `Transit` here. What the
two halves rely on is that the first header of a name is the one that is read,
whatever the case of its letters (`Transit.Faithful`).

The factory writes its own two headers before those of its caller. So the
second `x-environment` that a caller can add is sent and never read, and
`admitted_iff` holds for every header a caller with a key passes: a request is
admitted by those services that have the same key, and the same environment if
they ask for one. `ApiKeyVerifier`, the other way to make the dependency, asks
for none (`apiKeyVerifier_eq`).
-/

/-! ## `ApiKeyVerifier` -/

/-- **`ApiKeyVerifier.create_dependency`**: the dependency it returns, on a
bearer credential. -/
def ApiKeyVerifier.createDependency (apiKey : Option String) (environ : Environ)
    (credential : String) : Except VerifyFailure String :=
  let key := verifierKey apiKey environ
  if key = "" then
    .error (.http ⟨500,
      .text "Service temporarily unavailable. Contact your administrator."⟩)
  else
    match compareDigest credential key with
    | .error exc => .error (.raised exc)
    | .ok false => .error (.http ⟨401, .text "Unauthorized"⟩)
    | .ok true => .ok credential

/-- **It is the dependency of `make_api_key_verifier` without an
environment**, and lets every environment in. -/
theorem apiKeyVerifier_eq (apiKey : Option String) (environ : Environ) (credential : String)
    (got : Option String) :
    ApiKeyVerifier.createDependency apiKey environ credential
      = makeApiKeyVerifier apiKey none environ credential got := by
  rw [ApiKeyVerifier.createDependency, makeApiKeyVerifier]
  generalize verifierKey apiKey environ = key
  by_cases hkey : key = ""
  · rw [if_pos hkey, if_pos hkey]
  · rw [if_neg hkey, if_neg hkey]
    rfl

/-! ## The dependency, when it lets a request in -/

/-- A credential of ASCII is the key, or is refused. -/
theorem compareDigest_eq_ok_true_iff {a b : String} :
    compareDigest a b = .ok true ↔ a = b ∧ isAscii b = true := by
  by_cases h : isAscii a = true ∧ isAscii b = true
  · rw [compareDigest_of_isAscii h.1 h.2]
    exact ⟨fun hok => ⟨eq_of_beq (Except.ok.inj hok), h.2⟩, fun hab => by simp [hab.1]⟩
  · obtain ⟨msg, hraise⟩ := compareDigest_of_not_isAscii h
    rw [hraise]
    exact iff_of_false (by simp) (fun hab => h ⟨hab.1 ▸ hab.2, hab.2⟩)

/-- **Who is let in**: the credential is the key, one of ASCII, and the
environment is the one asked for. -/
theorem makeApiKeyVerifier_eq_ok_iff {apiKey environment : Option String} {environ : Environ}
    {credential v : String} {got : Option String} :
    makeApiKeyVerifier apiKey environment environ credential got = .ok v
      ↔ v = credential ∧ credential = verifierKey apiKey environ ∧ credential ≠ ""
        ∧ isAscii credential = true ∧ (environment = none ∨ got = environment) := by
  rw [makeApiKeyVerifier]
  generalize verifierKey apiKey environ = key
  by_cases hkey : key = ""
  · rw [if_pos hkey]
    exact iff_of_false (by simp) (fun h => h.2.2.1 (h.2.1.trans hkey))
  rw [if_neg hkey]
  cases hcompare : compareDigest credential key with
  | error exc =>
    refine iff_of_false (by simp) (fun h => ?_)
    rw [compareDigest_eq_ok_true_iff.mpr ⟨h.2.1, h.2.1 ▸ h.2.2.2.1⟩] at hcompare
    cases hcompare
  | ok same =>
    cases same with
    | false =>
      refine iff_of_false (by simp) (fun h => ?_)
      rw [compareDigest_eq_ok_true_iff.mpr ⟨h.2.1, h.2.1 ▸ h.2.2.2.1⟩] at hcompare
      cases hcompare
    | true =>
      obtain ⟨rfl, hascii⟩ := compareDigest_eq_ok_true_iff.mp hcompare
      cases environment with
      | none =>
        show Except.ok credential = Except.ok v ↔ _
        rw [Except.ok.injEq]
        exact ⟨fun h => ⟨h.symm, rfl, hkey, hascii, Or.inl rfl⟩, fun h => h.1.symm⟩
      | some env =>
        by_cases hgot : got = some env
        · have hverify : verifyEnvironment (some env) got = .ok () := if_neg (not_not.mpr hgot)
          rw [hverify]
          show Except.ok credential = Except.ok v ↔ _
          rw [Except.ok.injEq]
          exact ⟨fun h => ⟨h.symm, rfl, hkey, hascii, Or.inr hgot⟩, fun h => h.1.symm⟩
        · have hverify : verifyEnvironment (some env) got
              = .error (.http ⟨403, .environmentMismatch env (got.getD "")⟩) := if_pos hgot
          rw [hverify]
          refine iff_of_false (by simp) (fun h => ?_)
          exact h.2.2.2.2.elim (Option.some_ne_none env) hgot

/-! ## In transit -/

/-- The value of the first header of a name, in whichever spelling. -/
def firstHeader (headers : List (String × String)) (name : String) : Option String :=
  (headers.find? (fun e => sameHeader e.1 name)).map Prod.snd

/-- A value that is sent as it is: it is not empty and has visible characters
of ASCII only. -/
def isToken (s : String) : Bool :=
  s ≠ "" && s.toList.all (fun c => 33 ≤ c.toNat && c.toNat ≤ 126)

/-- **What a server makes of the headers of a request**: the credential of
`HTTPBearer`, or how it refuses, and the value of `X-Environment`. -/
structure Transit where
  credential : List (String × String) → Except HTTPException String
  environment : List (String × String) → Option String

/-- **What the two halves rely on.** -/
structure Transit.Faithful (net : Transit) : Prop where
  /-- The first `Authorization` is the one that is read. -/
  bearer : ∀ headers key, isToken key = true →
    firstHeader headers "Authorization" = some ("Bearer " ++ key) →
    net.credential headers = .ok key
  environment : ∀ headers value, isToken value = true →
    firstHeader headers envHeader = some value → net.environment headers = some value

/-- **A request that reaches the dependency of a service.** -/
def Transit.verify (net : Transit) (apiKey environment : Option String) (environ : Environ)
    (headers : List (String × String)) : Except VerifyFailure String :=
  match net.credential headers with
  | .error e => .error (.http e)
  | .ok credential =>
    makeApiKeyVerifier apiKey environment environ credential (net.environment headers)

/-! ## What the client sends -/

/-- A header of the first part is the one that is read. -/
theorem firstHeader_append {headers : List (String × String)} {name value : String}
    (h : firstHeader headers name = some value) (added : List (String × String)) :
    firstHeader (headers ++ added) name = some value := by
  obtain ⟨e, he, rfl⟩ := Option.map_eq_some_iff.mp h
  rw [firstHeader, List.find?_append, he]
  rfl

/-- The one header of a name is the first. -/
theorem firstHeader_of_filter {headers : List (String × String)} {name spelling value : String}
    (h : headers.filter (fun e => sameHeader e.1 name) = [(spelling, value)]) :
    firstHeader headers name = some value := by
  rw [firstHeader, ← List.head?_filter, h]
  rfl

/-- **The factory's headers come first**, whatever the caller passes. -/
theorem firstHeader_makeInternalHttpClient {κ : Type} (config : ClientConfig)
    (headers : Option (Dict String String)) (httpxKwargs : κ) (timeout : FloatValue) :
    firstHeader (makeInternalHttpClient config headers httpxKwargs timeout).headers envHeader
        = some config.environment
      ∧ (config.apiKey ≠ "" →
        firstHeader (makeInternalHttpClient config headers httpxKwargs timeout).headers
          "Authorization" = some ("Bearer " ++ config.apiKey)) := by
  obtain ⟨added, heq, -, -⟩ := mergeHeaders_eq_append (safetyHeaders config) (headers.getD [])
  obtain ⟨henv, hauth⟩ := filter_safetyHeaders config
  show firstHeader (mergeHeaders _ _) _ = _ ∧ (_ → firstHeader (mergeHeaders _ _) _ = _)
  rw [heq]
  exact ⟨firstHeader_append (firstHeader_of_filter henv) added,
    fun hkey => firstHeader_append (firstHeader_of_filter (hauth hkey)) added⟩

/-- The literal of an environment is sent as it is. -/
theorem isToken_environment (e : Environment) : isToken e.toString = true := by
  cases e <;> decide

theorem ne_empty_of_isToken {s : String} (h : isToken s = true) : s ≠ "" := by
  simp only [isToken, Bool.and_eq_true, decide_eq_true_eq] at h
  exact h.1

theorem isAscii_of_isToken {s : String} (h : isToken s = true) : isAscii s = true := by
  simp only [isToken, Bool.and_eq_true, List.all_eq_true, decide_eq_true_eq] at h
  refine List.all_eq_true.mpr fun c hc => decide_eq_true ?_
  have hle : c.toNat ≤ 126 := (h.2 c hc).2
  omega

/-- **Which services admit a request.** A service whose key can stand in a
header calls another one through the internal client, with whatever headers it
adds. The request is admitted exactly when the other one has the same key, and
the same environment if it asks for one: no header of the caller changes
either.

With the default key, the empty one, the factory writes no `Authorization`, and
one that the caller adds is then the first and the one that is read. The
keyword arguments that go to `httpx.AsyncClient` as they are, are taken to
leave the headers of a request alone; an `auth` among them would not. -/
theorem Transit.admitted_iff {net : Transit} (hnet : net.Faithful) {κ : Type}
    (environment : Environment) (key : String) (hkey : isToken key = true)
    (headers : Option (Dict String String)) (httpxKwargs : κ) (timeout : FloatValue)
    (apiKey required : Option String) (environ : Environ) :
    (∃ v, net.verify apiKey required environ
        (makeInternalHttpClient ⟨environment.toString, some key⟩ headers httpxKwargs
          timeout).headers = .ok v)
      ↔ verifierKey apiKey environ = key
        ∧ (required = none ∨ required = some environment.toString) := by
  obtain ⟨henv, hauth⟩ := firstHeader_makeInternalHttpClient
    ⟨environment.toString, some key⟩ headers httpxKwargs timeout
  have hcredential := hnet.bearer _ key hkey (hauth (ne_empty_of_isToken hkey))
  have hgot := hnet.environment _ _ (isToken_environment environment) henv
  rw [Transit.verify, hcredential, hgot]
  constructor
  · rintro ⟨v, hv⟩
    obtain ⟨-, hsame, -, -, hrequired⟩ := makeApiKeyVerifier_eq_ok_iff.mp hv
    exact ⟨hsame.symm, hrequired.imp_right Eq.symm⟩
  · rintro ⟨hsame, hrequired⟩
    exact ⟨key, makeApiKeyVerifier_eq_ok_iff.mpr ⟨rfl, hsame.symm, ne_empty_of_isToken hkey,
      isAscii_of_isToken hkey, hrequired.imp_right Eq.symm⟩⟩

/-- **A server that splits the header at its first blank**, as `HTTPBearer`
does, and reads the first header of a name. -/
def plainTransit : Transit where
  credential headers :=
    match (firstHeader headers "Authorization").map (fun v => v.toList.span (· ≠ ' ')) with
    | some (scheme, _ :: param) =>
      if scheme.map Char.toLower = "bearer".toList ∧ param ≠ [] then .ok (String.ofList param)
      else .error ⟨403, .text "Invalid authentication credentials"⟩
    | _ => .error ⟨403, .text "Not authenticated"⟩
  environment headers := firstHeader headers envHeader

/-- Such a server reads what the clients send, so the hypothesis can be met. -/
theorem plainTransit_faithful : plainTransit.Faithful where
  bearer headers key hkey h := by
    have hne : key.toList ≠ [] := fun hnil =>
      ne_empty_of_isToken hkey (String.toList_eq_nil_iff.mp hnil)
    have hspan : ("Bearer " ++ key).toList.span (· ≠ ' ')
        = ("Bearer".toList, ' ' :: key.toList) := by
      rw [String.toList_append]
      rfl
    simp only [plainTransit, h, Option.map_some, hspan]
    rw [if_pos ⟨by decide, hne⟩, String.ofList_toList]
  environment headers value _ h := h

/-- **A caller in `dev` that claims to be in `prod`** is admitted in `dev`, and
in `prod` refused. -/
theorem Transit.admitted_dev :
    (∃ v, plainTransit.verify (some "k") (some "dev") (fun _ => none)
        (makeInternalHttpClient ⟨"dev", some "k"⟩ (some [("x-environment", "prod")]) ()).headers
          = .ok v)
      ∧ ¬ ∃ v, plainTransit.verify (some "k") (some "prod") (fun _ => none)
        (makeInternalHttpClient ⟨"dev", some "k"⟩ (some [("x-environment", "prod")]) ()).headers
          = .ok v :=
  ⟨(Transit.admitted_iff plainTransit_faithful .dev "k" (by decide) _ () _ _ _ _).mpr
      ⟨by decide, Or.inr rfl⟩,
    fun h => absurd ((Transit.admitted_iff plainTransit_faithful .dev "k" (by decide) _ () _ _ _
      _).mp h).2 (by decide)⟩
