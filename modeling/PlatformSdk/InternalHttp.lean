import PlatformSdk.Dict
import PlatformSdk.Python

/-!
# Transit isolation: the client that stamps, the verifier that checks

Requests between services carry the environment and a bearer key. The client
half, `make_internal_http_client`, puts the two headers first and adds the
caller's behind them, one `setdefault` a header. Names of headers are compared
without regard to case by HTTP and with regard to it by a `dict`, so a caller's
`x-environment` is a second header of that name. `makeInternalHttpClient_stamps_iff`
says which headers a caller may pass.

The server half, `make_api_key_verifier`, answers with the credential or with a
500, a 401 or a 403, in this order. It compares with `hmac.compare_digest`,
which takes no string with a character outside ASCII:
`makeApiKeyVerifier_decides_iff`.
-/

/-! ## Headers -/

/-- `ENV_HEADER`. -/
def envHeader : String := "X-Environment"

/-- Two names of one header: HTTP disregards the case of letters. -/
def sameHeader (a b : String) : Bool := a.toList.map Char.toLower == b.toList.map Char.toLower

/-- **The header is there once**, in whichever spelling, with the value. -/
def CarriesOnce (headers : Dict String String) (name value : String) : Prop :=
  ∃ spelling, headers.filter (fun e => sameHeader e.1 name) = [(spelling, value)]

/-- `d.setdefault(k, v)`. -/
def Dict.setDefault {κ α : Type*} [DecidableEq κ] (d : Dict κ α) (k : κ) (v : α) : Dict κ α :=
  if (d.get? k).isSome then d else d.set k v

/-! ## The client -/

/-- What the factory reads of a config: the text of `environment`, and
`internal_api_key` if it is there and not `None`. -/
structure ClientConfig where
  environment : String
  internalApiKey : Option String

namespace ClientConfig

/-- `getattr(config, "internal_api_key", "") or ""`. -/
def apiKey (config : ClientConfig) : String := config.internalApiKey.getD ""

end ClientConfig

/-- What `httpx.AsyncClient` is called with: the timeout, the headers and the
caller's other keywords. -/
structure AsyncClient (κ : Type) where
  timeout : FloatValue
  headers : Dict String String
  httpxKwargs : κ

/-- The two headers that come first. -/
def safetyHeaders (config : ClientConfig) : Dict String String :=
  let headers := [(envHeader, config.environment)]
  if config.apiKey ≠ "" then Dict.set headers "Authorization" ("Bearer " ++ config.apiKey)
  else headers

/-- The loop over the caller's headers. -/
def mergeHeaders : Dict String String → List (String × String) → Dict String String
  | headers, [] => headers
  | headers, (k, v) :: extra => mergeHeaders (headers.setDefault k v) extra

/-- **`make_internal_http_client`**, with the caller's `headers` if there are
any and what else the caller passes on. -/
def makeInternalHttpClient {κ : Type} (config : ClientConfig)
    (headers : Option (Dict String String)) (httpxKwargs : κ)
    (timeout : FloatValue := .finite 10) : AsyncClient κ where
  timeout := timeout
  headers := mergeHeaders (safetyHeaders config) (headers.getD [])
  httpxKwargs := httpxKwargs

/-- **What the client is to send**: the environment, and the key if there is
one, once each. -/
def AsyncClient.Stamps {κ : Type} (client : AsyncClient κ) (config : ClientConfig) : Prop :=
  CarriesOnce client.headers envHeader config.environment
    ∧ (config.apiKey ≠ "" →
        CarriesOnce client.headers "Authorization" ("Bearer " ++ config.apiKey))

/-- The caller spells the header the way the factory does, or does not name
it. -/
def SpelledAs (headers : List (String × String)) (name : String) : Prop :=
  ∀ e ∈ headers, sameHeader e.1 name = true → e.1 = name

theorem setDefault_of_mem {d : Dict String String} {k v : String} (h : k ∈ d.keys) :
    d.setDefault k v = d := by
  obtain ⟨w, hw⟩ := (Dict.mem_keys_iff d k).mp h
  rw [Dict.setDefault, hw]
  rfl

theorem setDefault_of_notMem {d : Dict String String} {k v : String} (h : k ∉ d.keys) :
    d.setDefault k v = d ++ [(k, v)] := by
  rw [Dict.setDefault, (Dict.get?_eq_none_iff d k).mpr h]
  exact Dict.set_of_notMem d v h

/-- **The merge appends**: what it adds is the caller's and of another
spelling than every header there, and no header of the caller is lost. -/
theorem mergeHeaders_eq_append (headers extra : Dict String String) :
    ∃ added, mergeHeaders headers extra = headers ++ added
      ∧ (∀ e ∈ added, e ∈ extra ∧ e.1 ∉ headers.keys)
      ∧ ∀ e ∈ extra, e.1 ∈ (headers ++ added).keys := by
  induction extra generalizing headers with
  | nil =>
    exact ⟨[], (List.append_nil headers).symm, fun e h => absurd h List.not_mem_nil,
      fun e h => absurd h List.not_mem_nil⟩
  | cons e extra ih =>
    obtain ⟨k, v⟩ := e
    rw [mergeHeaders]
    by_cases hk : k ∈ headers.keys
    · rw [setDefault_of_mem hk]
      obtain ⟨added, heq, hadded, hextra⟩ := ih headers
      refine ⟨added, heq, fun e he => ⟨List.mem_cons_of_mem _ (hadded e he).1, (hadded e he).2⟩, ?_⟩
      intro e he
      rcases List.mem_cons.mp he with rfl | he
      · rw [Dict.keys, List.map_append]
        exact List.mem_append_left _ hk
      · exact hextra e he
    · rw [setDefault_of_notMem hk]
      obtain ⟨added, heq, hadded, hextra⟩ := ih (headers ++ [(k, v)])
      refine ⟨(k, v) :: added, by rw [heq, List.append_assoc]; rfl, ?_, ?_⟩
      · intro e he
        rcases List.mem_cons.mp he with rfl | he
        · exact ⟨List.mem_cons_self, hk⟩
        · refine ⟨List.mem_cons_of_mem _ (hadded e he).1, fun hmem => (hadded e he).2 ?_⟩
          rw [Dict.keys, List.map_append]
          exact List.mem_append_left _ hmem
      · intro e he
        rcases List.mem_cons.mp he with rfl | he
        · simp [Dict.keys]
        · have hmem := hextra e he
          rwa [List.append_assoc] at hmem

/-- **One header survives the merge alone** exactly when the caller spells it
the same way. -/
theorem carriesOnce_mergeHeaders_iff {headers : Dict String String} {name value : String}
    (h : headers.filter (fun e => sameHeader e.1 name) = [(name, value)])
    (extra : Dict String String) :
    CarriesOnce (mergeHeaders headers extra) name value ↔ SpelledAs extra name := by
  obtain ⟨added, heq, hadded, hextra⟩ := mergeHeaders_eq_append headers extra
  have hname : name ∈ headers.keys := by
    have hmem : (name, value) ∈ headers.filter (fun e => sameHeader e.1 name) := by simp [h]
    exact List.mem_map_of_mem (List.mem_filter.mp hmem).1
  rw [CarriesOnce, heq, List.filter_append, h]
  constructor
  · rintro ⟨spelling, hone⟩ e he hsame
    obtain ⟨-, hnil⟩ := List.cons.inj hone
    obtain ⟨f, hf, hfe⟩ := List.mem_map.mp (hextra e he)
    rw [← hfe] at hsame ⊢
    rcases List.mem_append.mp hf with hf | hf
    · have hmem : f ∈ headers.filter (fun e => sameHeader e.1 name) :=
        List.mem_filter.mpr ⟨hf, hsame⟩
      rw [h, List.mem_singleton] at hmem
      rw [hmem]
    · exact absurd (List.mem_filter.mpr ⟨hf, hsame⟩) (hnil ▸ List.not_mem_nil)
  · intro hspelled
    have hnil : added.filter (fun e => sameHeader e.1 name) = [] := by
      refine List.filter_eq_nil_iff.mpr fun e he hsame => (hadded e he).2 ?_
      rw [hspelled e (hadded e he).1 hsame]
      exact hname
    exact ⟨name, by rw [hnil]; rfl⟩

/-- The factory's own headers are there once each. -/
theorem filter_safetyHeaders (config : ClientConfig) :
    (safetyHeaders config).filter (fun e => sameHeader e.1 envHeader)
        = [(envHeader, config.environment)]
      ∧ (config.apiKey ≠ "" →
        (safetyHeaders config).filter (fun e => sameHeader e.1 "Authorization")
          = [("Authorization", "Bearer " ++ config.apiKey)]) := by
  have henv : sameHeader envHeader envHeader = true := by decide
  have hauth : sameHeader "Authorization" "Authorization" = true := by decide
  have hne : sameHeader "Authorization" envHeader = false := by decide
  have hne' : sameHeader envHeader "Authorization" = false := by decide
  by_cases hkey : config.apiKey ≠ ""
  · have hs : safetyHeaders config
        = [(envHeader, config.environment), ("Authorization", "Bearer " ++ config.apiKey)] := by
      rw [safetyHeaders, if_pos hkey]
      rfl
    rw [hs]
    exact ⟨by simp [henv, hne], fun _ => by simp [hauth, hne']⟩
  · have hs : safetyHeaders config = [(envHeader, config.environment)] := if_neg hkey
    rw [hs]
    exact ⟨by simp [henv], fun h => absurd h hkey⟩

/-- **Which headers a caller may pass.** The client carries the environment
and the key once each exactly when the caller spells the two names as the
factory does wherever it names them. -/
theorem makeInternalHttpClient_stamps_iff {κ : Type} (config : ClientConfig)
    (headers : Option (Dict String String)) (httpxKwargs : κ) (timeout : FloatValue) :
    (makeInternalHttpClient config headers httpxKwargs timeout).Stamps config
      ↔ SpelledAs (headers.getD []) envHeader
        ∧ (config.apiKey ≠ "" → SpelledAs (headers.getD []) "Authorization") := by
  obtain ⟨henv, hauth⟩ := filter_safetyHeaders config
  refine and_congr (carriesOnce_mergeHeaders_iff henv _) (forall_congr' fun hkey => ?_)
  exact carriesOnce_mergeHeaders_iff (hauth hkey) _

/-- **A caller's `x-environment` is sent as well**, as `setdefault` compares
names with their case. -/
theorem not_makeInternalHttpClient_stamps :
    ¬ (makeInternalHttpClient ⟨"prod", some "k"⟩ (some [("x-environment", "dev")]) ()).Stamps
      ⟨"prod", some "k"⟩ := by
  rintro ⟨⟨spelling, h⟩, -⟩
  have hfilter : (makeInternalHttpClient ⟨"prod", some "k"⟩ (some [("x-environment", "dev")])
      ()).headers.filter (fun e => sameHeader e.1 envHeader)
        = [("X-Environment", "prod"), ("x-environment", "dev")] := by decide
  rw [hfilter] at h
  cases h

/-! ## The verifier -/

/-- The `detail` of an `HTTPException`: a text, or the two environments. -/
inductive HTTPDetail where
  | text (s : String)
  | environmentMismatch (expected got : String)
  deriving DecidableEq

/-- `fastapi.HTTPException`. -/
structure HTTPException where
  statusCode : ℕ
  detail : HTTPDetail
  deriving DecidableEq

/-- How the dependency fails: with an `HTTPException`, or with what the
comparison raises. -/
inductive VerifyFailure where
  | http (e : HTTPException)
  | raised (exc : PyExc)
  deriving DecidableEq

/-- `_static_key or os.environ.get("INTERNAL_API_KEY", "")`. -/
def verifierKey (apiKey : Option String) (environ : Environ) : String :=
  if apiKey.getD "" ≠ "" then apiKey.getD "" else (environ "INTERNAL_API_KEY").getD ""

/-- The check of the environment, if one is configured. -/
def verifyEnvironment (environment got : Option String) : Except VerifyFailure Unit :=
  match environment with
  | none => .ok ()
  | some env =>
    if got ≠ some env then
      .error (.http ⟨403, .environmentMismatch env (got.getD "")⟩)
    else .ok ()

/-- **`make_api_key_verifier`**: the dependency it returns, on a bearer
credential and the `X-Environment` header of a request. -/
def makeApiKeyVerifier (apiKey environment : Option String) (environ : Environ)
    (credential : String) (got : Option String) : Except VerifyFailure String :=
  let key := verifierKey apiKey environ
  if key = "" then
    .error (.http ⟨500,
      .text "Service temporarily unavailable. Contact your administrator."⟩)
  else
    match compareDigest credential key with
    | .error exc => .error (.raised exc)
    | .ok false => .error (.http ⟨401, .text "Unauthorized"⟩)
    | .ok true =>
      match verifyEnvironment environment got with
      | .error e => .error e
      | .ok () => .ok credential

/-- **The verdict**: the status of the rejection, or none. -/
def verdict (key credential : String) (environment got : Option String) : Option ℕ :=
  if key = "" then some 500
  else if credential ≠ key then some 401
  else if environment ≠ none ∧ got ≠ environment then some 403
  else none

/-- **What the dependency is to do**: return the credential, or raise an
`HTTPException` with the status of the verdict. -/
def Decides (key credential : String) (environment got : Option String)
    (result : Except VerifyFailure String) : Prop :=
  match verdict key credential environment got with
  | none => result = .ok credential
  | some status => ∃ detail, result = .error (.http ⟨status, detail⟩)

/-- On strings of ASCII the comparison is equality. -/
theorem compareDigest_of_isAscii {a b : String} (ha : isAscii a = true) (hb : isAscii b = true) :
    compareDigest a b = .ok (a == b) := by
  rw [compareDigest, ha, hb]
  rfl

/-- On strings that are not both in ASCII it raises a `TypeError`, whether or
not they are equal. -/
theorem compareDigest_of_not_isAscii {a b : String} (h : ¬ (isAscii a = true ∧ isAscii b = true)) :
    ∃ msg, compareDigest a b = .error (.typeError msg) := by
  rw [compareDigest, if_neg (by simpa using h)]
  exact ⟨_, rfl⟩

/-- **When the dependency decides.** It returns the credential or raises the
`HTTPException` of the verdict exactly when there is no key, or key and
credential are strings of ASCII. -/
theorem makeApiKeyVerifier_decides_iff (apiKey environment : Option String) (environ : Environ)
    (credential : String) (got : Option String) :
    Decides (verifierKey apiKey environ) credential environment got
        (makeApiKeyVerifier apiKey environment environ credential got)
      ↔ verifierKey apiKey environ = ""
        ∨ isAscii credential = true ∧ isAscii (verifierKey apiKey environ) = true := by
  rw [Decides, verdict, makeApiKeyVerifier]
  generalize verifierKey apiKey environ = key
  by_cases hkey : key = ""
  · simp [hkey]
  · by_cases hascii : isAscii credential = true ∧ isAscii key = true
    · refine iff_of_true ?_ (Or.inr hascii)
      rw [if_neg hkey, if_neg hkey, compareDigest_of_isAscii hascii.1 hascii.2]
      by_cases hcred : credential = key
      · subst hcred
        rw [if_neg (not_not.mpr rfl), beq_self_eq_true]
        cases environment with
        | none => rfl
        | some env =>
          by_cases hgot : got = some env
          · rw [if_neg (fun h => h.2 hgot), hgot]
            simp [verifyEnvironment]
          · rw [if_pos ⟨Option.some_ne_none env, hgot⟩]
            exact ⟨.environmentMismatch env (got.getD ""), by simp [verifyEnvironment, hgot]⟩
      · rw [if_pos hcred, beq_false_of_ne hcred]
        exact ⟨_, rfl⟩
    · obtain ⟨msg, hraise⟩ := compareDigest_of_not_isAscii hascii
      refine iff_of_false ?_ (fun h => h.elim hkey hascii)
      rw [if_neg hkey, if_neg hkey, hraise]
      intro h
      split at h
      · cases h
      · obtain ⟨detail, h⟩ := h
        cases h

/-- **A credential outside ASCII raises a `TypeError`**, where the dependency is
to answer 401. -/
theorem not_makeApiKeyVerifier_decides :
    ¬ Decides (verifierKey (some "secret") (fun _ => none)) "é" (some "dev") (some "dev")
      (makeApiKeyVerifier (some "secret") (some "dev") (fun _ => none) "é" (some "dev")) := by
  have hverdict : verdict (verifierKey (some "secret") (fun _ => none)) "é" (some "dev")
      (some "dev") = some 401 := by decide
  rw [Decides, hverdict]
  rintro ⟨detail, h⟩
  have hraise : makeApiKeyVerifier (some "secret") (some "dev") (fun _ => none) "é" (some "dev")
      = .error (.raised (.typeError
          "comparing strings with non-ASCII characters is not supported")) := by decide
  rw [hraise] at h
  cases h
