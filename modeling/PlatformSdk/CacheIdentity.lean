import PlatformSdk.Cache
import PlatformSdk.McpAuth

/-!
# A cached tool and the identity of its caller

The key of a cached call is made of the name of the tool and its keyword
arguments, and of nothing else. A tool that also reads `get_agent_context()`
therefore shares its results among everyone who asks with the same arguments:
`cachedTool_leaks` is a run in which a colleague gets what the tool had
computed for the manager.

What the key does promise is `cachedTool_identity`. A value comes from a call
of the same tool with the same arguments, under the identity of that call; so
that where nobody else has asked the same, a caller gets a value of its own –
and the same one, whatever other identities have asked in the meantime. A tool
that takes the identity as an argument is in that case for good.
-/

namespace CacheState

variable {τ ι : Type}

/-- **Every value is the caller's own**: what the unwrapped tool returns under
the identity of the call. -/
def Own (tools : Tools τ ι) (t : CacheState τ ι) : Prop :=
  ∀ i r v, t.requests i = some r → t.phase i = .returned v → v = tools.result r

/-- Nobody else has asked the same: the calls of the same tool with the same
arguments are under one identity. -/
def Alone (t : CacheState τ ι) (r : Request τ ι) : Prop :=
  ∀ j r', t.requests j = some r' → r'.tool = r.tool → r'.kwargs.Same r.kwargs →
    r'.identity = r.identity

/-- The calls of the run pass no argument named `fn`. -/
def PlainRun (as : List (CacheEvent τ ι)) : Prop :=
  ∀ i r, .start i r ∈ as → "fn" ∉ r.kwargs.names

section Identity

variable {tools : Tools τ ι} {sha256 : List UInt8 → List UInt8}
variable {loads : String → Except PyExc Json}

/-- **Where a returned value comes from.** The tool produced it for those
arguments, in this call or in another one whose value was under the same key. -/
theorem returned_of_run (hsha : Function.Injective sha256) {cache : Option ToolResultCache}
    {now : ℚ} {as : List (CacheEvent τ ι)} (has : PlainRun as) {t : CacheState τ ι}
    (hrun : (machine tools sha256 loads).run { cache := cache, now := now } as = some t)
    {i : ℕ} {r : Request τ ι} {v : String} (hr : t.requests i = some r)
    (hv : t.phase i = .returned v) : Produced tools t.requests r.tool r.kwargs v := by
  have hvalue : (t.phase i).value? = some v := by rw [hv]; rfl
  exact (inv_run hsha has hrun).produced hr hvalue

/-- A caller who is alone with its question gets its own answer. -/
theorem own_of_alone {t : CacheState τ ι} {r : Request τ ι} {v : String}
    (h : Produced tools t.requests r.tool r.kwargs v) (halone : Alone t r) :
    v = tools.result r := by
  obtain ⟨j, r', hj, htool, hsame, rfl⟩ := h
  rw [halone j r' hj htool hsame, Tools.result]

/-- **What a caller can rely on.** In a run of calls without an argument named
`fn`, a returned value is what the tool produces for those arguments under
the identity of this call or of another one with the same arguments; it is
the caller's own if no other identity has asked the same; and two such runs,
whatever their other calls are, return the same value to a caller who asks
the same in both, if no other identity does. -/
theorem cachedTool_identity (tools : Tools τ ι) (hsha : Function.Injective sha256)
    (loads : String → Except PyExc Json) (cache : Option ToolResultCache) (now : ℚ)
    (as : List (CacheEvent τ ι)) (has : PlainRun as) (t : CacheState τ ι)
    (hrun : (machine tools sha256 loads).run { cache := cache, now := now } as = some t)
    (i : ℕ) (r : Request τ ι) (v : String) (hr : t.requests i = some r)
    (hv : t.phase i = .returned v) :
    (∃ j r', t.requests j = some r' ∧ r'.tool = r.tool ∧ r'.kwargs.Same r.kwargs
        ∧ v = tools.result { r with identity := r'.identity })
      ∧ (Alone t r → v = tools.result r)
      ∧ ∀ cache' now' as' t' i' v', PlainRun as' →
          (machine tools sha256 loads).run { cache := cache', now := now' } as' = some t' →
          t'.requests i' = some r → t'.phase i' = .returned v' → Alone t r → Alone t' r →
          v' = v := by
  have hproduced := returned_of_run hsha has hrun hr hv
  refine ⟨hproduced, own_of_alone hproduced, ?_⟩
  intro cache' now' as' t' i' v' has' hrun' hr' hv' halone halone'
  have hproduced' := returned_of_run hsha has' hrun' hr' hv'
  rw [own_of_alone hproduced halone, own_of_alone hproduced' halone']

end Identity

/-! ## Two callers of one tool -/

/-- A tool that tells who is asking. -/
def whoAmI : Tools Unit (Option (AgentContext Json)) where
  name _ := "who_am_i"
  fn _ a _ :=
    match a with
    | some { rmId := .leaf (.str rmId), .. } => rmId
    | _ => "nobody"
  name_injective := Function.injective_of_subsingleton _
  fn_congr _ _ _ _ _ := rfl

/-- A colleague of the manager, who differs from him by his id only. -/
def colleagueContext : AgentContext String := { managerContext with rmId := "rm-8" }

/-- The question, without arguments, under an identity. -/
def askedBy (c : AgentContext String) : Request Unit (Option (AgentContext Json)) :=
  ⟨(), some c.toJson, ⟨[], List.nodup_nil⟩⟩

/-- The answers of the sample tool are no error responses, and so are stored. -/
theorem isErrorResponse_askedBy (c : AgentContext String)
    (h : c ∈ [managerContext, colleagueContext]) :
    isErrorResponse findsNoJson (whoAmI.result (askedBy c)) = .ok false := by
  simp only [List.mem_cons, List.not_mem_nil, or_false] at h
  rcases h with rfl | rfl <;> decide +kernel

/-- **One caller gets what the tool computed for another.** The middleware
binds the manager to the first request and the colleague to the second. The
colleague is told `rm-7`, where the tool itself says `rm-8` – and where the
colleague is told `rm-8` in the run without the first request. -/
theorem cachedTool_leaks :
    (∀ c ∈ [managerContext, colleagueContext],
        getAgentContext keyedDigest decodeEncoded rotatingEnviron
          (AgentContext.toHeaderValue keyedDigest oldEnviron c.toJson) = (askedBy c).identity)
      ∧ (∃ t, (machine whoAmI id findsNoJson).run { cache := some freshCache, now := 0 }
            (missThenAsk (askedBy managerContext) (askedBy colleagueContext)) = some t
          ∧ ¬ Own whoAmI t ∧ t.phase 1 = .returned "rm-7")
      ∧ ∃ t', (machine whoAmI id findsNoJson).run { cache := some freshCache, now := 0 }
            (askAlone (askedBy colleagueContext)) = some t'
          ∧ t'.phase 1 = .returned "rm-8" := by
  refine ⟨fun c hc => ?_, ?_, ?_⟩
  · have hnew : AgentContext.new c = c := by
      simp only [List.mem_cons, List.not_mem_nil, or_false] at hc
      rcases hc with rfl | rfl <;> decide
    have h : getAgentContext keyedDigest decodeEncoded rotatingEnviron _ = _ :=
      getAgentContext_toHeaderValue decodesContexts_decodeEncoded oldSecret_mem_acceptedKeys c
    rwa [hnew] at h
  · have hkey : whoAmI.makeKey id (askedBy colleagueContext)
        = .ok (whoAmI.key id (askedBy managerContext)) := rfl
    obtain ⟨t, hrun, hreq, hphase⟩ :=
      run_missThenAsk id rfl hkey (isErrorResponse_askedBy managerContext List.mem_cons_self)
    refine ⟨t, hrun, fun hown => ?_, hphase⟩
    have hsame : "rm-7" = "rm-8" := hown 1 _ _ hreq hphase
    exact absurd hsame (by decide)
  · obtain ⟨t', hrun', -, hphase'⟩ := run_askAlone id rfl
      (isErrorResponse_askedBy colleagueContext (List.mem_cons_of_mem _ List.mem_cons_self))
    exact ⟨t', hrun', hphase'⟩

/-- The question with an argument, which makes it another key. -/
def askedInEnglish (c : AgentContext String) : Request Unit (Option (AgentContext Json)) :=
  ⟨(), some c.toJson, ⟨[("language", Json.str "en")], List.nodup_singleton _⟩⟩

/-- **Two callers with different arguments** get an answer each: the colleague
is alone with the question in English, and is told the same where the manager
has asked nothing at all. -/
theorem cachedTool_identity_colleague :
    ∃ t t', (machine whoAmI id findsNoJson).run { cache := some freshCache, now := 0 }
        (askInTurn (askedBy managerContext) (askedInEnglish colleagueContext)) = some t
      ∧ (machine whoAmI id findsNoJson).run { cache := some freshCache, now := 0 }
        (askAlone (askedInEnglish colleagueContext)) = some t'
      ∧ t.phase 0 = .returned "rm-7" ∧ t.phase 1 = .returned "rm-8"
      ∧ t'.phase 1 = .returned "rm-8"
      ∧ "rm-8" = whoAmI.result (askedInEnglish colleagueContext) := by
  have hok₀ : isErrorResponse findsNoJson (whoAmI.result (askedBy managerContext)) = .ok false :=
    isErrorResponse_askedBy managerContext List.mem_cons_self
  have hok₁ : isErrorResponse findsNoJson (whoAmI.result (askedInEnglish colleagueContext))
      = .ok false :=
    isErrorResponse_askedBy colleagueContext (List.mem_cons_of_mem _ List.mem_cons_self)
  have hdiffer : ¬ (askedBy managerContext).kwargs.Same
      (askedInEnglish colleagueContext).kwargs := by decide +kernel
  have hne : whoAmI.key id (askedBy managerContext)
      ≠ whoAmI.key id (askedInEnglish colleagueContext) := by
    intro h
    have hfn : "fn" ∉ (askedInEnglish colleagueContext).kwargs.names := by decide
    exact hdiffer ((cacheKey_eq_iff Function.injective_id List.not_mem_nil hfn).mp h).2
  obtain ⟨t, hrun, hreq, hphase₀, hphase₁⟩ := run_askInTurn id rfl rfl hne hok₀ hok₁
  obtain ⟨t', hrun', hreq', hphase'⟩ := run_askAlone id
    (r := askedInEnglish colleagueContext) rfl hok₁
  have hplain :
      PlainRun (askInTurn (askedBy managerContext) (askedInEnglish colleagueContext)) := by
    intro i r h
    simp [askInTurn, askAlone] at h
    rcases h with ⟨-, rfl⟩ | ⟨-, rfl⟩ <;> decide
  have hplain' : PlainRun (askAlone (askedInEnglish colleagueContext)) := by
    intro i r h
    simp [askAlone] at h
    obtain ⟨-, rfl⟩ := h
    decide
  have hr : t.requests 1 = some (askedInEnglish colleagueContext) := by
    rw [hreq, Function.update_self]
  have hr' : t'.requests 1 = some (askedInEnglish colleagueContext) := by
    rw [hreq', Function.update_self]
  have halone : Alone t (askedInEnglish colleagueContext) := by
    intro j r hj _ hsame
    rw [hreq] at hj
    by_cases h₁ : j = 1
    · rw [h₁, Function.update_self] at hj
      rw [← Option.some.inj hj]
    · rw [Function.update_of_ne h₁] at hj
      by_cases h₀ : j = 0
      · rw [h₀, Function.update_self] at hj
        exact absurd (Option.some.inj hj ▸ hsame) hdiffer
      · rw [Function.update_of_ne h₀] at hj
        cases hj
  have halone' : Alone t' (askedInEnglish colleagueContext) := by
    intro j r hj _ _
    rw [hreq'] at hj
    by_cases h : j = 1
    · rw [h, Function.update_self] at hj
      rw [← Option.some.inj hj]
    · rw [Function.update_of_ne h] at hj
      cases hj
  have hidentity := cachedTool_identity whoAmI Function.injective_id findsNoJson _ _ _ hplain t
    hrun 1 _ _ hr hphase₁
  refine ⟨t, t', hrun, hrun', hphase₀, hphase₁, ?_, hidentity.2.1 halone⟩
  have hsame := hidentity.2.2 _ _ _ t' 1 _ hplain' hrun' hr' hphase' halone halone'
  rw [hphase', hsame]
  rfl

end CacheState
