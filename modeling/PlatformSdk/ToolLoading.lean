import PlatformSdk.ToolSchemas

/-!
# Which tools a bridge refuses

`get_langchain_tools` makes a tool of everything the server lists. A schema with
`$ref`, `allOf`, `anyOf` or `oneOf` at its top is not one the bridge can make an
argument model from, and `_convert_schema` refuses it by name. It is asked only
about schemas with properties, however: one of the four without any comes back
as a tool without a schema.

`rejectsUnsupported_iff` says for which lists every such schema is refused.
-/

/-- **What the bridge raises**: `UnsupportedSchemaError`, with the tool and the
keyword, or an exception of Python's. -/
inductive BridgeExc where
  | unsupportedSchema (toolName keyword : String)
  | other (exc : PyExc)
  deriving DecidableEq

/-- **A tool as the server lists it.** -/
structure McpTool where
  name : String
  description : Option String
  inputSchema : Option (Dict String Json)

/-- `getattr(tool, "inputSchema", None) or {}`. -/
def McpTool.schema (tool : McpTool) : Dict String Json := tool.inputSchema.getD []

/-- **A `StructuredTool`**, as it is made, for a class `μ` of argument models. -/
structure StructuredTool (μ : Type) where
  coroutine : Option String → Dict String Json → CallOutcome → String × List ToolCall
  name : String
  description : String
  argsSchema : Option μ

/-- `_UNSUPPORTED_TOPLEVEL_KEYWORDS`. -/
def unsupportedToplevelKeywords : List String := ["$ref", "allOf", "anyOf", "oneOf"]

/-- **`_convert_schema`**: a schema with one of the four keywords at its top is
refused, any other is translated. -/
def convertSchema {μ : Type} (createModel : Dict String ArgsField → Except PyExc μ) (frames : ℕ)
    (toolName : String) (schema : Dict String Json) : Except BridgeExc μ :=
  match unsupportedToplevelKeywords.find? (fun kw => kw ∈ schema.keys) with
  | some kw => .error (.unsupportedSchema toolName kw)
  | none => (buildArgsModel createModel frames schema).mapError .other

section Bridge

variable {μ : Type} (createModel : Dict String ArgsField → Except PyExc μ) (frames : ℕ)
  (bridge : Bridge) (bridgeSessionId : Option String) (userCtx : Option UserContext)

/-- `tool.description or f"Executes the {tool.name} tool."`. -/
def McpTool.describe (tool : McpTool) : String :=
  match tool.description with
  | none | some "" => "Executes the " ++ tool.name ++ " tool."
  | some description => description

/-- One round of the loop over the tools. -/
def loadTool (tool : McpTool) : Except BridgeExc (StructuredTool μ) :=
  match makeInvokeFn bridge tool.name tool.schema bridgeSessionId userCtx with
  | .error exc => .error (.other exc)
  | .ok invokeFn =>
    let made : StructuredTool μ := ⟨invokeFn, tool.name, tool.describe, none⟩
    if ((tool.schema.get? "properties").getD Json.null).truthy then
      (convertSchema createModel frames tool.name tool.schema).map fun model =>
        { made with argsSchema := some model }
    else .ok made

/-- The loop over the tools, which ends with the first that raises. -/
def loadTools : List McpTool → Except BridgeExc (List (StructuredTool μ))
  | [] => .ok []
  | tool :: tools =>
    (loadTool createModel frames bridge bridgeSessionId userCtx tool).bind fun made =>
      (loadTools tools).map fun rest => made :: rest

/-- **`get_langchain_tools`**, for a server that lists `tools`. -/
def getLangchainTools (tools : List McpTool) : Except BridgeExc (List (StructuredTool μ)) :=
  if bridge.connected then loadTools createModel frames bridge bridgeSessionId userCtx tools
  else .ok []

end Bridge

/-! ## What is refused -/

/-- **A schema the bridge cannot translate**: one of the keywords is at its
top. -/
def Unsupported (tool : McpTool) : Prop :=
  ∃ kw ∈ unsupportedToplevelKeywords, kw ∈ tool.schema.keys

/-- `"session_id"` can be looked for in the properties. -/
def HasScope (tool : McpTool) : Prop := ∃ b, isSessionScoped tool.schema = .ok b

/-- The schema has properties, so that it comes to be converted. -/
def HasProperties (tool : McpTool) : Prop :=
  ((tool.schema.get? "properties").getD Json.null).truthy = true

instance : DecidablePred HasProperties := fun _ => inferInstanceAs (Decidable (_ = true))

/-- **A tool that is made**: its scope can be told, and if there are properties,
no keyword is at the top of its schema and the argument model is made from
it. -/
def IsLoaded {μ : Type} (createModel : Dict String ArgsField → Except PyExc μ) (frames : ℕ)
    (tool : McpTool) : Prop :=
  HasScope tool ∧ (HasProperties tool →
    ¬ Unsupported tool ∧ ∃ model, buildArgsModel createModel frames tool.schema = .ok model)

/-- **Every schema the bridge cannot translate is refused**: none of the tools
it returns has one, and where the server lists one, the exception names such a
tool and its keyword. -/
structure RejectsUnsupported {μ : Type} (tools : List McpTool)
    (outcome : Except BridgeExc (List (StructuredTool μ))) : Prop where
  returned : ∀ result, outcome = .ok result → ∀ tool ∈ tools, ¬ Unsupported tool
  raised : (∃ tool ∈ tools, Unsupported tool) → ∃ tool ∈ tools,
    ∃ kw ∈ unsupportedToplevelKeywords, kw ∈ tool.schema.keys
      ∧ outcome = .error (.unsupportedSchema tool.name kw)

section Loading

variable {μ : Type} {createModel : Dict String ArgsField → Except PyExc μ} {frames : ℕ}
  {bridge : Bridge} {bridgeSessionId : Option String} {userCtx : Option UserContext}

variable (createModel frames bridge bridgeSessionId userCtx)

/-- `_convert_schema` finds a keyword where there is one. -/
theorem convertSchema_of_unsupported {tool : McpTool} (h : Unsupported tool) :
    ∃ kw ∈ unsupportedToplevelKeywords, kw ∈ tool.schema.keys
      ∧ convertSchema createModel frames tool.name tool.schema
        = .error (.unsupportedSchema tool.name kw) := by
  obtain ⟨kw, hkw, hmem⟩ := h
  have hsome : (unsupportedToplevelKeywords.find? fun kw => kw ∈ tool.schema.keys).isSome := by
    rw [List.find?_isSome]
    exact ⟨kw, hkw, decide_eq_true hmem⟩
  obtain ⟨first, hfirst⟩ := Option.isSome_iff_exists.mp hsome
  have hdec : decide (first ∈ tool.schema.keys) = true :=
    List.find?_some (p := fun kw => decide (kw ∈ tool.schema.keys)) hfirst
  refine ⟨first, List.mem_of_find?_eq_some hfirst, of_decide_eq_true hdec, ?_⟩
  rw [convertSchema, hfirst]

/-- A schema without such a keyword at its top level goes on to its argument
model. -/
theorem convertSchema_of_not_unsupported {tool : McpTool} (h : ¬ Unsupported tool) :
    convertSchema createModel frames tool.name tool.schema
      = (buildArgsModel createModel frames tool.schema).mapError .other := by
  have hnone : unsupportedToplevelKeywords.find? (fun kw => kw ∈ tool.schema.keys) = none := by
    rw [List.find?_eq_none]
    exact fun kw hkw hmem => h ⟨kw, hkw, of_decide_eq_true hmem⟩
  rw [convertSchema, hnone]

/-- One round, where the scope can be told. -/
theorem loadTool_of_hasScope {tool : McpTool} (h : HasScope tool) :
    ∃ fn, loadTool createModel frames bridge bridgeSessionId userCtx tool
      = if HasProperties tool then
          (convertSchema createModel frames tool.name tool.schema).map fun model =>
            ⟨fn, tool.name, tool.describe, some model⟩
        else .ok ⟨fn, tool.name, tool.describe, none⟩ := by
  obtain ⟨b, hb⟩ := h
  obtain ⟨fn, hfn⟩ : ∃ fn,
      makeInvokeFn bridge tool.name tool.schema bridgeSessionId userCtx = .ok fn := by
    rw [makeInvokeFn, hb]
    exact ⟨_, rfl⟩
  refine ⟨fn, ?_⟩
  rw [loadTool, hfn]
  rfl

/-- And where `session_id` cannot be looked for, in a number or a `null`, the
tool is not made. -/
theorem loadTool_of_not_hasScope {tool : McpTool} (h : ¬ HasScope tool) :
    ∃ exc, loadTool createModel frames bridge bridgeSessionId userCtx tool
      = .error (.other exc) := by
  cases hb : isSessionScoped tool.schema with
  | ok b => exact absurd ⟨b, hb⟩ h
  | error exc =>
    refine ⟨exc, ?_⟩
    rw [loadTool, makeInvokeFn, hb]
    rfl

/-- **When a tool is refused**, by its name: it cannot be translated, and comes to
be converted. -/
theorem loadTool_of_unsupported {tool : McpTool} (h : Unsupported tool) (hs : HasScope tool)
    (hp : HasProperties tool) :
    ∃ kw ∈ unsupportedToplevelKeywords, kw ∈ tool.schema.keys
      ∧ loadTool createModel frames bridge bridgeSessionId userCtx tool
        = .error (.unsupportedSchema tool.name kw) := by
  obtain ⟨kw, hkw, hmem, hconvert⟩ := convertSchema_of_unsupported createModel frames h
  obtain ⟨fn, hload⟩ := loadTool_of_hasScope createModel frames bridge bridgeSessionId userCtx hs
  refine ⟨kw, hkw, hmem, ?_⟩
  rw [hload, if_pos hp, hconvert]
  rfl

/-- **When a tool is made**, and how it fails to be: refused by its name where it
cannot be translated, and with another exception elsewhere. -/
theorem loadTool_cases (tool : McpTool) :
    (IsLoaded createModel frames tool
        ∧ ∃ made, loadTool createModel frames bridge bridgeSessionId userCtx tool = .ok made)
      ∨ (Unsupported tool ∧ HasScope tool ∧ HasProperties tool
        ∧ ∃ kw, loadTool createModel frames bridge bridgeSessionId userCtx tool
          = .error (.unsupportedSchema tool.name kw))
      ∨ (¬ IsLoaded createModel frames tool
        ∧ ∃ exc, loadTool createModel frames bridge bridgeSessionId userCtx tool
          = .error (.other exc)) := by
  by_cases hs : HasScope tool
  · by_cases hu : Unsupported tool
    · by_cases hp : HasProperties tool
      · obtain ⟨kw, -, -, hload⟩ :=
          loadTool_of_unsupported createModel frames bridge bridgeSessionId userCtx hu hs hp
        exact .inr (.inl ⟨hu, hs, hp, kw, hload⟩)
      · obtain ⟨fn, hload⟩ :=
          loadTool_of_hasScope createModel frames bridge bridgeSessionId userCtx hs
        exact .inl ⟨⟨hs, fun h => absurd h hp⟩, _, hload.trans (if_neg hp)⟩
    · obtain ⟨fn, hload⟩ :=
        loadTool_of_hasScope createModel frames bridge bridgeSessionId userCtx hs
      by_cases hp : HasProperties tool
      · rw [if_pos hp, convertSchema_of_not_unsupported createModel frames hu] at hload
        cases hm : buildArgsModel createModel frames tool.schema with
        | ok model =>
          rw [hm] at hload
          exact .inl ⟨⟨hs, fun _ => ⟨hu, model, hm⟩⟩, _, hload⟩
        | error exc =>
          rw [hm] at hload
          refine .inr (.inr ⟨fun h => ?_, exc, hload⟩)
          obtain ⟨-, model, hmodel⟩ := h.2 hp
          cases hm.symm.trans hmodel
      · exact .inl ⟨⟨hs, fun h => absurd h hp⟩, _, hload.trans (if_neg hp)⟩
  · obtain ⟨exc, hload⟩ :=
      loadTool_of_not_hasScope createModel frames bridge bridgeSessionId userCtx hs
    exact .inr (.inr ⟨fun h => hs h.1, exc, hload⟩)

variable {createModel frames bridge bridgeSessionId userCtx}

/-- A tool is made exactly when its schema says so. -/
theorem loadTool_ok_iff {tool : McpTool} :
    (∃ made, loadTool createModel frames bridge bridgeSessionId userCtx tool = .ok made)
      ↔ IsLoaded createModel frames tool := by
  rcases loadTool_cases createModel frames bridge bridgeSessionId userCtx tool with
    ⟨hl, hmade⟩ | ⟨hu, hs, hp, kw, hload⟩ | ⟨hl, exc, hload⟩
  · exact iff_of_true hmade hl
  · refine iff_of_false (fun h => ?_) fun hl => (hl.2 hp).1 hu
    obtain ⟨made, hmade⟩ := h
    cases hmade.symm.trans hload
  · refine iff_of_false (fun h => ?_) hl
    obtain ⟨made, hmade⟩ := h
    cases hmade.symm.trans hload

/-- **The loop ends at the first tool that is not made.** -/
theorem loadTools_of_error {pre : List McpTool} (post : List McpTool) {t : McpTool}
    {exc : BridgeExc} (hpre : ∀ u ∈ pre, IsLoaded createModel frames u)
    (ht : loadTool createModel frames bridge bridgeSessionId userCtx t = .error exc) :
    loadTools createModel frames bridge bridgeSessionId userCtx (pre ++ t :: post)
      = .error exc := by
  induction pre with
  | nil =>
    rw [List.nil_append, loadTools, ht]
    rfl
  | cons u pre ih =>
    obtain ⟨made, hmade⟩ := loadTool_ok_iff.mpr (hpre u List.mem_cons_self)
    rw [List.cons_append, loadTools, hmade]
    show ((loadTools createModel frames bridge bridgeSessionId userCtx (pre ++ t :: post)).map _)
      = _
    rw [ih fun v hv => hpre v (List.mem_cons_of_mem u hv)]
    rfl

/-- And where there is such an exception, there is such a tool. -/
theorem exists_of_loadTools_error {tools : List McpTool} {exc : BridgeExc}
    (h : loadTools createModel frames bridge bridgeSessionId userCtx tools = .error exc) :
    ∃ pre t post, tools = pre ++ t :: post ∧ (∀ u ∈ pre, IsLoaded createModel frames u)
      ∧ loadTool createModel frames bridge bridgeSessionId userCtx t = .error exc := by
  induction tools with
  | nil => cases h
  | cons u tools ih =>
    rw [loadTools] at h
    cases hu : loadTool createModel frames bridge bridgeSessionId userCtx u with
    | error exc' =>
      rw [hu] at h
      obtain rfl := Except.error.inj (show Except.error exc' = .error exc from h)
      exact ⟨[], u, tools, rfl, fun v hv => absurd hv List.not_mem_nil, hu⟩
    | ok made =>
      rw [hu] at h
      cases hrest : loadTools createModel frames bridge bridgeSessionId userCtx tools with
      | ok rest =>
        have hmap : (Except.ok (made :: rest) : Except BridgeExc _) = .error exc := by
          rw [← h]
          show _ = (loadTools createModel frames bridge bridgeSessionId userCtx tools).map _
          rw [hrest]
          rfl
        cases hmap
      | error exc' =>
        have hmap : (Except.error exc' : Except BridgeExc (List (StructuredTool μ)))
            = .error exc := by
          rw [← h]
          show _ = (loadTools createModel frames bridge bridgeSessionId userCtx tools).map _
          rw [hrest]
          rfl
        obtain rfl := Except.error.inj hmap
        obtain ⟨pre, t, post, rfl, hpre, ht⟩ := ih hrest
        refine ⟨u :: pre, t, post, rfl, fun v hv => ?_, ht⟩
        rcases List.mem_cons.mp hv with rfl | hv
        · exact loadTool_ok_iff.mp ⟨made, hu⟩
        · exact hpre v hv

/-- **When every schema the bridge cannot translate is refused**: there is none,
or the first tool that is not made is one that has properties. The check is made
only where there are properties to convert. -/
theorem rejectsUnsupported_iff (hconn : bridge.connected = true) (tools : List McpTool) :
    RejectsUnsupported tools
        (getLangchainTools createModel frames bridge bridgeSessionId userCtx tools)
      ↔ (∀ t ∈ tools, ¬ Unsupported t)
        ∨ ∃ pre t post, tools = pre ++ t :: post ∧ (∀ u ∈ pre, IsLoaded createModel frames u)
          ∧ Unsupported t ∧ HasScope t ∧ HasProperties t := by
  rw [getLangchainTools, if_pos hconn]
  constructor
  · intro h
    by_cases hnone : ∀ t ∈ tools, ¬ Unsupported t
    · exact .inl hnone
    · push Not at hnone
      obtain ⟨tool, -, kw, -, -, hraised⟩ := h.raised hnone
      obtain ⟨pre, t, post, rfl, hpre, ht⟩ := exists_of_loadTools_error hraised
      rcases loadTool_cases createModel frames bridge bridgeSessionId userCtx t with
        ⟨-, made, hmade⟩ | ⟨hu, hs, hp, -⟩ | ⟨-, exc, hexc⟩
      · cases hmade.symm.trans ht
      · exact .inr ⟨pre, t, post, rfl, hpre, hu, hs, hp⟩
      · cases hexc.symm.trans ht
  · rintro (hnone | ⟨pre, t, post, rfl, hpre, hu, hs, hp⟩)
    · refine ⟨fun _ _ => hnone, fun hsome => ?_⟩
      obtain ⟨tool, hmem, hu⟩ := hsome
      exact absurd hu (hnone tool hmem)
    · obtain ⟨kw, hkw, hmem, hload⟩ :=
        loadTool_of_unsupported createModel frames bridge bridgeSessionId userCtx hu hs hp
      have herror := loadTools_of_error post hpre hload
      refine ⟨fun result hresult => ?_, fun _ => ⟨t, by simp, kw, hkw, hmem, herror⟩⟩
      cases hresult.symm.trans herror

end Loading

/-- A tool whose schema is a reference, with properties or without. -/
def refTool (properties : Dict String Json) : McpTool where
  name := "search"
  description := none
  inputSchema := some (if properties = [] then [("$ref", Json.str "#/$defs/Query")]
    else [("$ref", Json.str "#/$defs/Query"), ("properties", .map properties)])

theorem rejectsUnsupported_refTool :
    RejectsUnsupported [refTool [("q", .map [])]]
      (getLangchainTools Except.ok 900 demoBridge none none [refTool [("q", .map [])]]) :=
  (rejectsUnsupported_iff rfl [refTool [("q", .map [])]]).mpr
    (.inr ⟨[], _, [], rfl, fun u hu => absurd hu List.not_mem_nil, ⟨"$ref", by decide, by decide⟩,
      ⟨_, rfl⟩, by decide⟩)

/-- **A reference without properties is not refused**: the tool is returned,
without a schema. -/
theorem not_rejectsUnsupported_refTool :
    Unsupported (refTool [])
      ∧ (∃ made, getLangchainTools Except.ok 900 demoBridge none none [refTool []] = .ok [made]
        ∧ made.name = "search" ∧ made.argsSchema = none)
      ∧ ¬ RejectsUnsupported [refTool []]
        (getLangchainTools Except.ok 900 demoBridge none none [refTool []]) := by
  have hu : Unsupported (refTool []) := ⟨"$ref", by decide, by decide⟩
  exact ⟨hu, ⟨_, rfl, rfl, rfl⟩, fun h => h.returned _ rfl _ List.mem_cons_self hu⟩
