import PlatformSdk.ConfigLoader

/-!
# What a validation error discloses

A `ConfigError` of the validation phase quotes the offending input of every
failing field, and that input has been through substitution: where the file
says `${VAR}`, the quotation says what `VAR` was. A custom validator may
quote it a second time. So two processes that differ in the values of their
variables alone need not print the same text – `not_hidesValues` has two that
do not.

What the text depends on is just those inputs. If the documents' offending
parts contain no `${VAR}`, the two texts are the same
(`format_eq_of_noReference`): a secret resolved elsewhere in the document is
never printed. Nothing is asked of the model beyond what pydantic documents,
`ReportsOffending` and `WordsFromInput`, which `MCPConfig` and `AgentConfig`
have.
-/

/-- No string in the document has a reference in it. -/
def NoReference (t : Yaml) : Prop :=
  ∀ s, .str s ∈ t.leaves → references 0 (protect s) = []

/-- The two environments set the same variables. -/
def SameVariables (environ₁ environ₂ : Environ) : Prop :=
  ∀ name, (environ₁ name).isSome = (environ₂ name).isSome

/-! ## Text without references -/

/-- **A text without references is left alone**, whatever the environment
holds. -/
theorem resolveFrom_of_noReference (environ₁ environ₂ : Environ) (k : ℕ) (cs : List Char)
    (h : references k cs = []) : resolveFrom environ₁ k cs = resolveFrom environ₂ k cs := by
  induction cs generalizing k with
  | nil => cases k <;> rfl
  | cons c cs ih =>
    cases k with
    | succ k => exact ih k h
    | zero =>
      unfold references at h
      unfold resolveFrom
      cases hm : matchVar (c :: cs) with
      | some name => simp [hm] at h
      | none =>
        simp only [hm] at h ⊢
        rw [ih 0 h]

/-- **A document without references is substituted alike** in any two
environments. -/
theorem mapLeaves_substituteScalar_of_noReference (environ₁ environ₂ : Environ) {t : Yaml}
    (h : NoReference t) :
    t.mapLeaves (substituteScalar environ₁) = t.mapLeaves (substituteScalar environ₂) := by
  refine DocTree.mapLeaves_congr fun a ha => ?_
  cases a with
  | str s =>
    rw [substituteScalar, substituteScalar, substituteStr, substituteStr,
      resolveFrom_of_noReference environ₁ environ₂ 0 (protect s) (h s ha)]
  | null | bool b | int i | float r | other r b => rfl

/-- The offending input of a substituted document is the substituted
offending input. -/
theorem offending_mapLeaves (environ : Environ) (t : Yaml) (loc : List (DocTree.Step YamlKey)) :
    offending (t.mapLeaves (substituteScalar environ)) loc
      = (offending t loc).mapLeaves (substituteScalar environ) := by
  have hat := DocTree.at?_mapLeaves (substituteScalar environ) t loc
  have hdrop := DocTree.at?_mapLeaves (substituteScalar environ) t loc.dropLast
  unfold offending
  rw [hat, hdrop]
  -- a field that is not there is reported with what it is missing from
  have hmissing : (Option.map (DocTree.mapLeaves (substituteScalar environ))
        (t.at? loc.dropLast)).getD Yaml.null
      = DocTree.mapLeaves (substituteScalar environ)
        ((t.at? loc.dropLast).getD Yaml.null) := by
    cases t.at? loc.dropLast <;> rfl
  split
  · cases t.at? loc with
    | some v => rfl
    | none => exact hmissing
  · cases t.at? loc with
    | some v => rfl
    | none => exact hmissing
  · cases t.at? loc with
    | some v => rfl
    | none => exact hmissing
  · next k hk _ =>
    cases k with
    | str s => exact absurd rfl (hk s)
    | null | bool | int | float | other => rfl

/-! ## The text of an error -/

/-- Two lists with the same keys, and the same images wherever the keys are
the same, have the same images. -/
theorem map_eq_of_map_eq {α β γ : Type} {f : α → β} {g : α → γ} {xs ys : List α}
    (hf : xs.map f = ys.map f) (hg : ∀ x ∈ xs, ∀ y ∈ ys, f x = f y → g x = g y) :
    xs.map g = ys.map g := by
  induction xs generalizing ys with
  | nil =>
    cases ys with
    | nil => rfl
    | cons y ys => cases hf
  | cons x xs ih =>
    cases ys with
    | nil => cases hf
    | cons y ys =>
      rw [List.map_cons, List.map_cons, List.cons.injEq] at hf
      rw [List.map_cons, List.map_cons, hg x List.mem_cons_self y List.mem_cons_self hf.1,
        ih hf.2 fun x' hx y' hy => hg x' (List.mem_cons_of_mem x hx) y' (List.mem_cons_of_mem y hy)]

section Disclosure

variable {α : Type}

/-- **A load fails in its validation phase**: the files parse to `merged`,
every reference is set, the model reports `errors`, and `err` is raised. -/
structure FailsValidation (isPrintable : Char → Bool)
    (validate : Yaml → Validated ErrorDetails α) (files : Files)
    (environ : Environ) (configDir env : Option String) (merged : Dict YamlKey Yaml)
    (errors : List ErrorDetails) (err : ConfigError) : Prop where
  /-- The document is `merged`, its references resolved. -/
  loaded : ∃ name, envName env environ = .ok name
    ∧ parsePhase files ((cfgDir configDir environ).join "default.yaml")
        ((cfgDir configDir environ).join (name ++ ".yaml")) = .ok merged
    ∧ ∃ t, loadTree files environ (cfgDir configDir environ) name = .ok t
      ∧ validate t = .error errors
  /-- The load raises `err`. -/
  raises : loadConfig isPrintable validate files environ configDir env
    = .error (.configError err)

/-- **The values of variables are hidden**: two processes that set the same
variables, read the same pair of files and fail on the same fields print the
same text. -/
def HidesValues (isPrintable : Char → Bool) (validate : Yaml → Validated ErrorDetails α)
    (files : Files) (configDir env : Option String) : Prop :=
  ∀ environ₁ environ₂ merged errors₁ errors₂ err₁ err₂, SameVariables environ₁ environ₂ →
    envName env environ₁ = envName env environ₂ →
    cfgDir configDir environ₁ = cfgDir configDir environ₂ →
    FailsValidation isPrintable validate files environ₁ configDir env merged errors₁ err₁ →
    FailsValidation isPrintable validate files environ₂ configDir env merged errors₂ err₂ →
    errors₁.map ErrorDetails.loc = errors₂.map ErrorDetails.loc →
    err₁.format = err₂.format

variable {isPrintable : Char → Bool} {validate : Yaml → Validated ErrorDetails α}
  {files : Files} {configDir env : Option String} {merged : Dict YamlKey Yaml}
  {errors : List ErrorDetails} {err : ConfigError}

/-- What is validated is the substituted document, and what is raised lists
the model's problems. -/
theorem FailsValidation.eq {environ : Environ}
    (h : FailsValidation isPrintable validate files environ configDir env merged errors err) :
    validate (DocTree.mapLeaves (substituteScalar environ) (.map merged)) = .error errors
      ∧ err = ⟨unpackValidationError isPrintable errors
          ((cfgDir configDir environ).join "default.yaml"), ""⟩ := by
  obtain ⟨name, hname, hmerged, t, ht, hv⟩ := h.loaded
  obtain ⟨merged', hmerged', -, rfl⟩ := loadTree_eq_ok_iff.mp ht
  obtain rfl := Except.ok.inj (hmerged.symm.trans hmerged')
  refine ⟨hv, ?_⟩
  have hr := h.raises
  rw [loadConfig, hname] at hr
  simp only [ht, hv, Except.error.injEq, LoadFailure.configError.injEq] at hr
  exact hr.symm

/-- **One problem, in two environments.** Where the offending part of the
document has no reference, the same failing field is reported in the same
words with the same quotation. -/
theorem unpackError_eq_of_noReference (hr : ReportsOffending validate)
    (hw : WordsFromInput validate) {t : Yaml} {environ₁ environ₂ : Environ}
    {e₁ e₂ : ErrorDetails}
    (h₁ : e₁ ∈ (validate (t.mapLeaves (substituteScalar environ₁))).errors)
    (h₂ : e₂ ∈ (validate (t.mapLeaves (substituteScalar environ₂))).errors)
    (hloc : e₁.loc = e₂.loc) (hclean : NoReference (offending t e₁.loc)) (path : PurePath) :
    unpackError isPrintable path e₁ = unpackError isPrintable path e₂ := by
  have hinput : e₁.input = e₂.input := by
    rw [hr _ e₁ h₁, hr _ e₂ h₂, offending_mapLeaves, offending_mapLeaves, ← hloc]
    exact mapLeaves_substituteScalar_of_noReference environ₁ environ₂ hclean
  have hmsg : e₁.msg = e₂.msg := by
    refine hw _ _ e₁ h₁ e₂ h₂ hloc ?_ hinput
    rw [DocTree.at?_mapLeaves, DocTree.at?_mapLeaves, Option.isSome_map, Option.isSome_map]
  unfold unpackError
  rw [hloc, hinput, hmsg]

/-- **The text of a validation error depends on the offending inputs only.**
Two processes that read the same pair of files and fail on the same fields
print the same text, whatever their variables hold, if no reference stands in
the part of the document a failing field offends with. -/
theorem format_eq_of_noReference (hr : ReportsOffending validate) (hw : WordsFromInput validate)
    {environ₁ environ₂ : Environ} {errors₁ errors₂ : List ErrorDetails}
    {err₁ err₂ : ConfigError} (hdir : cfgDir configDir environ₁ = cfgDir configDir environ₂)
    (h₁ : FailsValidation isPrintable validate files environ₁ configDir env merged errors₁ err₁)
    (h₂ : FailsValidation isPrintable validate files environ₂ configDir env merged errors₂ err₂)
    (hfields : errors₁.map ErrorDetails.loc = errors₂.map ErrorDetails.loc)
    (hclean : ∀ e ∈ errors₁, NoReference (offending (.map merged) e.loc)) :
    err₁.format = err₂.format := by
  obtain ⟨hv₁, rfl⟩ := h₁.eq
  obtain ⟨hv₂, rfl⟩ := h₂.eq
  refine congrArg ConfigError.format (congrArg (ConfigError.mk · "") ?_)
  rw [hdir]
  refine map_eq_of_map_eq hfields fun e₁ he₁ e₂ he₂ hloc => ?_
  have hmem₁ :
      e₁ ∈ (validate (DocTree.mapLeaves (substituteScalar environ₁) (.map merged))).errors := by
    rw [hv₁]
    exact he₁
  have hmem₂ :
      e₂ ∈ (validate (DocTree.mapLeaves (substituteScalar environ₂) (.map merged))).errors := by
    rw [hv₂]
    exact he₂
  exact unpackError_eq_of_noReference hr hw hmem₁ hmem₂ hloc (hclean e₁ he₁) _

end Disclosure

/-! ## Two processes -/

/-- A directory whose only file is `default.yaml`. -/
def defaultFile (d : Dict YamlKey Yaml) : Files := fun path =>
  if path = (PurePath.ofString "/app/config").join "default.yaml" then .document (.map d)
  else .absent

/-- A process in `dev` with one further variable. -/
def devEnviron (name value : String) : Environ := fun n =>
  if n = "ENVIRONMENT" then some "dev" else if n = name then some value else none

/-- A document that takes its policy URL from the environment. -/
def opaUrlDocument : Dict YamlKey Yaml :=
  [(.str "environment", Yaml.str "dev"), (.str "opa_url", Yaml.str "$\x7bOPA_URL\x7d")]

/-- A document with a bad port that takes its password from the
environment. -/
def badPortDocument : Dict YamlKey Yaml :=
  [(.str "environment", Yaml.str "dev"), (.str "db_pass", Yaml.str "$\x7bDB_PASS\x7d"),
    (.str "port", .leaf (.int 0))]

/-- The problem a bad policy URL is reported as. -/
def opaUrlError (value : String) : ErrorDetails :=
  ⟨[.key (.str "opa_url")], "value_error",
    "Value error, opa_url must be an HTTP(S) URL, got: " ++ value, Yaml.str value⟩

/-- The problem a bad port is reported as. -/
def badPortError : ErrorDetails :=
  ⟨[.key (.str "port")], "greater_than", "Input should be greater than 0", .leaf (.int 0)⟩

example : (unpackError (fun _ => true) (PurePath.ofString "/app/config/default.yaml")
    (opaUrlError "ftp://a")).reason
      = "Value error, opa_url must be an HTTP(S) URL, got: ftp://a (got 'ftp://a')" := by decide

/-- Two environments that give one variable two values set the same
variables. -/
theorem sameVariables_devEnviron (name a b : String) :
    SameVariables (devEnviron name a) (devEnviron name b) := by
  intro n
  unfold devEnviron
  split
  · rfl
  · split <;> rfl

/-- The error of a load of `default.yaml` that has one problem. -/
def singleError (e : ErrorDetails) : ConfigError :=
  ⟨[unpackError (fun _ => true) (PurePath.ofString "/app/config/default.yaml") e], ""⟩

/-- **A value of the environment is printed**: two processes that differ in
`OPA_URL` alone print two texts. -/
theorem not_hidesValues :
    ¬ HidesValues (fun _ => true) (MCPConfig.modelValidate Coercions.exact)
        (defaultFile opaUrlDocument) none none := by
  intro h
  have h₁ : FailsValidation (fun _ => true) (MCPConfig.modelValidate Coercions.exact)
      (defaultFile opaUrlDocument) (devEnviron "OPA_URL" "ftp://a") none none opaUrlDocument
      [opaUrlError "ftp://a"] (singleError (opaUrlError "ftp://a")) :=
    ⟨⟨"dev", rfl, rfl, _, rfl, rfl⟩, rfl⟩
  have h₂ : FailsValidation (fun _ => true) (MCPConfig.modelValidate Coercions.exact)
      (defaultFile opaUrlDocument) (devEnviron "OPA_URL" "ftp://b") none none opaUrlDocument
      [opaUrlError "ftp://b"] (singleError (opaUrlError "ftp://b")) :=
    ⟨⟨"dev", rfl, rfl, _, rfl, rfl⟩, rfl⟩
  have heq := h _ _ _ _ _ _ _ (sameVariables_devEnviron "OPA_URL" "ftp://a" "ftp://b")
    rfl rfl h₁ h₂ rfl
  exact absurd heq (by decide +kernel)

/-- A bad port is reported in the same text whatever the password is. -/
theorem format_eq_badPort :
    ∃ err₁ err₂,
      MCPConfig.load (fun _ => true) Coercions.exact (defaultFile badPortDocument)
          (devEnviron "DB_PASS" "hunter2") = .error (.configError err₁)
        ∧ MCPConfig.load (fun _ => true) Coercions.exact (defaultFile badPortDocument)
          (devEnviron "DB_PASS" "swordfish") = .error (.configError err₂)
        ∧ err₁.format = err₂.format := by
  have h₁ : FailsValidation (fun _ => true) (MCPConfig.modelValidate Coercions.exact)
      (defaultFile badPortDocument) (devEnviron "DB_PASS" "hunter2") none none badPortDocument
      [badPortError] (singleError badPortError) :=
    ⟨⟨"dev", rfl, rfl, _, rfl, rfl⟩, rfl⟩
  have h₂ : FailsValidation (fun _ => true) (MCPConfig.modelValidate Coercions.exact)
      (defaultFile badPortDocument) (devEnviron "DB_PASS" "swordfish") none none badPortDocument
      [badPortError] (singleError badPortError) :=
    ⟨⟨"dev", rfl, rfl, _, rfl, rfl⟩, rfl⟩
  have hdir : cfgDir none (devEnviron "DB_PASS" "hunter2")
      = cfgDir none (devEnviron "DB_PASS" "swordfish") := rfl
  refine ⟨_, _, h₁.raises, h₂.raises,
    format_eq_of_noReference (MCPConfig.reportsOffending_modelValidate Coercions.exact)
      (MCPConfig.wordsFromInput_modelValidate Coercions.exact) hdir h₁ h₂ rfl
      fun e he s hs => ?_⟩
  rw [List.mem_singleton.mp he] at hs
  have hoff : (offending (.map badPortDocument) badPortError.loc).leaves = [.int 0] := rfl
  rw [hoff] at hs
  exact absurd hs (by simp)
