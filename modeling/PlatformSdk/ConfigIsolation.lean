import PlatformSdk.ConfigLoader

/-!
# The environment of a loaded configuration

`ENVIRONMENT` selects the overlay; the `environment` field that is stamped on
outbound requests and policy input comes out of the YAML. Environment
isolation asks that the two be the same: a process whose `ENVIRONMENT` is not
one of the three, or whose files state another environment, has to fail to
start. `Isolated` says this of a load.

`load_config` compares the two nowhere. An unknown `ENVIRONMENT` selects an
overlay that is not there, which is allowed, and the default file's
`environment` is what validates. So a load is isolated exactly when the files
themselves agree with the process – `EnvironmentAgrees` – and
`not_load_isolated` is a directory that does not.
-/

/-- What a document states as its environment. -/
def statedEnvironment (t : Yaml) : Option Yaml := t.at? [.key (.str "environment")]

section Isolation

variable {α : Type}

/-- **Environment isolation** of a load: what is returned is of the process's
own environment, and a process of an unknown environment, or whose files
state another one, is refused with a `ConfigError`. -/
structure Isolated (environment : α → Environment) (files : Files) (environ : Environ)
    (load : Except LoadFailure α) : Prop where
  /-- What is returned is of the process's environment, one of the three. -/
  same : ∀ cfg, load = .ok cfg →
    environ "ENVIRONMENT" = some (environment cfg).toString
  /-- A process of another environment fails. -/
  unknown : (∀ e : Environment, environ "ENVIRONMENT" ≠ some e.toString) →
    ∃ err, load = .error (.configError err)
  /-- A process whose files state another environment fails. -/
  stated : ∀ e t v, environ "ENVIRONMENT" = some e →
    loadTree files environ (cfgDir none environ) e = .ok t →
    statedEnvironment t = some v → v ≠ Yaml.str e →
    ∃ err, load = .error (.configError err)

/-- **The files agree with the process**: a document the model accepts states
the environment that selected the overlay, and if reading a file raises, that
environment is one of the three. -/
def EnvironmentAgrees (validate : Yaml → Validated ErrorDetails α) (files : Files)
    (environ : Environ) : Prop :=
  ∀ e, envName none environ = .ok e →
    match loadTree files environ (cfgDir none environ) e with
    | .ok t => (∃ cfg, validate t = .ok cfg) → statedEnvironment t = some (Yaml.str e)
    | .error (.configError _) => True
    | .error (.raised _) => ∃ env : Environment, e = env.toString

/-- The name of the environment is `ENVIRONMENT` itself. -/
theorem envName_none_eq_ok_iff {environ : Environ} {e : String} :
    envName none environ = .ok e ↔ environ "ENVIRONMENT" = some e ∧ e ≠ "" := by
  unfold envName
  cases environ "ENVIRONMENT" with
  | none => simp
  | some e' =>
    by_cases h : e' = ""
    · subst h
      simp
    · split
      · next h' => exact absurd h' (by simp)
      · next h' => exact absurd (Option.some.inj h') h
      · next h' =>
        obtain rfl := Option.some.inj h'
        simpa using fun h'' => h'' ▸ h

variable {environment : α → Environment} {validate : Yaml → Validated ErrorDetails α}
  (isPrintable : Char → Bool)

/-- Without a name for the environment the load fails. -/
theorem loadConfig_of_envName_error {files : Files} {environ : Environ}
    (h : ∀ e, envName none environ ≠ .ok e) :
    ∃ err, loadConfig isPrintable validate files environ none none
      = .error (.configError err) := by
  unfold loadConfig envName
  unfold envName at h
  split
  · next e he =>
    revert he
    split
    · rintro ⟨rfl⟩; exact ⟨_, rfl⟩
    · rintro ⟨rfl⟩; exact ⟨_, rfl⟩
    · intro he; exact absurd he (by simp)
  · next e he => exact absurd he (h e)

/-- A refused load is isolated: it gives no configuration, so none that says
another environment than the process does. -/
theorem isolated_of_refused {files : Files} {environ : Environ} {load : Except LoadFailure α}
    (h : ∃ err, load = .error (.configError err)) : Isolated environment files environ load where
  same cfg hcfg := by
    obtain ⟨err, herr⟩ := h
    rw [herr] at hcfg
    cases hcfg
  unknown _ := h
  stated _ _ _ _ _ _ _ := h

/-- An isolated load has files that agree with the process. -/
theorem Isolated.environmentAgrees
    (hstated : ∀ t cfg, validate t = .ok cfg →
      statedEnvironment t = some (Yaml.str (environment cfg).toString))
    {files : Files} {environ : Environ}
    (h : Isolated environment files environ
      (loadConfig isPrintable validate files environ none none)) :
    EnvironmentAgrees validate files environ := by
  intro e he
  have henv := (envName_none_eq_ok_iff.mp he).1
  split
  · next t ht =>
    rintro ⟨cfg, hcfg⟩
    have hsame := h.same cfg ((loadConfig_eq_ok_iff isPrintable).mpr ⟨e, t, he, ht, hcfg⟩)
    rw [henv, Option.some.injEq] at hsame
    rw [hstated t cfg hcfg, hsame]
  · trivial
  · next exc hexc =>
    by_contra hno
    obtain ⟨err, herr⟩ := h.unknown fun env henv' => by
      rw [henv, Option.some.injEq] at henv'
      exact hno ⟨env, henv'⟩
    rw [loadConfig, he] at herr
    simp [hexc] at herr

/-- When reading a file raises, no configuration is returned and no document
states anything. -/
theorem isolated_of_raised {files : Files} {environ : Environ} {e : Environment} {exc : PyExc}
    (he : envName none environ = .ok e.toString)
    (hload : loadTree files environ (cfgDir none environ) e.toString = .error (.raised exc)) :
    Isolated environment files environ
      (loadConfig isPrintable validate files environ none none) where
  same cfg hcfg := by
    obtain ⟨e', t, he', ht, -⟩ := (loadConfig_eq_ok_iff isPrintable).mp hcfg
    obtain rfl := Except.ok.inj (he.symm.trans he')
    rw [hload] at ht
    cases ht
  unknown h := absurd (envName_none_eq_ok_iff.mp he).1 (h e)
  stated e' t v he' ht _ _ := by
    obtain rfl := Option.some.inj ((envName_none_eq_ok_iff.mp he).1.symm.trans he')
    rw [hload] at ht
    cases ht

/-- A document that states the process's environment makes the load
isolated. -/
theorem isolated_of_stated
    (hstated : ∀ t cfg, validate t = .ok cfg →
      statedEnvironment t = some (Yaml.str (environment cfg).toString))
    {files : Files} {environ : Environ} {e : String} {t : Yaml} {cfg : α}
    (he : envName none environ = .ok e)
    (hload : loadTree files environ (cfgDir none environ) e = .ok t)
    (hv : validate t = .ok cfg) (hstate : statedEnvironment t = some (Yaml.str e)) :
    Isolated environment files environ
      (loadConfig isPrintable validate files environ none none) := by
  have henv := (envName_none_eq_ok_iff.mp he).1
  have hcfg := hstated t cfg hv
  rw [hstate, Option.some.injEq, DocTree.leaf.injEq, YamlScalar.str.injEq] at hcfg
  refine ⟨fun cfg' hcfg' => ?_, fun h => absurd (hcfg ▸ henv) (h _), ?_⟩
  · obtain ⟨e', t', he', ht', hv'⟩ := (loadConfig_eq_ok_iff isPrintable).mp hcfg'
    obtain rfl := Except.ok.inj (he.symm.trans he')
    obtain rfl := Except.ok.inj (hload.symm.trans ht')
    obtain rfl := Except.ok.inj (hv.symm.trans hv')
    rw [henv, hcfg]
  · intro e' t' v he' ht' hv' hne'
    obtain rfl := Option.some.inj (henv.symm.trans he')
    obtain rfl := Except.ok.inj (hload.symm.trans ht')
    rw [hstate, Option.some.injEq] at hv'
    exact absurd hv'.symm hne'

/-- **A load is isolated exactly when the files agree with the process**, for
a model whose documents state their environment. -/
theorem isolated_loadConfig_iff
    (hstated : ∀ t cfg, validate t = .ok cfg →
      statedEnvironment t = some (Yaml.str (environment cfg).toString))
    (files : Files) (environ : Environ) :
    Isolated environment files environ
        (loadConfig isPrintable validate files environ none none)
      ↔ EnvironmentAgrees validate files environ := by
  refine ⟨fun h => h.environmentAgrees isPrintable hstated, fun h => ?_⟩
  by_cases hname : ∃ e, envName none environ = .ok e
  · obtain ⟨e, he⟩ := hname
    have hagree := h e he
    cases hload : loadTree files environ (cfgDir none environ) e with
    | error f =>
      rw [hload] at hagree
      cases f with
      | configError err =>
        refine isolated_of_refused ⟨err, ?_⟩
        rw [loadConfig, he]
        simp [hload]
      | raised exc =>
        obtain ⟨env, rfl⟩ := hagree
        exact isolated_of_raised isPrintable he hload
    | ok t =>
      rw [hload] at hagree
      cases hv : validate t with
      | error errs =>
        refine isolated_of_refused ?_
        rw [loadConfig, he]
        simp [hload, hv]
      | ok cfg => exact isolated_of_stated isPrintable hstated he hload hv (hagree ⟨cfg, hv⟩)
  · exact isolated_of_refused
      (loadConfig_of_envName_error isPrintable fun e he => hname ⟨e, he⟩)

end Isolation

/-- **Both configurations are isolated exactly when the files agree with the
process.** Validation checks that the `environment` field is one of the four
words, and nothing compares it with `ENVIRONMENT`; so a file that says another
word makes a process of one environment load the configuration of another. -/
theorem load_isolated_iff (isPrintable : Char → Bool) (c : Coercions) (files : Files)
    (environ : Environ) :
    (Isolated MCPConfig.environment files environ (MCPConfig.load isPrintable c files environ)
        ↔ EnvironmentAgrees (MCPConfig.modelValidate c) files environ)
      ∧ (Isolated AgentConfig.environment files environ
          (AgentConfig.load isPrintable c files environ)
        ↔ EnvironmentAgrees (AgentConfig.modelValidate c) files environ) := by
  refine ⟨isolated_loadConfig_iff isPrintable (fun t cfg h => ?_) files environ,
    isolated_loadConfig_iff isPrintable (fun t cfg h => ?_) files environ⟩
  · obtain ⟨d, rfl, hd⟩ := MCPConfig.environment_of_modelValidate h
    rw [statedEnvironment, DocTree.at?, hd]
    rfl
  · obtain ⟨d, rfl, hd⟩ := AgentConfig.environment_of_modelValidate h
    rw [statedEnvironment, DocTree.at?, hd]
    rfl

/-- A process started with `ENVIRONMENT=qa`, which is none of the four words. -/
def qaEnviron : Environ := fun name => if name = "ENVIRONMENT" then some "qa" else none

/-- A directory whose only file states `dev`. -/
def devDefaultFiles : Files := fun path =>
  if path = (PurePath.ofString "/app/config").join "default.yaml" then
    .document (.map [(.str "environment", Yaml.str "dev")])
  else .absent

/-- **A process of an unknown environment starts** with the environment its
default file states. -/
theorem not_load_isolated :
    ¬ Isolated MCPConfig.environment devDefaultFiles qaEnviron
        (MCPConfig.load (fun _ => true) Coercions.exact devDefaultFiles qaEnviron)
      ∧ ¬ Isolated AgentConfig.environment devDefaultFiles qaEnviron
        (AgentConfig.load (fun _ => true) Coercions.exact devDefaultFiles qaEnviron) := by
  refine ⟨fun h => ?_, fun h => ?_⟩
  · have hload : MCPConfig.load (fun _ => true) Coercions.exact devDefaultFiles qaEnviron
        = .ok { environment := .dev } := rfl
    exact absurd (h.same _ hload) (by decide)
  · have hload : AgentConfig.load (fun _ => true) Coercions.exact devDefaultFiles qaEnviron
        = .ok { environment := .dev } := rfl
    exact absurd (h.same _ hload) (by decide)
