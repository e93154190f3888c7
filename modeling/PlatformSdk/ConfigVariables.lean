import Mathlib.Logic.Function.DependsOn
import PlatformSdk.Blame

/-!
# The variables a configuration is made of

A load reads the process environment in one place, where it resolves the
references of the merged mapping. So a process that changes a variable no
string refers to loads the same configuration, or fails in the same way; and
neither does a variable matter that `default.yaml` refers to in a value the
overlay replaces.

`dependsOn_loadConfig_iff` says that this is all that can be said: the
variables of the leaves that survive the merge – `Survives` – are the least set
a load depends on, whatever the model makes of its values. Each of them has to
be set, and that alone decides between two outcomes that are never the same.
-/

/-! ## References -/

/-- What a text resolves to depends on the variables it refers to. -/
theorem resolveFrom_congr {environ environ' : Environ} (k : ℕ) (cs : List Char)
    (h : ∀ name ∈ references k cs, environ (String.ofList name) = environ' (String.ofList name)) :
    resolveFrom environ k cs = resolveFrom environ' k cs := by
  induction cs generalizing k with
  | nil => cases k <;> rfl
  | cons c cs ih =>
    cases k with
    | succ k => exact ih k h
    | zero =>
      unfold references at h
      unfold resolveFrom
      cases hm : matchVar (c :: cs) with
      | some name =>
        simp only [hm, List.forall_mem_cons] at h ⊢
        rw [h.1, ih _ h.2]
      | none =>
        simp only [hm] at h ⊢
        rw [ih 0 h]

/-- **The variables a scalar refers to.** -/
def YamlScalar.varNames : YamlScalar → List String
  | .str s => (references 0 (protect s)).map String.ofList
  | _ => []

/-- What a scalar becomes depends on them. -/
theorem substituteScalar_congr {environ environ' : Environ} (a : YamlScalar)
    (h : ∀ x ∈ a.varNames, environ x = environ' x) :
    substituteScalar environ a = substituteScalar environ' a := by
  cases a with
  | str s =>
    have hs : resolveFrom environ 0 (protect s) = resolveFrom environ' 0 (protect s) :=
      resolveFrom_congr 0 _ (fun name hname => h _ (List.mem_map_of_mem hname))
    rw [substituteScalar, substituteScalar, substituteStr, substituteStr, hs]
  | null | bool b | int i | float r | other r b => rfl

/-- And so do its problems: a reference is missing in both environments or in
neither. -/
theorem scalarErrors_congr {environ environ' : Environ} (sourcePath : PurePath) (a : YamlScalar)
    (h : ∀ x ∈ a.varNames, environ x = environ' x) :
    scalarErrors environ sourcePath a = scalarErrors environ' sourcePath a := by
  cases a with
  | str s =>
    refine congrArg _ (List.filter_congr (fun name hname => ?_))
    rw [h _ (List.mem_map_of_mem hname)]
  | null | bool b | int i | float r | other r b => rfl

/-- **A scalar has no problem when its variables are set.** -/
theorem scalarErrors_eq_nil_iff (environ : Environ) (sourcePath : PurePath) (a : YamlScalar) :
    scalarErrors environ sourcePath a = [] ↔ ∀ x ∈ a.varNames, environ x ≠ none := by
  cases a with
  | str s =>
    show (missingVars environ s).map (missingVar sourcePath) = []
      ↔ ∀ x ∈ (references 0 (protect s)).map String.ofList, environ x ≠ none
    rw [List.map_eq_nil_iff, missingVars, List.filter_eq_nil_iff, List.forall_mem_map]
    simp only [Option.isNone_iff_eq_none, ne_eq]
  | null | bool b | int i | float r | other r b =>
    exact iff_of_true rfl (fun x hx => absurd hx List.not_mem_nil)

namespace Yaml

/-- **The variables a document refers to.** -/
def varNames (t : Yaml) : Set String := {x | ∃ a ∈ t.leaves, x ∈ a.varNames}

end Yaml

section Substitute

variable (sourcePath : PurePath) (t : Yaml)

/-- **What a document becomes depends on its variables.** -/
theorem dependsOn_substitute :
    DependsOn (fun environ => substitute environ sourcePath t) t.varNames := by
  intro environ environ' h
  refine Prod.ext ?_ ?_
  · rw [substitute_fst, substitute_fst]
    exact DocTree.mapLeaves_congr
      (fun a ha => substituteScalar_congr a (fun x hx => h x ⟨a, ha, hx⟩))
  · rw [substitute_snd, substitute_snd]
    exact List.flatMap_congr
      (fun a ha => scalarErrors_congr sourcePath a (fun x hx => h x ⟨a, ha, hx⟩))

/-- There is no problem when they are set. -/
theorem substitute_snd_eq_nil_iff (environ : Environ) :
    (substitute environ sourcePath t).2 = [] ↔ ∀ x ∈ t.varNames, environ x ≠ none := by
  rw [substitute_snd, List.flatMap_eq_nil_iff]
  constructor
  · rintro h x ⟨a, ha, hx⟩
    exact (scalarErrors_eq_nil_iff environ sourcePath a).mp (h a ha) x hx
  · intro h a ha
    exact (scalarErrors_eq_nil_iff environ sourcePath a).mpr (fun x hx => h x ⟨a, ha, hx⟩)

end Substitute

/-! ## What survives the merge -/

/-- **A leaf that survives the merge**: one of the overlay, or one of the base
that the overlay neither has a value for nor cuts off. -/
def Survives (base overlay : Dict YamlKey Yaml) (p : List KeyValue) (v : Yaml) : Prop :=
  Yaml.LeafAt (.map overlay) p v
    ∨ Yaml.LeafAt (.map base) p v ∧ Yaml.valueAt (.map overlay) p = none
      ∧ ¬ Yaml.CutAt (.map overlay) p

/-- **The variables of a merge** are those of the leaves that survive it. -/
theorem mem_varNames_deepMerge_iff {base overlay : Dict YamlKey Yaml}
    (hbase : Yaml.distinct (.map base) = true) (hoverlay : Yaml.distinct (.map overlay) = true)
    {x : String} :
    x ∈ Yaml.varNames (.map (deepMerge base overlay))
      ↔ ∃ p v, Survives base overlay p v ∧ x ∈ v.varNames := by
  have hdistinct := Yaml.distinct_deepMerge hbase hoverlay
  constructor
  · rintro ⟨a, ha, hx⟩
    rw [Yaml.leaves_eq_flatMap_leafPaths] at ha
    obtain ⟨⟨p, v⟩, hleaf, ha⟩ := List.mem_flatMap.mp ha
    have hat := (Yaml.mem_leafPaths_iff hdistinct).mp hleaf
    exact ⟨p, v, (leafAt_deepMerge hoverlay base p v).mp hat, a, ha, hx⟩
  · rintro ⟨p, v, hsurvives, a, ha, hx⟩
    have hleaf := (leafAt_deepMerge hoverlay base p v).mpr hsurvives
    exact ⟨a, mem_leaves_of_leafAt hdistinct hleaf ha, hx⟩

/-! ## The load -/

section Load

variable {files : Files} {dir : PurePath} {name : String}

/-- **A load reads the environment where it resolves references**, and nowhere
else. -/
theorem loadTree_congr {environ environ' : Environ}
    (h : ∀ merged, parsePhase files (dir.join "default.yaml") (dir.join (name ++ ".yaml"))
        = .ok merged → ∀ x ∈ Yaml.varNames (.map merged), environ x = environ' x) :
    loadTree files environ dir name = loadTree files environ' dir name := by
  rw [loadTree, loadTree]
  cases hparse : parsePhase files (dir.join "default.yaml") (dir.join (name ++ ".yaml")) with
  | error e => rfl
  | ok merged =>
    have hsame := dependsOn_substitute (dir.join "default.yaml") (.map merged) (h merged hparse)
    simp only at hsame ⊢
    rw [hsame]

variable {merged : Dict YamlKey Yaml}

/-- A variable of the merge that is not set ends the load with the hint of that
phase. -/
theorem loadTree_of_unset
    (h : parsePhase files (dir.join "default.yaml") (dir.join (name ++ ".yaml")) = .ok merged)
    (environ : Environ) {x : String} (hx : x ∈ Yaml.varNames (.map merged))
    (hunset : environ x = none) :
    ∃ errors, loadTree files environ dir name
      = .error (.configError ⟨errors, substituteHint⟩) := by
  refine ⟨_, (loadTree_eq_error_iff h).mpr ⟨fun hnil => ?_, rfl⟩⟩
  exact (substitute_snd_eq_nil_iff _ _ environ).mp hnil x hx hunset

/-- Where all of them are set the load gets past it. -/
theorem loadTree_of_set
    (h : parsePhase files (dir.join "default.yaml") (dir.join (name ++ ".yaml")) = .ok merged)
    (environ : Environ) (hset : ∀ x ∈ Yaml.varNames (.map merged), environ x ≠ none) :
    ∃ t, loadTree files environ dir name = .ok t :=
  ⟨_, loadTree_eq_ok_iff.mpr
    ⟨merged, h, (substitute_snd_eq_nil_iff _ _ environ).mpr hset, rfl⟩⟩

end Load

/-- An environment that is given is not looked up. -/
theorem envName_some {name : String} (hname : name ≠ "") (environ : Environ) :
    envName (some name) environ = .ok name := by
  unfold envName
  split
  · next h => cases h
  · next h => exact absurd (Option.some.inj h) hname
  · next h => rw [Option.some.inj h]

section LoadConfig

variable {α : Type} (isPrintable : Char → Bool) (validate : Yaml → Validated ErrorDetails α)
  {files : Files} {configDir name : String}

/-- What gets past the second phase does not fail with its hint. -/
theorem loadConfig_ne_of_loadTree_ok {environ : Environ} {t : Yaml} (hname : name ≠ "")
    (h : loadTree files environ (PurePath.ofString configDir) name = .ok t)
    (errors : List ConfigErrorDetail) :
    loadConfig isPrintable validate files environ (some configDir) (some name)
      ≠ .error (.configError ⟨errors, substituteHint⟩) := by
  have hdir : cfgDir (some configDir) environ = PurePath.ofString configDir := rfl
  simp only [loadConfig, envName_some hname, hdir, h]
  cases validate t with
  | ok cfg => exact fun hc => by cases hc
  | error es =>
    intro hc
    have hhint : "" = substituteHint :=
      congrArg ConfigError.hint (LoadFailure.configError.inj (Except.error.inj hc))
    exact absurd hhint (by decide)

/-- **The least set of variables a load depends on**: those of the leaves that
survive the merge, if the files parse at all. A reference that the overlay
replaces is never looked up, and what validation makes of the values plays no
part in it. -/
theorem dependsOn_loadConfig_iff (hname : name ≠ "")
    (hdistinct : ∀ path v, files path = .document v → v.distinct = true) {s : Set String} :
    DependsOn (fun environ =>
        loadConfig isPrintable validate files environ (some configDir) (some name)) s
      ↔ ∀ merged, parsePhase files ((PurePath.ofString configDir).join "default.yaml")
            ((PurePath.ofString configDir).join (name ++ ".yaml")) = .ok merged →
          ∀ p v x, Survives (files ((PurePath.ofString configDir).join "default.yaml")).entries
              (files ((PurePath.ofString configDir).join (name ++ ".yaml"))).entries p v →
            x ∈ v.varNames → x ∈ s := by
  have hvars : ∀ merged, parsePhase files ((PurePath.ofString configDir).join "default.yaml")
      ((PurePath.ofString configDir).join (name ++ ".yaml")) = .ok merged → ∀ x,
      (x ∈ Yaml.varNames (.map merged)
        ↔ ∃ p v, Survives (files ((PurePath.ofString configDir).join "default.yaml")).entries
          (files ((PurePath.ofString configDir).join (name ++ ".yaml"))).entries p v
            ∧ x ∈ v.varNames) := by
    intro merged hparse x
    rw [parsePhase_eq_ok hparse]
    exact mem_varNames_deepMerge_iff (distinct_entries (hdistinct _))
      (distinct_entries (hdistinct _))
  constructor
  · intro h merged hparse p v x hsurvives hx
    by_contra hs
    have hmem := (hvars merged hparse x).mpr ⟨p, v, hsurvives, hx⟩
    -- all variables are set in one environment, and all but this one in the other
    have hagree : ∀ y ∈ s, (some "" : Option String) = if y = x then none else some "" := by
      intro y hy
      rw [if_neg (fun hyx : y = x => hs (hyx ▸ hy))]
    obtain ⟨t, ht⟩ := loadTree_of_set hparse (fun _ => some "") (fun _ _ => Option.some_ne_none "")
    obtain ⟨errors, herr⟩ :=
      loadTree_of_unset hparse (fun y => if y = x then none else some "") hmem (if_pos rfl)
    have hfails : loadConfig isPrintable validate files (fun y => if y = x then none else some "")
        (some configDir) (some name) = .error (.configError ⟨errors, substituteHint⟩) :=
      loadConfig_of_loadTree_error isPrintable validate (envName_some hname _) herr
    exact loadConfig_ne_of_loadTree_ok isPrintable validate hname ht errors
      ((h hagree).trans hfails)
  · intro h environ environ' hagree
    have htree : loadTree files environ (PurePath.ofString configDir) name
        = loadTree files environ' (PurePath.ofString configDir) name := by
      refine loadTree_congr (fun merged hparse x hx => hagree x ?_)
      obtain ⟨p, v, hsurvives, hx⟩ := (hvars merged hparse x).mp hx
      exact h merged hparse p v x hsurvives hx
    show loadConfig _ _ _ environ _ _ = loadConfig _ _ _ environ' _ _
    have hdir : ∀ e, cfgDir (some configDir) e = PurePath.ofString configDir := fun _ => rfl
    simp only [loadConfig, envName_some hname, hdir, htree]

/-- **A load without arguments** depends on two variables besides. -/
theorem loadConfig_congr {environ environ' : Environ}
    (henv : environ "ENVIRONMENT" = environ' "ENVIRONMENT")
    (hdir : environ "CONFIG_DIR" = environ' "CONFIG_DIR")
    (hvars : ∀ name merged, environ "ENVIRONMENT" = some name →
      parsePhase files ((cfgDir none environ).join "default.yaml")
        ((cfgDir none environ).join (name ++ ".yaml")) = .ok merged →
      ∀ x ∈ Yaml.varNames (.map merged), environ x = environ' x) :
    loadConfig isPrintable validate files environ none none
      = loadConfig isPrintable validate files environ' none none := by
  have hname : envName none environ = envName none environ' := by
    rw [envName, envName, henv]
  have hcfg : cfgDir none environ = cfgDir none environ' := by rw [cfgDir, cfgDir, hdir]
  rw [loadConfig, loadConfig, ← hname, ← hcfg]
  cases he : envName none environ with
  | error e => rfl
  | ok name =>
    have hset : environ "ENVIRONMENT" = some name := by
      unfold envName at he
      split at he
      · cases he
      · cases he
      · next h => rw [← Except.ok.inj he, ← h]
    have htree : loadTree files environ (cfgDir none environ) name
        = loadTree files environ' (cfgDir none environ) name :=
      loadTree_congr (fun merged hparse => hvars name merged hset hparse)
    simp only [htree]

end LoadConfig

/-- An overlay that replaces the one value with a reference to `REDIS_URL`. -/
def replacedReference : Files := fun path =>
  if path = (PurePath.ofString "/app/config").join "default.yaml" then
    .document (.map [(.str "opa_url", .leaf (.str "$\x7bOPA_URL\x7d/v1")),
      (.str "redis_url", .leaf (.str "$\x7bREDIS_URL\x7d"))])
  else if path = (PurePath.ofString "/app/config").join "prod.yaml" then
    .document (.map [(.str "redis_url", .leaf (.str "redis://cache:6379"))])
  else .absent

theorem distinct_replacedReference :
    ∀ path v, replacedReference path = .document v → v.distinct = true := by
  intro path v h
  unfold replacedReference at h
  split at h
  · exact FileContents.document.inj h ▸ by decide
  · split at h
    · exact FileContents.document.inj h ▸ by decide
    · cases h

theorem dependsOn_loadConfig_replacedReference :
    DependsOn (fun environ => loadConfig (fun _ => true) Except.ok replacedReference environ
      (some "/app/config") (some "prod")) {"OPA_URL"} := by
  refine (dependsOn_loadConfig_iff _ _ (by decide) distinct_replacedReference).mpr ?_
  intro merged _ p v x hsurvives hx
  obtain ⟨a, ha, hx⟩ := (mem_varNames_deepMerge_iff (by decide) (by decide)).mpr
    ⟨p, v, hsurvives, hx⟩
  have hleaves : ∀ a ∈ DocTree.leaves (.map (deepMerge
      (replacedReference ((PurePath.ofString "/app/config").join "default.yaml")).entries
      (replacedReference ((PurePath.ofString "/app/config").join ("prod" ++ ".yaml"))).entries)),
      ∀ x ∈ a.varNames, x = "OPA_URL" := by decide
  exact hleaves a ha x hx
