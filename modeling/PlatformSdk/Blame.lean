import PlatformSdk.LoadErrors

/-!
# Which file a missing variable is blamed on

A reference that is not set is to be reported in the file its string was
written in. After the merge that file is a matter of the path: a leaf of the
merged mapping was written in the overlay if the overlay has a value at its
path, and in `default.yaml` otherwise (`sourceOf_eq_overlay_iff`).

`_substitute` is handed the merged mapping and the path of `default.yaml`, and
blames every reference on that. `blamesSource_iff` says when this is right:
when no string of the overlay carries a reference that is not set. Every
string of the overlay survives the merge, so nothing weaker would do.
-/

namespace Yaml

/-! ## The leaves with their paths -/

mutual

/-- **The values of a document that are no mappings**, with their paths, from
left to right. -/
def leafPaths : Yaml → List (List KeyValue × Yaml)
  | .leaf a => [([], .leaf a)]
  | .list xs => [([], .list xs)]
  | .map d => leafPathsMap d

/-- Those of the values of a mapping. -/
def leafPathsMap : List (YamlKey × Yaml) → List (List KeyValue × Yaml)
  | [] => []
  | (k, t) :: d => (leafPaths t).map (fun e => (k.value :: e.1, e.2)) ++ leafPathsMap d

end

theorem leafPathsMap_eq_flatMap (d : List (YamlKey × Yaml)) :
    leafPathsMap d
      = d.flatMap (fun e => e.2.leafPaths.map (fun f => (e.1.value :: f.1, f.2))) := by
  induction d with
  | nil => rfl
  | cons e d ih => rw [leafPathsMap, ih, List.flatMap_cons]

/-- The scalars of a document are those of its leaves. -/
theorem leaves_eq_flatMap_leafPaths (t : Yaml) :
    t.leaves = t.leafPaths.flatMap (fun e => e.2.leaves) := by
  induction t using DocTree.induct with
  | leaf a => simp [leafPaths]
  | list xs ih => simp [leafPaths]
  | map d ih =>
    rw [DocTree.leaves, DocTree.leavesMap_eq_flatMap, leafPaths, leafPathsMap_eq_flatMap,
      List.flatMap_assoc]
    refine List.flatMap_congr fun e he => ?_
    rw [ih e he, List.flatMap_map]

/-- **The leaves are what is read at their paths.** -/
theorem mem_leafPaths_iff {t : Yaml} (h : t.distinct = true) {p : List KeyValue} {v : Yaml} :
    (p, v) ∈ t.leafPaths ↔ t.LeafAt p v := by
  induction t using DocTree.induct generalizing p with
  | leaf a =>
    rw [leafPaths, List.mem_singleton, Prod.mk.injEq, leafAt_iff_of_isMap rfl, eq_comm (a := v)]
  | list xs ih =>
    rw [leafPaths, List.mem_singleton, Prod.mk.injEq, leafAt_iff_of_isMap rfl, eq_comm (a := v)]
  | map d ih =>
    have hkeys := nodup_of_distinct h
    rw [leafPaths, leafPathsMap_eq_flatMap, List.mem_flatMap]
    cases p with
    | nil =>
      rw [leafAt_nil_iff]
      refine iff_of_false ?_ ?_
      · rintro ⟨e, -, hmem⟩
        obtain ⟨f, -, hf⟩ := List.mem_map.mp hmem
        cases hf
      · rintro ⟨rfl, hm⟩
        cases hm
    | cons k p =>
      rw [leafAt_cons_iff]
      constructor
      · rintro ⟨e, he, hmem⟩
        obtain ⟨f, hf, hfe⟩ := List.mem_map.mp hmem
        obtain ⟨hkp, rfl⟩ := Prod.mk.inj hfe
        obtain ⟨rfl, rfl⟩ := List.cons.inj hkp
        have hget := Dict.get?_of_mem hkeys ((Dict.mem_rekey _).mpr ⟨e.1, he, rfl⟩)
        exact ⟨e.2, hget, (ih e he (distinct_of_get? h hget)).mp hf⟩
      · rintro ⟨t, ht, hleaf⟩
        obtain ⟨k', hmem, rfl⟩ := (Dict.mem_rekey _).mp (Dict.mem_of_get? ht)
        exact ⟨(k', t), hmem, List.mem_map.mpr
          ⟨(p, v), (ih (k', t) hmem (distinct_of_get? h ht)).mpr hleaf, rfl⟩⟩

end Yaml

/-! ## The merge keeps keys apart -/

namespace Yaml

theorem distinctMap_iff {d : List (YamlKey × Yaml)} :
    distinctMap d = true ↔ ∀ e ∈ d, e.2.distinct = true := by
  induction d with
  | nil => simp [distinctMap]
  | cons e d ih => rw [distinctMap, Bool.and_eq_true, ih, List.forall_mem_cons]

theorem distinct_map_iff {d : Dict YamlKey Yaml} :
    distinct (.map d) = true ↔ (byValue d).keys.Nodup ∧ ∀ e ∈ d, e.2.distinct = true := by
  rw [distinct, Bool.and_eq_true, decide_eq_true_iff, distinctMap_iff]

/-- Writing a value without a key twice leaves no key twice. -/
theorem distinct_put {d : Dict YamlKey Yaml} (h : distinct (.map d) = true) (k : YamlKey) {v : Yaml}
    (hv : v.distinct = true) : distinct (.map (put d k v)) = true := by
  rw [distinct_map_iff] at h ⊢
  have hkeys : (byValue (put d k v)).keys.Nodup :=
    byValue_put d k v ▸ Dict.nodup_keys_set h.1 k.value v
  refine ⟨hkeys, fun e he => ?_⟩
  have hget := Dict.get?_of_mem hkeys ((Dict.mem_rekey _).mpr ⟨e.1, he, rfl⟩)
  rw [byValue_put] at hget
  by_cases hk : e.1.value = k.value
  · rw [hk, Dict.get?_set_self] at hget
    exact Option.some.inj hget ▸ hv
  · rw [Dict.get?_set_of_ne _ v hk] at hget
    obtain ⟨k', hmem, -⟩ := (Dict.mem_rekey _).mp (Dict.mem_of_get? hget)
    exact h.2 (k', e.2) hmem

/-- **A merge repeats no key.** Each key of the overlay is written into the
mapping of the base, and writing replaces the entry of a key that is there. -/
theorem distinct_deepMerge {b o : Dict YamlKey Yaml} (hb : distinct (.map b) = true)
    (ho : distinct (.map o) = true) : distinct (.map (deepMerge b o)) = true := by
  suffices h : ∀ t : Yaml, t.distinct = true → ∀ old, (∀ u, old = some u → u.distinct = true) →
      (mergeValue old t).distinct = true by
    have hm := h (.map o) ho (some (.map b)) fun u hu => Option.some.inj hu ▸ hb
    rwa [mergeValue] at hm
  intro t
  induction t using DocTree.induct with
  | leaf a => intro ht old _; rwa [mergeValue_of_isMap _ rfl]
  | list xs ih => intro ht old _; rwa [mergeValue_of_isMap _ rfl]
  | map d ih =>
    intro ht old hold
    by_cases hb : ∃ b, old = some (.map b)
    · obtain ⟨b, rfl⟩ := hb
      rw [mergeValue]
      have hacc := hold _ rfl
      clear hold
      -- the entries of the overlay, one by one
      induction d generalizing b with
      | nil => rwa [deepMerge]
      | cons e d ihd =>
        obtain ⟨k, v⟩ := e
        have ht' := (distinct_map_iff.mp ht)
        rw [deepMerge]
        refine ihd (fun e he => ih e (List.mem_cons_of_mem _ he)) ?_ _ ?_
        · exact distinct_map_iff.mpr
            ⟨(List.nodup_cons.mp ht'.1).2, fun e he => ht'.2 e (List.mem_cons_of_mem _ he)⟩
        · exact distinct_put hacc k (ih (k, v) List.mem_cons_self (ht'.2 _ List.mem_cons_self) _
            fun u hu => distinct_of_get? hacc hu)
    · rwa [mergeValue_of_forall fun b h => hb ⟨b, h⟩]

end Yaml

/-! ## The file of a leaf -/

/-- The mapping a file contributes to the merge. -/
def FileContents.entries : FileContents → Dict YamlKey Yaml
  | .document (.map d) => d
  | _ => []

/-- **The file a leaf of the merged mapping was written in**, by its path:
the overlay, if it has a value there. -/
def sourceOf (defaultPath overlayPath : PurePath) (overlay : Dict YamlKey Yaml)
    (p : List KeyValue) : PurePath :=
  if (Yaml.valueAt (.map overlay) p).isSome then overlayPath else defaultPath

/-- **The leaf comes from that file**: where the overlay has a value at its
path the leaf is the overlay's, and the base's otherwise. -/
theorem leafAt_source {b o : Dict YamlKey Yaml} (ho : Yaml.distinct (.map o) = true)
    {p : List KeyValue} {v : Yaml} (h : Yaml.LeafAt (.map (deepMerge b o)) p v) :
    if (Yaml.valueAt (.map o) p).isSome then Yaml.LeafAt (.map o) p v
    else Yaml.LeafAt (.map b) p v := by
  rcases (leafAt_deepMerge ho b p v).mp h with hleaf | ⟨hleaf, hnone, -⟩
  · rw [hleaf.1]
    exact hleaf
  · rw [hnone]
    exact hleaf

/-- The references of a scalar that are not set. -/
def scalarMissing (environ : Environ) : YamlScalar → List (List Char)
  | .str s => missingVars environ s
  | _ => []

/-- The problems of a scalar are its references that are not set. -/
theorem scalarErrors_eq_map (environ : Environ) (sourcePath : PurePath) (a : YamlScalar) :
    scalarErrors environ sourcePath a = (scalarMissing environ a).map (missingVar sourcePath) := by
  cases a <;> rfl

/-- **The references that are not set**, each with the path of the leaf it
stands in, in the order they stand. -/
def missingReferences (environ : Environ) (merged : Dict YamlKey Yaml) :
    List (List KeyValue × List Char) :=
  (Yaml.leafPaths (.map merged)).flatMap
    (fun e => (e.2.leaves.flatMap (scalarMissing environ)).map (fun name => (e.1, name)))

/-- `_substitute` reports the references that are missing in the order of the
leaves, and every one of them at the one path it was given. -/
theorem substitute_snd_eq_map (environ : Environ) (sourcePath : PurePath)
    (merged : Dict YamlKey Yaml) :
    (substitute environ sourcePath (.map merged)).2
      = (missingReferences environ merged).map (fun r => missingVar sourcePath r.2) := by
  rw [substitute_snd, Yaml.leaves_eq_flatMap_leafPaths, List.flatMap_assoc, missingReferences,
    List.map_flatMap]
  refine List.flatMap_congr fun e _ => ?_
  rw [List.map_map, Function.comp_def, List.map_flatMap]
  exact List.flatMap_congr fun a _ => scalarErrors_eq_map environ sourcePath a

/-- **The contract of the substitution phase** of a load: the problems are the
references that are not set, in their order, each located in the file its leaf
was written in. -/
def BlamesSource {α : Type} (load : Except LoadFailure α) (files : Files) (environ : Environ)
    (dir : PurePath) (name : String) : Prop :=
  ∀ merged e,
    parsePhase files (dir.join "default.yaml") (dir.join (name ++ ".yaml")) = .ok merged →
    loadTree files environ dir name = .error (.configError e) →
      load = .error (.configError e)
        ∧ List.Forall₂
            (fun d r => d.Names (sourceOf (dir.join "default.yaml") (dir.join (name ++ ".yaml"))
                (files (dir.join (name ++ ".yaml"))).entries r.1)
              ∧ d.reason = String.ofList r.2 ++ " not set in environment")
            e.errors (missingReferences environ merged)

/-- The mapping a document is read as is the one it contributes. -/
theorem entries_of_read {v : Yaml} {d : Dict YamlKey Yaml}
    (h : (if v.truthy then v else .map []) = .map d) : (FileContents.document v).entries = d := by
  cases ht : v.truthy with
  | true =>
    rw [ht, if_pos rfl] at h
    rw [h, FileContents.entries]
  | false =>
    rw [ht] at h
    obtain rfl := DocTree.map.inj h
    cases v with
    | map d =>
      have hd : d = [] := by simpa [Yaml.truthy] using ht
      rw [hd, FileContents.entries]
    | _ => rfl

/-- **What passes the parse phase** is the merge of the two files' mappings. -/
theorem parsePhase_eq_ok {files : Files} {dp op : PurePath} {merged : Dict YamlKey Yaml}
    (h : parsePhase files dp op = .ok merged) :
    merged = deepMerge (files dp).entries (files op).entries := by
  rw [parsePhase] at h
  cases hD : files dp with
  | absent => simp [hD] at h
  | unreadable exc => simp [hD, readYaml] at h
  | malformed line problem =>
    obtain ⟨d, -, hread⟩ := readYaml_malformed dp line problem
    simp only [hD, hread] at h
    split at h
    · cases h
    · simp at h
  | document v =>
    simp only [hD, readYaml_document] at h
    cases hO : files op with
    | unreadable exc => simp [hO, readOverlay, readYaml, Except.map] at h
    | malformed line problem =>
      obtain ⟨d, -, hread⟩ := readYaml_malformed op line problem
      simp [hO, readOverlay, hread, Except.map] at h
    | absent =>
      simp only [hO, readOverlay, List.append_nil, ne_eq, not_true_eq_false, if_false] at h
      cases hv : (if v.truthy then v else .map []) with
      | map b =>
        rw [hv] at h
        rw [entries_of_read hv]
        exact (Except.ok.inj h).symm
      | _ => rw [hv] at h; cases h
    | document w =>
      simp only [hO, readOverlay, readYaml_document, Except.map, List.append_nil, ne_eq,
        not_true_eq_false, if_false] at h
      cases hv : (if v.truthy then v else .map []) with
      | map b =>
        rw [hv] at h
        cases hw : (if w.truthy then w else .map []) with
        | map o =>
          rw [hw] at h
          rw [entries_of_read hv, entries_of_read hw]
          exact (Except.ok.inj h).symm
        | _ => rw [hw] at h; cases h
      | _ => rw [hv] at h; cases h

/-- The strings of a leaf are strings of its document. -/
theorem mem_leaves_of_leafAt {t : Yaml} (ht : t.distinct = true) {p : List KeyValue} {v : Yaml}
    (h : t.LeafAt p v) {a : YamlScalar} (ha : a ∈ v.leaves) : a ∈ t.leaves := by
  rw [Yaml.leaves_eq_flatMap_leafPaths]
  exact List.mem_flatMap.mpr ⟨(p, v), (Yaml.mem_leafPaths_iff ht).mpr h, ha⟩

theorem distinct_entries {c : FileContents} (h : ∀ v, c = .document v → v.distinct = true) :
    Yaml.distinct (.map c.entries) = true := by
  cases c with
  | document v =>
    cases v with
    | map d => exact h _ rfl
    | _ => rfl
  | _ => rfl

/-- The second phase fails with the problems of `_substitute`. -/
theorem loadTree_eq_error_iff {files : Files} {environ : Environ} {dir : PurePath} {name : String}
    {merged : Dict YamlKey Yaml} {e : ConfigError}
    (h : parsePhase files (dir.join "default.yaml") (dir.join (name ++ ".yaml")) = .ok merged) :
    loadTree files environ dir name = .error (.configError e)
      ↔ (substitute environ (dir.join "default.yaml") (.map merged)).2 ≠ []
        ∧ e = ⟨(substitute environ (dir.join "default.yaml") (.map merged)).2, substituteHint⟩ := by
  rw [loadTree, h]
  rcases hs : substitute environ (dir.join "default.yaml") (.map merged) with ⟨t, _ | ⟨d, ds⟩⟩
  · simp [hs]
  · simp [hs, eq_comm]

/-- What is located at `default.yaml` is located at the file of the leaf when
the overlay has none there, or is that file. -/
theorem names_sourceOf_iff {dir : PurePath} {name : String} {overlay : Dict YamlKey Yaml}
    {p : List KeyValue} {var : List Char} :
    (missingVar (dir.join "default.yaml") var).Names
        (sourceOf (dir.join "default.yaml") (dir.join (name ++ ".yaml")) overlay p)
      ↔ ((Yaml.valueAt (.map overlay) p).isSome →
          (dir.join "default.yaml").toString = (dir.join (name ++ ".yaml")).toString) := by
  have hd : (missingVar (dir.join "default.yaml") var).Names
      (dir.join ("default" ++ ".yaml")) := Or.inl rfl
  cases hv : (Yaml.valueAt (.map overlay) p).isSome with
  | false =>
    rw [sourceOf, hv]
    exact iff_of_true hd (fun h => Bool.noConfusion h)
  | true =>
    rw [sourceOf, hv, if_pos rfl]
    exact ⟨fun h _ => hd.toString_eq h, fun h => Or.inl (h rfl)⟩

/-- A load whose second phase fails ends there. -/
theorem loadConfig_of_loadTree_error {α : Type} (isPrintable : Char → Bool)
    (validate : Yaml → Validated ErrorDetails α) {files : Files} {environ : Environ}
    {configDir env : Option String} {name : String} {e : LoadFailure}
    (hname : envName env environ = .ok name)
    (h : loadTree files environ (cfgDir configDir environ) name = .error e) :
    loadConfig isPrintable validate files environ configDir env = .error e := by
  simp [loadConfig, hname, h]

/-- Where a reference that is not set stands: in a leaf of the merged mapping,
at the path of the leaf. -/
theorem mem_missingReferences_iff {environ : Environ} {merged : Dict YamlKey Yaml}
    (h : Yaml.distinct (.map merged) = true) {p : List KeyValue} {var : List Char} :
    (p, var) ∈ missingReferences environ merged
      ↔ ∃ v s, Yaml.LeafAt (.map merged) p v ∧ .str s ∈ v.leaves ∧ var ∈ missingVars environ s := by
  rw [missingReferences, List.mem_flatMap]
  constructor
  · rintro ⟨e, he, hmem⟩
    obtain ⟨n, hn, hpn⟩ := List.mem_map.mp hmem
    obtain ⟨rfl, rfl⟩ := Prod.mk.inj hpn
    obtain ⟨a, ha, hna⟩ := List.mem_flatMap.mp hn
    cases a with
    | str s => exact ⟨e.2, s, (Yaml.mem_leafPaths_iff h).mp he, ha, hna⟩
    | _ => exact absurd hna List.not_mem_nil
  · rintro ⟨v, s, hleaf, hs, hvar⟩
    refine ⟨(p, v), (Yaml.mem_leafPaths_iff h).mpr hleaf, List.mem_map.mpr ⟨var, ?_, rfl⟩⟩
    exact List.mem_flatMap.mpr ⟨.str s, hs, hvar⟩

/-- **The contract, reference by reference.** Since every problem is reported at
the path of `default.yaml`, it holds exactly when each missing reference stands
in that file. -/
theorem blamesSource_iff_forall {α : Type} {load : Except LoadFailure α} {files : Files}
    {environ : Environ} {dir : PurePath} {name : String} {merged : Dict YamlKey Yaml}
    (hparse : parsePhase files (dir.join "default.yaml") (dir.join (name ++ ".yaml"))
      = .ok merged)
    (hload : ∀ e, loadTree files environ dir name = .error e → load = .error e) :
    BlamesSource load files environ dir name
      ↔ ∀ r ∈ missingReferences environ merged,
          (Yaml.valueAt (.map (files (dir.join (name ++ ".yaml"))).entries) r.1).isSome →
            (dir.join "default.yaml").toString = (dir.join (name ++ ".yaml")).toString := by
  have herrors := substitute_snd_eq_map environ (dir.join "default.yaml") merged
  constructor
  · intro h r hr
    have hne : (substitute environ (dir.join "default.yaml") (.map merged)).2 ≠ [] := by
      rw [herrors]
      exact List.ne_nil_of_mem (List.mem_map_of_mem hr)
    obtain ⟨-, hall⟩ := h merged _ hparse ((loadTree_eq_error_iff hparse).mpr ⟨hne, rfl⟩)
    rw [herrors, List.forall₂_map_left_iff, List.forall₂_same] at hall
    exact names_sourceOf_iff.mp (hall r hr).1
  · intro h merged' e hparse' htree
    obtain rfl := Except.ok.inj (hparse.symm.trans hparse')
    obtain ⟨-, rfl⟩ := (loadTree_eq_error_iff hparse).mp htree
    refine ⟨hload _ htree, ?_⟩
    rw [herrors, List.forall₂_map_left_iff, List.forall₂_same]
    exact fun r hr => ⟨names_sourceOf_iff.mpr (h r hr), rfl⟩

section Iff

variable {files : Files} {environ : Environ} {configDir env : Option String} {name : String}
  {α : Type}

/-- **When every missing variable is blamed on its own file.** A load that
passes its parse phase meets the contract of the substitution phase exactly
when no string of the overlay has a reference that is not set, or the overlay
is `default.yaml` itself. -/
theorem load_blamesSource_iff (isPrintable : Char → Bool)
    (validate : Yaml → Validated ErrorDetails α) (hname : envName env environ = .ok name)
    (hfiles : ∀ path v, files path = .document v → v.distinct = true)
    {merged : Dict YamlKey Yaml}
    (hparse : parsePhase files ((cfgDir configDir environ).join "default.yaml")
      ((cfgDir configDir environ).join (name ++ ".yaml")) = .ok merged) :
    BlamesSource (loadConfig isPrintable validate files environ configDir env) files environ
        (cfgDir configDir environ) name
      ↔ ((cfgDir configDir environ).join "default.yaml").toString
            = ((cfgDir configDir environ).join (name ++ ".yaml")).toString
          ∨ ∀ s, .str s ∈ (DocTree.leaves (.map (files ((cfgDir configDir environ).join
              (name ++ ".yaml"))).entries)) → missingVars environ s = [] := by
  have hload := fun e => @loadConfig_of_loadTree_error α isPrintable validate files environ
    configDir env name e hname
  revert hparse hload
  generalize loadConfig isPrintable validate files environ configDir env = load
  generalize cfgDir configDir environ = dir
  intro hparse hload
  have ho := distinct_entries (hfiles (dir.join (name ++ ".yaml")))
  have hmerged := parsePhase_eq_ok hparse
  have hm : Yaml.distinct (.map merged) = true :=
    hmerged ▸ Yaml.distinct_deepMerge (distinct_entries (hfiles (dir.join "default.yaml"))) ho
  rw [blamesSource_iff_forall hparse hload]
  constructor
  · intro h
    refine or_iff_not_imp_left.mpr fun hne s hs => List.eq_nil_iff_forall_not_mem.mpr ?_
    intro var hvar
    rw [Yaml.leaves_eq_flatMap_leafPaths] at hs
    obtain ⟨⟨p, v⟩, hpv, hsv⟩ := List.mem_flatMap.mp hs
    have hleaf := (Yaml.mem_leafPaths_iff ho).mp hpv
    -- a leaf of the overlay survives the merge
    have hsurvives : Yaml.LeafAt (.map merged) p v :=
      hmerged ▸ (leafAt_deepMerge ho _ p v).mpr (Or.inl hleaf)
    refine hne (h (p, var) ((mem_missingReferences_iff hm).mpr ⟨v, s, hsurvives, hsv, hvar⟩) ?_)
    rw [hleaf.1]
    rfl
  · rintro h ⟨p, var⟩ hr hsome
    refine h.resolve_right fun hnone => ?_
    obtain ⟨v, s, hleaf, hs, hvar⟩ := (mem_missingReferences_iff hm).mp hr
    have hsource := leafAt_source ho (hmerged ▸ hleaf)
    rw [if_pos hsome] at hsource
    rw [hnone s (mem_leaves_of_leafAt ho hsource hs)] at hvar
    exact absurd hvar List.not_mem_nil

end Iff

/-- A directory whose default file has a reference, and whose overlay for
`dev` has one of its own. -/
def referenceFiles : Files := fun path =>
  if path = (PurePath.ofString "/app/config").join "default.yaml" then
    .document (.map [(.str "a", Yaml.str "$\x7bA\x7d")])
  else if path = (PurePath.ofString "/app/config").join "dev.yaml" then
    .document (.map [(.str "b", Yaml.str "$\x7bB\x7d")])
  else .document (.map [(.str "b", Yaml.str "c")])

theorem distinct_referenceFiles (path : PurePath) (v : Yaml)
    (h : referenceFiles path = .document v) : v.distinct = true := by
  rw [referenceFiles] at h
  split at h
  · cases h; rfl
  · split at h <;> cases h <;> rfl

theorem load_blamesSource_prod :
    BlamesSource (loadConfig (fun _ => true) (fun _ => .ok ()) referenceFiles (fun _ => none)
      (some "/app/config") (some "prod")) referenceFiles (fun _ => none)
      (PurePath.ofString "/app/config") "prod" := by
  refine (load_blamesSource_iff (fun _ => true) (fun _ => .ok ())
    (show envName (some "prod") (fun _ => none) = _ from rfl) distinct_referenceFiles
    (show _ = Except.ok [(.str "a", Yaml.str "$\x7bA\x7d"), (.str "b", Yaml.str "c")]
      from rfl)).mpr (Or.inr fun s hs => ?_)
  have hs' : YamlScalar.str s ∈ [YamlScalar.str "c"] := hs
  rw [YamlScalar.str.inj (List.mem_singleton.mp hs')]
  decide

/-- **A reference of the overlay is blamed on `default.yaml`.** -/
theorem not_load_blamesSource :
    ¬ BlamesSource (loadConfig (fun _ => true) (fun _ => .ok ()) referenceFiles (fun _ => none)
      (some "/app/config") (some "dev")) referenceFiles (fun _ => none)
      (PurePath.ofString "/app/config") "dev" := by
  intro h
  obtain ⟨-, hall⟩ := h [(.str "a", Yaml.str "$\x7bA\x7d"), (.str "b", Yaml.str "$\x7bB\x7d")]
    ⟨[⟨"/app/config/default.yaml", "", "A not set in environment"⟩,
      ⟨"/app/config/default.yaml", "", "B not set in environment"⟩], substituteHint⟩ rfl rfl
  obtain _ | ⟨-, _ | ⟨⟨hnames, -⟩, -⟩⟩ := hall
  have hdefault :
      (ConfigErrorDetail.mk "/app/config/default.yaml" "" "B not set in environment").Names
        ((PurePath.ofString "/app/config").join ("default" ++ ".yaml")) := Or.inl rfl
  have hsame := hdefault.toString_eq
    (show ConfigErrorDetail.Names _ ((PurePath.ofString "/app/config").join ("dev" ++ ".yaml"))
      from hnames)
  exact absurd hsame (by decide)
