import Mathlib.Data.List.Dedup
import Mathlib.Data.List.Sort
import PlatformSdk.Blame
import PlatformSdk.Substitution

/-!
# The check that `.env.example` covers the configuration

`platform-sdk check-env-example` reads the text of every YAML file of a
directory, looks for `${VAR}` in it, and compares the names with the keys of
`.env.example`. The loader finds its references elsewhere: in the strings of
the parsed and merged documents, with `$$` hidden behind a sentinel where the
check deletes it.

The check is worth running because it misses none of them. A reference the
loader scans keeps its text when `$$` is deleted (`infix_stripEscapes`), a text
in which a reference is written is one where the expression finds it
(`mem_references_iff`), and a string that stands in its file between
characters other than `$` is scanned there as on its own. So after a check
that succeeds, an environment with the documented keys lacks none of the
variables, whichever overlay is loaded (`checkEnvExample_sound`).
-/

/-! ## The files of a directory -/

/-- **A configuration directory**: the names of its files, and what reading
one as text returns or raises. -/
structure Directory where
  files : List (String × Except PyExc String)
  /-- A name is one component of a path. -/
  name_ok : ∀ e ∈ files, '/' ∉ e.1.toList ∧ e.1 ≠ "" ∧ e.1 ≠ "."

namespace Directory

/-- `sorted(config_dir.glob("*.yaml"))`. -/
def yamlFiles (d : Directory) : List (String × Except PyExc String) :=
  (d.files.filter (fun e => ".yaml".toList.isSuffixOf e.1.toList)).insertionSort
    (fun a b => a.1 ≤ b.1)

/-- **What the loader finds at a path**, `yaml.safe_load` being a function of
the text. -/
def filesAt (d : Directory) (safeLoad : String → FileContents) (dir : PurePath) : Files :=
  fun path => match d.files.find? (fun e => decide (dir.join e.1 = path)) with
  | some (_, .ok text) => safeLoad text
  | some (_, .error exc) => .unreadable exc
  | none => .absent

end Directory

/-! ## `_scan_yaml_vars` -/

/-- `text.replace("$$", "")`. -/
def stripEscapes (cs : List Char) : List Char := replaceFrom "$$".toList [] 0 cs

/-- The references `_VAR_REF_RE.findall` returns for a file. -/
def scanText (text : String) : List String :=
  (references 0 (stripEscapes text.toList)).map String.ofList

/-- The loop over the files, which ends at the first that cannot be read. -/
def scanFiles : List (String × Except PyExc String) → Except PyExc (List String)
  | [] => .ok []
  | (_, .error exc) :: _ => .error exc
  | (_, .ok text) :: files => (scanFiles files).map (fun vars => scanText text ++ vars)

/-- **`_scan_yaml_vars`**: the elements of the set it returns. -/
def scanYamlVars (d : Directory) : Except PyExc (List String) := scanFiles d.yamlFiles

/-! ## `_parse_env_example` -/

/-- Where `str.splitlines` breaks a line: at more characters than the newline.
-/
def isLineBreak (c : Char) : Bool :=
  [10, 11, 12, 13, 28, 29, 30, 133, 8232, 8233].contains c.toNat

/-- `s.splitlines()`. -/
def splitLines : List Char → List (List Char)
  | [] => []
  | '\r' :: '\n' :: cs => [] :: splitLines cs
  | c :: cs =>
    if isLineBreak c then [] :: splitLines cs
    else
      match splitLines cs with
      | [] => [[c]]
      | line :: lines => (c :: line) :: lines

/-- The key of a line: none for a blank line, a comment or a line without
`=`. -/
def lineKey (line : List Char) : Option String :=
  let line := pyStrip line
  if line = [] ∨ line.head? = some '#' then none
  else if '=' ∉ line then none
  else
    let key := pyStrip (line.takeWhile (fun c => c ≠ '='))
    if key = [] then none else some (String.ofList key)

/-- **`_parse_env_example`**: the elements of the set it returns. -/
def parseEnvExample (text : String) : List String := (splitLines text.toList).filterMap lineKey

/-! ## The command -/

/-- `_RUNTIME_ONLY_ALLOWLIST`. -/
def runtimeOnlyAllowlist : List String := ["INTERNAL_API_KEY", "ENVIRONMENT", "CONFIG_DIR"]

/-- How the command ends: with what it printed, and whether it exited with
1. -/
inductive CheckOutcome where
  | ok (out : List String)
  | fail (err : List String)
  deriving DecidableEq

/-- `sorted(s)` of a set, from its elements. -/
def sortedSet (xs : List String) : List String := xs.dedup.insertionSort (fun a b => a ≤ b)

/-- **`check_env_example`**, with the text of the example file or what reading
it raises. -/
def checkEnvExample (configDir envExample : String) (d : Directory)
    (example_ : Except PyExc String) : Except PyExc CheckOutcome :=
  match scanYamlVars d with
  | .error exc => .error exc
  | .ok referenced =>
    match example_.map parseEnvExample with
    | .error exc => .error exc
    | .ok documented =>
      let missing := sortedSet (referenced.filter (fun name => name ∉ documented))
      let unreferenced := sortedSet (documented.filter
        (fun name => name ∉ referenced ∧ name ∉ runtimeOnlyAllowlist))
      if missing ≠ [] then
        .ok (.fail ((("FAIL: " ++ missing.length.repr ++ " env var(s) referenced from "
            ++ configDir ++ "/*.yaml but missing from " ++ envExample ++ ":")
          :: missing.map (fun name => "  - " ++ name))))
      else
        .ok (.ok ((if unreferenced ≠ [] then
            ("WARN: " ++ unreferenced.length.repr ++ " env var(s) listed in " ++ envExample
              ++ " but not referenced from any YAML:")
            :: unreferenced.map (fun name => "  - " ++ name)
          else []) ++ ["OK: " ++ (sortedSet referenced).length.repr
            ++ " env var(s) referenced and documented."]))

/-! ## The two scanners -/

/-- What stands before a dollar contains a text without one that the whole
starts with. -/
theorem exists_eq_append_of_dollar {a pre rest cs : List Char} (ha : '$' ∉ a)
    (h : pre ++ '$' :: cs = a ++ rest) : ∃ pre', pre = a ++ pre' ∧ rest = pre' ++ '$' :: cs := by
  rcases List.append_eq_append_iff.mp h with ⟨as, ha', hcs⟩ | ⟨bs, hpre, hrest⟩
  · cases as with
    | nil => exact ⟨[], by simpa using ha'.symm, by simpa using hcs.symm⟩
    | cons x as =>
      obtain ⟨rfl, -⟩ := List.cons.inj hcs
      exact absurd (ha' ▸ List.mem_append_right pre List.mem_cons_self) ha
  · exact ⟨bs, hpre, hrest⟩

theorem references_cons_of_none {c : Char} {cs : List Char} (h : matchVar (c :: cs) = none) :
    references 0 (c :: cs) = references 0 cs := by
  rw [references, h]

/-- **A reference is found wherever it is written**: no other one overlaps it,
since a name has no dollar. -/
theorem mem_references_of_written {name : List Char} (hname : IsVarName name) (cs : List Char)
    (h : varText name <:+: cs) : name ∈ references 0 cs := by
  induction hn : cs.length using Nat.strong_induction_on generalizing cs with
  | _ n ih =>
    subst hn
    obtain ⟨pre, post, rfl⟩ := h
    cases pre with
    | nil =>
      rw [List.nil_append, references_varText hname]
      exact List.mem_cons_self
    | cons c pre =>
      cases hm : matchVar (c :: pre ++ varText name ++ post) with
      | none =>
        have hm' : matchVar (c :: (pre ++ varText name ++ post)) = none := hm
        show name ∈ references 0 (c :: (pre ++ varText name ++ post))
        rw [references_cons_of_none hm']
        exact ih _ (by simp) _ ⟨pre, post, rfl⟩ rfl
      | some name' =>
        obtain ⟨hname', rest, hrest⟩ := matchVar_eq_some_iff.mp hm
        have hdollar : '$' ∉ '\x7b' :: name' ++ ['\x7d'] := by simp [hname'.dollar_notMem]
        obtain ⟨pre', -, hpre'⟩ := exists_eq_append_of_dollar hdollar
          (show pre ++ '$' :: (('\x7b' :: name ++ ['\x7d']) ++ post)
              = ('\x7b' :: name' ++ ['\x7d']) ++ rest by
            have := (List.cons.inj hrest).2
            simpa [varText] using this.symm)
        rw [← hrest, references_varText hname']
        refine List.mem_cons_of_mem _ (ih rest.length ?_ rest ⟨pre', post, ?_⟩ rfl)
        · rw [← hrest, List.length_append]
          exact Nat.lt_add_of_pos_left (by simp [varText])
        · rw [hpre']
          simp [varText]

/-! ## Deleting the escapes -/

theorem stripEscapes_dollar (cs : List Char) : stripEscapes ('$' :: '$' :: cs) = stripEscapes cs :=
  replaceFrom_append_self '$' ['$'] [] cs

theorem stripEscapes_cons {c : Char} {cs : List Char}
    (h : "$$".toList.isPrefixOf (c :: cs) = false) :
    stripEscapes (c :: cs) = c :: stripEscapes cs := replaceFrom_cons h

theorem stripEscapes_varText {name : List Char} (h : IsVarName name) (cs : List Char) :
    stripEscapes (varText name ++ cs) = varText name ++ stripEscapes cs :=
  replaceFrom_varText [] h cs

/-- **A reference of the scan keeps its text** when the escapes are
deleted. -/
theorem infix_stripEscapes {cs name : List Char}
    (h : name ∈ (tokens 0 cs).filterMap Token.name?) :
    IsVarName name ∧ varText name <:+: stripEscapes cs := by
  induction cs using scan_induct with
  | nil => cases h
  | dollar cs ih =>
    rw [stripEscapes_dollar]
    exact ih h
  | reference name' cs hname' ih =>
    rw [tokens_reference hname'] at h
    rw [stripEscapes_varText hname']
    rcases List.mem_cons.mp h with rfl | h
    · exact ⟨hname', [], stripEscapes cs, rfl⟩
    · exact ⟨(ih h).1, (ih h).2.trans (List.suffix_append _ _).isInfix⟩
  | char c cs hd hm ih =>
    rw [tokens_char hd hm] at h
    rw [stripEscapes_cons hd]
    exact ⟨(ih h).1, (ih h).2.trans (List.suffix_cons c _).isInfix⟩

/-- An escape starts where one dollar is followed by another. -/
theorem startsEscape_iff {c : Char} {cs : List Char} :
    "$$".toList.isPrefixOf (c :: cs) = true ↔ c = '$' ∧ cs.head? = some '$' := by
  show List.isPrefixOf ['$', '$'] (c :: cs) = true ↔ _
  cases cs with
  | nil => simp [List.isPrefixOf]
  | cons d cs =>
    rw [List.head?_cons, Option.some.injEq, eq_comm (a := c), eq_comm (a := d)]
    simp [List.isPrefixOf]

/-- **Two texts are stripped apart** when no `$$` straddles them. -/
theorem stripEscapes_append {xs ys : List Char}
    (h : xs.getLast? ≠ some '$' ∨ ys.head? ≠ some '$') :
    stripEscapes (xs ++ ys) = stripEscapes xs ++ stripEscapes ys := by
  induction xs using List.twoStepInduction with
  | nil => rfl
  | singleton x =>
    have hd : "$$".toList.isPrefixOf (x :: ys) = false := by
      rw [← Bool.not_eq_true, startsEscape_iff]
      rintro ⟨rfl, hy⟩
      exact h.elim (fun hx => hx rfl) (fun hy' => hy' hy)
    have hd' : "$$".toList.isPrefixOf [x] = false := by
      rw [← Bool.not_eq_true, startsEscape_iff]
      simp
    rw [List.singleton_append, stripEscapes_cons hd, stripEscapes_cons hd']
    rfl
  | cons_cons x y xs ih ih' =>
    rw [List.getLast?_cons_cons] at h
    by_cases hd : "$$".toList.isPrefixOf (x :: y :: xs) = true
    · obtain ⟨rfl, hy⟩ := startsEscape_iff.mp hd
      obtain rfl := Option.some.inj hy
      show stripEscapes ('$' :: '$' :: (xs ++ ys)) = _
      rw [stripEscapes_dollar, stripEscapes_dollar]
      refine ih (h.imp_left fun hx hl => hx ?_)
      cases xs with
      | nil => cases hl
      | cons z xs => rwa [List.getLast?_cons_cons]
    · have hd' : ¬ "$$".toList.isPrefixOf (x :: (y :: xs ++ ys)) = true := by
        rw [startsEscape_iff] at hd ⊢
        exact hd
      rw [Bool.not_eq_true] at hd hd'
      rw [List.cons_append, stripEscapes_cons hd', stripEscapes_cons hd, ih' y h, List.cons_append]

/-! ## The check is sound -/

/-- **The strings of a document stand in its text**, as they are and between
characters other than `$`. -/
def StandsIn (text : String) (v : Yaml) : Prop :=
  ∀ s, .str s ∈ v.leaves → ∃ pre post, text.toList = pre ++ s.toList ++ post
    ∧ pre.getLast? ≠ some '$' ∧ post.head? ≠ some '$'

/-- The references of a string are found in the text it stands in. -/
theorem mem_scanText {text : String} {v : Yaml} (h : StandsIn text v) {s : String}
    (hs : .str s ∈ v.leaves) {name : List Char} (hname : name ∈ references 0 (protect s)) :
    String.ofList name ∈ scanText text := by
  obtain ⟨pre, post, htext, hpre, hpost⟩ := h s hs
  obtain ⟨hvar, hinside⟩ := infix_stripEscapes (references_hide s.toList ▸ hname)
  refine List.mem_map_of_mem (mem_references_of_written hvar _ (hinside.trans ?_))
  rw [htext, stripEscapes_append (Or.inr hpost), stripEscapes_append (Or.inl hpre)]
  exact List.infix_append _ _ _

/-- The files the check reads: those of the directory whose names end in
`.yaml`, whatever stands before. -/
theorem mem_yamlFiles_iff {d : Directory} {e : String × Except PyExc String} :
    e ∈ d.yamlFiles ↔ e ∈ d.files ∧ ".yaml".toList <:+ e.1.toList := by
  rw [Directory.yamlFiles, List.mem_insertionSort, List.mem_filter, List.isSuffixOf_iff_suffix]

/-- What the loop over the files found, it found in one of them. -/
theorem mem_of_scanFiles {files : List (String × Except PyExc String)} {vars : List String}
    (h : scanFiles files = .ok vars) {name text : String} (hmem : (name, .ok text) ∈ files)
    {var : String} (hvar : var ∈ scanText text) : var ∈ vars := by
  induction files generalizing vars with
  | nil => exact absurd hmem List.not_mem_nil
  | cons f files ih =>
    obtain ⟨name', contents⟩ := f
    cases contents with
    | error exc => cases h
    | ok text' =>
      rw [scanFiles] at h
      cases hrest : scanFiles files with
      | error exc => rw [hrest] at h; cases h
      | ok vars' =>
        rw [hrest] at h
        obtain rfl := Except.ok.inj h
        rcases List.mem_cons.mp hmem with heq | hmem
        · obtain rfl := Except.ok.inj (Prod.mk.inj heq).2
          exact List.mem_append_left _ hvar
        · exact List.mem_append_right _ (ih hrest hmem)

/-- A path whose last part is a file name. -/
theorem join_of_name (dir : PurePath) {name : String} (h : '/' ∉ name.toList) (hne : name ≠ "")
    (hdot : name ≠ ".") : dir.join name = { dir with parts := dir.parts ++ [name] } := by
  have hroot : (PurePath.ofString name).root = "" := by
    refine if_neg fun hp => h ?_
    exact (List.isPrefixOf_iff_prefix.mp hp).subset (List.mem_singleton_self '/')
  have hparts : (PurePath.ofString name).parts = [name] := by
    show (pySplit name '/').filter _ = _
    rw [pySplit, List.splitOn_eq_singleton h]
    simp [hne, hdot]
  rw [PurePath.join, if_neg (not_not.mpr hroot), hparts]

/-- **A document the loader reads is a file of the directory**, with the name
it was asked for. -/
theorem Directory.exists_of_filesAt {d : Directory} {safeLoad : String → FileContents}
    {dir : PurePath} {name : String} (h : '/' ∉ name.toList) {v : Yaml}
    (hv : d.filesAt safeLoad dir (dir.join (name ++ ".yaml")) = .document v) :
    ∃ text, (name ++ ".yaml", .ok text) ∈ d.files ∧ safeLoad text = .document v := by
  rw [filesAt] at hv
  cases hfind : d.files.find? (fun e => decide (dir.join e.1 = dir.join (name ++ ".yaml"))) with
  | none => rw [hfind] at hv; cases hv
  | some e =>
    obtain ⟨name', contents⟩ := e
    rw [hfind] at hv
    have hmem := List.mem_of_find?_eq_some hfind
    have hfound := List.find?_some hfind
    have hjoin : dir.join name' = dir.join (name ++ ".yaml") := of_decide_eq_true hfound
    have hsep : '/' ∉ (name ++ ".yaml").toList := by
      rw [String.toList_append, List.mem_append, not_or]
      exact ⟨h, by decide⟩
    have hlen : 5 ≤ (name ++ ".yaml").length := by
      rw [String.length_append]
      exact Nat.le_add_left _ _
    obtain ⟨hsep', hne', hdot'⟩ := d.name_ok _ hmem
    rw [join_of_name dir hsep' hne' hdot', join_of_name dir hsep
      (fun he => by rw [he] at hlen; exact absurd hlen (by decide))
      (fun he => by rw [he] at hlen; exact absurd hlen (by decide))] at hjoin
    have hname : name' = name ++ ".yaml" := by
      simpa using congrArg PurePath.parts hjoin
    cases contents with
    | error exc => cases hv
    | ok text => exact ⟨text, hname ▸ hmem, hv⟩

/-- The scalars of a mapping after a write. -/
theorem mem_leaves_put {d : Dict YamlKey Yaml} {k : YamlKey} {v : Yaml} {a : YamlScalar}
    (h : a ∈ DocTree.leaves (.map (Yaml.put d k v))) :
    a ∈ DocTree.leaves (.map d) ∨ a ∈ v.leaves := by
  rw [DocTree.leaves] at h ⊢
  induction d with
  | nil => exact Or.inr (by simpa [Yaml.put, Dict.setBy, DocTree.leavesMap] using h)
  | cons e d ih =>
    obtain ⟨k', w⟩ := e
    rw [DocTree.leavesMap, List.mem_append]
    rw [Yaml.put, Dict.setBy] at h
    split at h
    · rw [DocTree.leavesMap, List.mem_append] at h
      exact h.elim Or.inr fun h => Or.inl (Or.inr h)
    · rw [DocTree.leavesMap, List.mem_append] at h
      exact h.elim (fun h => Or.inl (Or.inl h)) fun h => (ih h).imp_left Or.inr

/-- A value of a mapping has scalars of the mapping. -/
theorem mem_leaves_of_get? {d : Dict YamlKey Yaml} {k : KeyValue} {v : Yaml} {a : YamlScalar}
    (h : (Yaml.byValue d).get? k = some v) (ha : a ∈ v.leaves) : a ∈ DocTree.leaves (.map d) := by
  rw [DocTree.leaves, DocTree.leavesMap_eq_flatMap]
  obtain ⟨k', hmem, -⟩ := (Dict.mem_rekey _).mp (Dict.mem_of_get? h)
  exact List.mem_flatMap.mpr ⟨(k', v), hmem, ha⟩

/-- **A merge makes up no scalar.** Each leaf of a merged value comes from the
value that was there or from the one written over it. -/
theorem mem_leaves_mergeValue {t : Yaml} {old : Option Yaml} {a : YamlScalar}
    (h : a ∈ (mergeValue old t).leaves) :
    (∃ u, old = some u ∧ a ∈ u.leaves) ∨ a ∈ t.leaves := by
  induction t using DocTree.induct generalizing old with
  | leaf x => rw [mergeValue_of_isMap _ rfl] at h; exact Or.inr h
  | list xs ih => rw [mergeValue_of_isMap _ rfl] at h; exact Or.inr h
  | map d ih =>
    by_cases hb : ∃ b, old = some (.map b)
    · obtain ⟨b, rfl⟩ := hb
      rw [mergeValue] at h
      suffices hs : a ∈ DocTree.leaves (.map b) ∨ a ∈ DocTree.leaves (.map d) from
        hs.imp_left fun hs => ⟨.map b, rfl, hs⟩
      -- the entries of the overlay, one by one
      induction d generalizing b with
      | nil => rw [deepMerge] at h; exact Or.inl h
      | cons e d ihd =>
        obtain ⟨k, v⟩ := e
        rw [deepMerge] at h
        show _ ∨ a ∈ v.leaves ++ DocTree.leavesMap d
        rw [List.mem_append]
        rcases ihd (fun e he => ih e (List.mem_cons_of_mem _ he)) _ h with h' | h'
        · rcases mem_leaves_put h' with h' | h'
          · exact Or.inl h'
          · rcases ih (k, v) List.mem_cons_self h' with ⟨u, hu, h'⟩ | h'
            · exact Or.inl (mem_leaves_of_get? hu h')
            · exact Or.inr (Or.inl h')
        · exact Or.inr (Or.inr h')
    · rw [mergeValue_of_forall fun b h => hb ⟨b, h⟩] at h
      exact Or.inr h

theorem mem_leaves_deepMerge {b o : Dict YamlKey Yaml} {a : YamlScalar}
    (h : a ∈ DocTree.leaves (.map (deepMerge b o))) :
    a ∈ DocTree.leaves (.map b) ∨ a ∈ DocTree.leaves (.map o) := by
  have hm : a ∈ (mergeValue (some (.map b)) (.map o)).leaves := by rwa [mergeValue]
  rcases mem_leaves_mergeValue hm with ⟨u, hu, ha⟩ | ha
  · exact .inl (Option.some.inj hu ▸ ha)
  · exact .inr ha

/-- A check that succeeds found no name that is not documented. -/
theorem checkEnvExample_eq_ok {configDir envExample : String} {d : Directory}
    {text : Except PyExc String} {out : List String}
    (h : checkEnvExample configDir envExample d text = .ok (.ok out)) :
    ∃ referenced keys, scanYamlVars d = .ok referenced ∧ text.map parseEnvExample = .ok keys
      ∧ ∀ name ∈ referenced, name ∈ keys := by
  rw [checkEnvExample] at h
  cases hscan : scanYamlVars d with
  | error exc => simp [hscan] at h
  | ok referenced =>
    cases hparse : text.map parseEnvExample with
    | error exc => simp [hscan, hparse] at h
    | ok keys =>
      refine ⟨referenced, keys, rfl, rfl, fun name hname => ?_⟩
      simp only [hscan, hparse] at h
      split at h
      · cases h
      · next hnone =>
        by_contra hkey
        refine List.ne_nil_of_mem (a := name) ?_ (not_not.mp hnone)
        rw [sortedSet, List.mem_insertionSort, List.mem_dedup, List.mem_filter]
        exact ⟨hname, by simpa using hkey⟩

/-- The references of the mapping a file contributes are among the names the
check found. -/
theorem mem_scanYamlVars {safeLoad : String → FileContents} {dir : PurePath} {d : Directory}
    (hstands : ∀ e ∈ d.files, ∀ text v, e.2 = .ok text → safeLoad text = .document v →
      StandsIn text v)
    {vars : List String} (hscan : scanYamlVars d = .ok vars) {name : String}
    (hname : '/' ∉ name.toList) {s : String}
    (hs : .str s ∈ DocTree.leaves
      (.map (d.filesAt safeLoad dir (dir.join (name ++ ".yaml"))).entries))
    {var : List Char} (hvar : var ∈ references 0 (protect s)) : String.ofList var ∈ vars := by
  cases hfile : d.filesAt safeLoad dir (dir.join (name ++ ".yaml")) with
  | document v =>
    obtain ⟨text, hmem, hload⟩ := Directory.exists_of_filesAt hname hfile
    have hsv : .str s ∈ v.leaves := by
      rw [hfile] at hs
      cases v with
      | map d => exact hs
      | _ => exact absurd hs List.not_mem_nil
    have hyaml : (name ++ ".yaml", Except.ok text) ∈ d.yamlFiles :=
      mem_yamlFiles_iff.mpr ⟨hmem, name.toList, by rw [String.toList_append]⟩
    exact mem_of_scanFiles hscan hyaml (mem_scanText (hstands _ hmem text v rfl hload) hsv hvar)
  | _ => rw [hfile] at hs; exact absurd hs List.not_mem_nil

/-- **What the check is worth.** When it succeeds and every documented key is
set, the substitution phase lacks no variable, whichever overlay is loaded;
every name it looks up is one the check found. -/
theorem checkEnvExample_sound {safeLoad : String → FileContents} {dir : PurePath} {d : Directory}
    (hstands : ∀ e ∈ d.files, ∀ text v, e.2 = .ok text → safeLoad text = .document v →
      StandsIn text v)
    {configDir envExample example_ : String} {out : List String}
    (hcheck : checkEnvExample configDir envExample d (.ok example_) = .ok (.ok out))
    {environ : Environ} (hset : ∀ key ∈ parseEnvExample example_, (environ key).isSome)
    {name : String} (hname : '/' ∉ name.toList) {merged : Dict YamlKey Yaml}
    (hparse : parsePhase (d.filesAt safeLoad dir) (dir.join "default.yaml")
      (dir.join (name ++ ".yaml")) = .ok merged) :
    (∃ t, loadTree (d.filesAt safeLoad dir) environ dir name = .ok t)
      ∧ ∃ vars, scanYamlVars d = .ok vars
        ∧ ∀ s, .str s ∈ DocTree.leaves (.map merged) →
            ∀ var ∈ references 0 (protect s), String.ofList var ∈ vars := by
  obtain ⟨vars, keys, hscan, hkeys, hdoc⟩ := checkEnvExample_eq_ok hcheck
  obtain rfl := Except.ok.inj hkeys
  have hfound : ∀ s, .str s ∈ DocTree.leaves (.map merged) →
      ∀ var ∈ references 0 (protect s), String.ofList var ∈ vars := by
    intro s hs var hvar
    rw [parsePhase_eq_ok hparse] at hs
    rcases mem_leaves_deepMerge hs with hs | hs
    · exact mem_scanYamlVars hstands hscan (show '/' ∉ "default".toList by decide) hs hvar
    · exact mem_scanYamlVars hstands hscan hname hs hvar
  refine ⟨⟨_, loadTree_eq_ok_iff.mpr ⟨merged, hparse, ?_, rfl⟩⟩, vars, hscan, hfound⟩
  rw [substitute_snd, List.flatMap_eq_nil_iff]
  intro a ha
  cases a with
  | str s =>
    -- every name it looks up is documented, and so set
    rw [scalarErrors, List.map_eq_nil_iff, missingVars, List.filter_eq_nil_iff]
    intro var hvar
    have hsome := hset _ (hdoc _ (hfound s ha var hvar))
    rw [Bool.not_eq_true, Option.isNone_eq_false_iff]
    exact hsome
  | _ => rfl

/-- A directory with an escape before a reference in its overlay. -/
def sampleDirectory : Directory where
  files :=
    [("default.yaml", .ok "a: $\x7bA\x7d\n"),
      ("prod.yaml", .ok "b: $$\x7bB\x7d$\x7bC\x7d\n")]
  name_ok := by decide

/-- The two documents, by the text of the file each is in. -/
def sampleLoad (text : String) : FileContents :=
  if text = "a: $\x7bA\x7d\n" then .document (.map [(.str "a", Yaml.str "$\x7bA\x7d")])
  else .document (.map [(.str "b", Yaml.str "$$\x7bB\x7d$\x7bC\x7d")])

theorem standsIn_sampleDirectory :
    ∀ e ∈ sampleDirectory.files, ∀ text v, e.2 = .ok text → sampleLoad text = .document v →
      StandsIn text v := by
  intro e he text v htext hv s hs
  rcases List.mem_cons.mp he with rfl | he
  · obtain rfl := Except.ok.inj htext
    obtain rfl := FileContents.document.inj hv
    obtain rfl := YamlScalar.str.inj (List.mem_singleton.mp hs)
    exact ⟨"a: ".toList, "\n".toList, by decide, by decide, by decide⟩
  · obtain rfl := List.mem_singleton.mp he
    obtain rfl := Except.ok.inj htext
    obtain rfl := FileContents.document.inj hv
    obtain rfl := YamlScalar.str.inj (List.mem_singleton.mp hs)
    exact ⟨"b: ".toList, "\n".toList, by decide, by decide, by decide⟩

theorem checkEnvExample_sound_prod :
    ∃ t, loadTree (sampleDirectory.filesAt sampleLoad (PurePath.ofString "/app/config"))
      (fun name => if name = "A" ∨ name = "C" then some "1" else none)
      (PurePath.ofString "/app/config") "prod" = .ok t := by
  refine (checkEnvExample_sound standsIn_sampleDirectory
    (show checkEnvExample "config" ".env.example" sampleDirectory
        (.ok "# keys\nA=\n\n C = x=y \n")
      = .ok (.ok ["OK: 2 env var(s) referenced and documented."]) from by decide)
    (fun key hkey => ?_) (show '/' ∉ "prod".toList by decide)
    (show _ = Except.ok [(.str "a", Yaml.str "$\x7bA\x7d"),
      (.str "b", Yaml.str "$$\x7bB\x7d$\x7bC\x7d")] from rfl)).1
  have hkeys : parseEnvExample "# keys\nA=\n\n C = x=y \n" = ["A", "C"] := by decide
  rw [hkeys] at hkey
  rcases List.mem_cons.mp hkey with rfl | hkey
  · rfl
  · obtain rfl := List.mem_singleton.mp hkey
    rfl
