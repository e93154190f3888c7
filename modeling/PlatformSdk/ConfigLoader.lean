import PlatformSdk.ConfigModels

/-!
# Loading a configuration

`load_config` reads `default.yaml` and the overlay named after the
environment, merges them, resolves every `${VAR}` from the process
environment, and validates the result. The three phases – parse, substitute,
validate – are three functions here, since the first failing one decides what
is reported: `loadTree` is the first two, and `loadConfig` hands its tree to
the model.

The file system is a function from paths to what is found there, the process
environment a function from names to values, so that one load is a function
of both. A file that is there may still not open or not decode; what that
raises is no `ConfigError` and passes through.
-/

/-! ## Paths -/

/-- **A POSIX path**, as `pathlib` keeps it: a root, and components none of
which is empty or a dot. -/
structure PurePath where
  /-- `""`, `"/"` or `"//"`. -/
  root : String
  /-- The components. -/
  parts : List String
  deriving DecidableEq

namespace PurePath

/-- `Path(s)`: empty components and dots are dropped, the root is kept. -/
def ofString (s : String) : PurePath where
  root :=
    if "/".toList.isPrefixOf s.toList then
      if "//".toList.isPrefixOf s.toList && !"///".toList.isPrefixOf s.toList then "//" else "/"
    else ""
  parts := (pySplit s '/').filter (fun c => c ≠ "" ∧ c ≠ ".")

/-- `p / s`: an absolute `s` replaces `p`, and another one goes behind it. -/
def join (p : PurePath) (s : String) : PurePath :=
  if (ofString s).root ≠ "" then ofString s
  else { p with parts := p.parts ++ (ofString s).parts }

/-- `str(p)`, which is a dot for the empty path. -/
def toString (p : PurePath) : String :=
  if p.root = "" ∧ p.parts = [] then "."
  else p.root ++ String.intercalate "/" p.parts

end PurePath

/-- **What is found at a path**, as opening and parsing it tells. -/
inductive FileContents where
  /-- Nothing. -/
  | absent
  /-- A file whose reading raises something other than a `YAMLError`. -/
  | unreadable (exc : PyExc)
  /-- A file that is no YAML: the line of the problem, if it has one, and
  the problem in words. -/
  | malformed (line : Option ℕ) (problem : String)
  /-- A YAML document. -/
  | document (v : Yaml)

/-- The file system: what reading the file at a path comes to. -/
abbrev Files := PurePath → FileContents

/-! ## Errors -/

/-- **A single, structured loader problem**: where it is, what field it is
about, and what is wrong. -/
structure ConfigErrorDetail where
  location : String
  field : String
  reason : String
  deriving DecidableEq

/-- **`ConfigError`**: every problem of a phase, and a hint. -/
structure ConfigError where
  errors : List ConfigErrorDetail
  hint : String := ""
  deriving DecidableEq

namespace ConfigError

/-- `f"{s:30s}"`: a longer text is not cut. -/
def pad30 (s : String) : String := s ++ String.ofList (List.replicate (30 - s.length) ' ')

/-- The line of one problem, as `ConfigError` prints it. -/
def formatDetail (d : ConfigErrorDetail) : String :=
  let fieldPart := if d.field ≠ "" then "field '" ++ d.field ++ "'" else "(parse)"
  "  - " ++ pad30 d.location ++ "  " ++ pad30 fieldPart ++ "  : " ++ d.reason

/-- **`_format`**: the text of the exception, one line for each problem. -/
def format (e : ConfigError) : String :=
  let head := e.errors.length.repr ++ " problem" ++ (if e.errors.length ≠ 1 then "s" else "")
    ++ " loading configuration:"
  let hint := if e.hint ≠ "" then ["Hint: " ++ e.hint] else []
  String.intercalate "\n" (head :: e.errors.map formatDetail ++ hint)

end ConfigError

/-- How a load fails: with a `ConfigError`, or with whatever reading a file
raised. -/
inductive LoadFailure where
  | configError (e : ConfigError)
  | raised (exc : PyExc)

/-! ## Phase 1: parse -/

/-- `_read_yaml`: the document, `{}` for a falsy one, with the problems
met. -/
def readYaml (path : PurePath) : FileContents → Except PyExc (Yaml × List ConfigErrorDetail)
  | .absent => .error (.osError ("No such file or directory: '" ++ path.toString ++ "'"))
  | .unreadable exc => .error exc
  | .malformed line problem =>
    let location := match line with
      | some n => path.toString ++ ":" ++ (n + 1).repr
      | none => path.toString
    .ok (.map [], [⟨location, "", "YAML parse error: " ++ problem⟩])
  | .document v => .ok (if v.truthy then v else .map [], [])

/-- The overlay is read only if it is there. -/
def readOverlay (path : PurePath) :
    FileContents → Except PyExc (Option Yaml × List ConfigErrorDetail)
  | .absent => .ok (none, [])
  | contents => (readYaml path contents).map (fun r => (some r.1, r.2))

mutual

/-- What an entry of the overlay leaves at its key: two mappings are merged,
anything else replaces. -/
def mergeValue : Option Yaml → Yaml → Yaml
  | some (.map b), .map o => .map (deepMerge b o)
  | _, v => v

/-- **`_deep_merge`**: the overlay's entries, written one by one into the
base. -/
def deepMerge : Dict YamlKey Yaml → List (YamlKey × Yaml) → Dict YamlKey Yaml
  | out, [] => out
  | out, (k, v) :: overlay =>
    deepMerge (Yaml.put out k (mergeValue ((Yaml.byValue out).get? k.value) v)) overlay

end

/-- The problem of a file whose top level is no mapping. -/
def notAMapping (path : PurePath) : ConfigErrorDetail where
  location := path.toString
  field := ""
  reason := "top-level must be a YAML mapping (object), not a list or scalar"

/-- The merged mapping of two files, or the problems at which the phase ends. -/
def parsePhase (files : Files) (defaultPath overlayPath : PurePath) :
    Except LoadFailure (Dict YamlKey Yaml) :=
  match files defaultPath with
  | .absent => .error (.configError ⟨[⟨defaultPath.toString, "", "default.yaml not found"⟩], ""⟩)
  | contents =>
    match readYaml defaultPath contents with
    | .error exc => .error (.raised exc)
    | .ok (base, baseErrors) =>
      match readOverlay overlayPath (files overlayPath) with
      | .error exc => .error (.raised exc)
      | .ok (overlay, overlayErrors) =>
        if baseErrors ++ overlayErrors ≠ [] then
          .error (.configError ⟨baseErrors ++ overlayErrors, ""⟩)
        else
          -- an overlay that is not there merges nothing, as does an empty one
          match base, overlay with
          | .map b, none => .ok (deepMerge b [])
          | .map b, some (.map o) => .ok (deepMerge b o)
          | .map _, some _ => .error (.configError ⟨[notAMapping overlayPath], ""⟩)
          | _, _ => .error (.configError ⟨[notAMapping defaultPath], ""⟩)

/-! ## Phase 2: `${VAR}` substitution -/

/-- `s.replace(pat, rep)` for a non-empty `pat`, `k` characters of a match
being left to skip. -/
def replaceFrom (pat rep : List Char) : ℕ → List Char → List Char
  | _, [] => []
  | k + 1, _ :: cs => replaceFrom pat rep k cs
  | 0, c :: cs =>
    if pat.isPrefixOf (c :: cs) then rep ++ replaceFrom pat rep (pat.length - 1) cs
    else c :: replaceFrom pat rep 0 cs

/-- `[A-Z_]`, what the name of a variable begins with. -/
def isNameStart (c : Char) : Bool := ('A' ≤ c && c ≤ 'Z') || c == '_'

/-- `[A-Z0-9_]`, what the name of a variable goes on with. -/
def isNameChar (c : Char) : Bool := isNameStart c || ('0' ≤ c && c ≤ '9')

/-- **`_VAR_RE`** at the start of a text: the name of the reference that
starts here. -/
def matchVar : List Char → Option (List Char)
  | '$' :: '\x7b' :: cs =>
    match cs.takeWhile isNameChar, cs.dropWhile isNameChar with
    | n :: name, '\x7d' :: _ => if isNameStart n then some (n :: name) else none
    | _, _ => none
  | _ => none

/-- The text of a reference to a variable, braces included. -/
def varText (name : List Char) : List Char := '$' :: '\x7b' :: name ++ ['\x7d']

/-- The references `_VAR_RE` finds in a text, `k` characters of a match being
left to skip. -/
def references : ℕ → List Char → List (List Char)
  | _, [] => []
  | k + 1, _ :: cs => references k cs
  | 0, c :: cs =>
    match matchVar (c :: cs) with
    | some name => name :: references (name.length + 2) cs
    | none => references 0 cs

/-- `_VAR_RE.sub(_resolve, work)`: a reference that is not set stays as it
is. -/
def resolveFrom (environ : Environ) : ℕ → List Char → List Char
  | _, [] => []
  | k + 1, _ :: cs => resolveFrom environ k cs
  | 0, c :: cs =>
    match matchVar (c :: cs) with
    | some name =>
      ((environ (String.ofList name)).map String.toList).getD (varText name)
        ++ resolveFrom environ (name.length + 2) cs
    | none => c :: resolveFrom environ 0 cs

/-- `SENTINEL`, which stands for a dollar while the references are replaced. -/
def sentinel : List Char := "\x00DOLLAR\x00".toList

/-- A string with its `$$` put out of the way. -/
def protect (s : String) : List Char := replaceFrom "$$".toList sentinel 0 s.toList

/-- What a string becomes: its escapes are hidden, its references resolved, and
the escapes put back as dollars. -/
def substituteStr (environ : Environ) (s : String) : String :=
  String.ofList (replaceFrom sentinel "$".toList 0 (resolveFrom environ 0 (protect s)))

/-- The references of a string that are not set. -/
def missingVars (environ : Environ) (s : String) : List (List Char) :=
  (references 0 (protect s)).filter (fun name => (environ (String.ofList name)).isNone)

/-- The problem of a reference that is not set. -/
def missingVar (sourcePath : PurePath) (name : List Char) : ConfigErrorDetail where
  location := sourcePath.toString
  field := ""
  reason := String.ofList name ++ " not set in environment"

/-- A scalar with its references resolved: only strings carry any. -/
def substituteScalar (environ : Environ) : YamlScalar → YamlScalar
  | .str s => .str (substituteStr environ s)
  | a => a

/-- The problems of a scalar: one for each reference in it that is not set, in
order. -/
def scalarErrors (environ : Environ) (sourcePath : PurePath) : YamlScalar → List ConfigErrorDetail
  | .str s => (missingVars environ s).map (missingVar sourcePath)
  | _ => []

mutual

/-- **`_substitute`**: the tree with its references resolved, and the
problems met. -/
def substitute (environ : Environ) (sourcePath : PurePath) :
    Yaml → Yaml × List ConfigErrorDetail
  | .leaf a => (.leaf (substituteScalar environ a), scalarErrors environ sourcePath a)
  | .list xs =>
    let r := substituteList environ sourcePath xs
    (.list r.1, r.2)
  | .map d =>
    let r := substituteMap environ sourcePath d
    (.map r.1, r.2)

/-- The members of a list, with the problems of all of them. -/
def substituteList (environ : Environ) (sourcePath : PurePath) :
    List Yaml → List Yaml × List ConfigErrorDetail
  | [] => ([], [])
  | x :: xs =>
    let r := substitute environ sourcePath x
    let rs := substituteList environ sourcePath xs
    (r.1 :: rs.1, r.2 ++ rs.2)

/-- The values of a mapping, whose keys are left as they are. -/
def substituteMap (environ : Environ) (sourcePath : PurePath) :
    List (YamlKey × Yaml) → List (YamlKey × Yaml) × List ConfigErrorDetail
  | [] => ([], [])
  | (k, x) :: d =>
    let r := substitute environ sourcePath x
    let rs := substituteMap environ sourcePath d
    ((k, r.1) :: rs.1, r.2 ++ rs.2)

end

/-- **The tree of `_substitute`** is the one with every scalar resolved where
it stands. -/
theorem substitute_fst (environ : Environ) (sourcePath : PurePath) (t : Yaml) :
    (substitute environ sourcePath t).1 = t.mapLeaves (substituteScalar environ) := by
  induction t using DocTree.induct with
  | leaf a => rfl
  | list xs ih =>
    rw [substitute, DocTree.mapLeaves]
    refine congrArg DocTree.list ?_
    induction xs with
    | nil => rfl
    | cons x xs ihs =>
      rw [substituteList, DocTree.mapLeavesList, ih x List.mem_cons_self,
        ihs fun y hy => ih y (List.mem_cons_of_mem x hy)]
  | map d ih =>
    rw [substitute, DocTree.mapLeaves]
    refine congrArg DocTree.map ?_
    induction d with
    | nil => rfl
    | cons e d ihd =>
      rw [substituteMap, DocTree.mapLeavesMap, ih e List.mem_cons_self,
        ihd fun e' he' => ih e' (List.mem_cons_of_mem e he')]

/-- Its problems are those of the scalars, from left to right. -/
theorem substitute_snd (environ : Environ) (sourcePath : PurePath) (t : Yaml) :
    (substitute environ sourcePath t).2
      = t.leaves.flatMap (scalarErrors environ sourcePath) := by
  induction t using DocTree.induct with
  | leaf a => simp [substitute, DocTree.leaves]
  | list xs ih =>
    rw [substitute, DocTree.leaves]
    show (substituteList environ sourcePath xs).2 = _
    induction xs with
    | nil => rfl
    | cons x xs ihs =>
      rw [substituteList, DocTree.leavesList, List.flatMap_append, ih x List.mem_cons_self,
        ihs fun y hy => ih y (List.mem_cons_of_mem x hy)]
  | map d ih =>
    rw [substitute, DocTree.leaves]
    show (substituteMap environ sourcePath d).2 = _
    induction d with
    | nil => rfl
    | cons e d ihd =>
      rw [substituteMap, DocTree.leavesMap, List.flatMap_append, ih e List.mem_cons_self,
        ihd fun e' he' => ih e' (List.mem_cons_of_mem e he')]

/-- The hint of the phase, which goes with all of its problems. -/
def substituteHint : String :=
  "every env var referenced from config/*.yaml must be listed in .env.example."

/-! ## The load -/

/-- `ENVIRONMENT`, which has to be set and not empty. -/
def envName (env : Option String) (environ : Environ) : Except LoadFailure String :=
  match (match env with | some e => some e | none => environ "ENVIRONMENT") with
  | none | some "" =>
    .error (.configError ⟨[⟨"<env>", "ENVIRONMENT", "ENVIRONMENT not set"⟩],
      "Set ENVIRONMENT=dev|staging|prod in the process environment."⟩)
  | some e => .ok e

/-- The configuration directory: the argument, else the variable, else the
default. -/
def cfgDir (configDir : Option String) (environ : Environ) : PurePath :=
  PurePath.ofString (configDir.getD ((environ "CONFIG_DIR").getD "/app/config"))

/-- **The first two phases**, for a directory and the name of an
environment. -/
def loadTree (files : Files) (environ : Environ) (dir : PurePath) (env : String) :
    Except LoadFailure Yaml :=
  match parsePhase files (dir.join "default.yaml") (dir.join (env ++ ".yaml")) with
  | .error e => .error e
  | .ok merged =>
    match substitute environ (dir.join "default.yaml") (.map merged) with
    | (t, []) => .ok t
    | (_, errors) => .error (.configError ⟨errors, substituteHint⟩)

/-- A tree comes out when the files parse and every reference is set. -/
theorem loadTree_eq_ok_iff {files : Files} {environ : Environ} {dir : PurePath} {env : String}
    {t : Yaml} :
    loadTree files environ dir env = .ok t
      ↔ ∃ merged, parsePhase files (dir.join "default.yaml") (dir.join (env ++ ".yaml"))
            = .ok merged
          ∧ (substitute environ (dir.join "default.yaml") (.map merged)).2 = []
          ∧ t = DocTree.mapLeaves (substituteScalar environ) (.map merged) := by
  rw [loadTree]
  cases parsePhase files (dir.join "default.yaml") (dir.join (env ++ ".yaml")) with
  | error e => simp
  | ok merged =>
    have h₁ := substitute_fst environ (dir.join "default.yaml") (.map merged)
    rcases hs : substitute environ (dir.join "default.yaml") (.map merged) with ⟨u, _ | ⟨e, es⟩⟩
    · rw [hs] at h₁
      simp only [Except.ok.injEq, exists_eq_left', hs, true_and]
      rw [← h₁, eq_comm]
    · simp [hs]

/-- `str` of a component of a path, where pydantic keeps a truth value as a
number and any other key that is no string as its `repr`. -/
def locText : DocTree.Step YamlKey → String
  | .key (.str s) => s
  | .key .null => "None"
  | .key (.bool b) => if b then "1" else "0"
  | .key (.int i) => i.repr
  | .key (.float r _) | .key (.other r _) => r
  | .index i => i.repr

section Load

variable (isPrintable : Char → Bool)

/-- One validation problem, its input quoted and its field named by a path with
dots. -/
def unpackError (sourcePath : PurePath) (e : ErrorDetails) : ConfigErrorDetail where
  location := sourcePath.toString
  field := String.intercalate "." (e.loc.map locText)
  reason := e.msg ++
    (if e.input = Yaml.null then "" else " (got " ++ Yaml.repr isPrintable e.input ++ ")")

/-- `_unpack_validation_error`, which keeps every problem and their order. -/
def unpackValidationError (errors : List ErrorDetails) (sourcePath : PurePath) :
    List ConfigErrorDetail :=
  errors.map (unpackError isPrintable sourcePath)

/-- **`load_config`**: the files are parsed and merged, the references resolved
and the result validated, each phase being reached only where the one before has
found no problem. -/
def loadConfig {α : Type} (validate : Yaml → Validated ErrorDetails α) (files : Files)
    (environ : Environ) (configDir env : Option String) : Except LoadFailure α :=
  match envName env environ with
  | .error e => .error e
  | .ok name =>
    match loadTree files environ (cfgDir configDir environ) name with
    | .error e => .error e
    | .ok t =>
      match validate t with
      | .ok cfg => .ok cfg
      | .error errors =>
        .error (.configError ⟨unpackValidationError isPrintable errors
          ((cfgDir configDir environ).join "default.yaml"), ""⟩)

/-- `MCPConfig.load()`, that is `load_config` with the model of an MCP service.
-/
def MCPConfig.load (c : Coercions) (files : Files) (environ : Environ)
    (configDir env : Option String := none) : Except LoadFailure MCPConfig :=
  loadConfig isPrintable (MCPConfig.modelValidate c) files environ configDir env

/-- `AgentConfig.load()`, that is `load_config` with the model of an agent. -/
def AgentConfig.load (c : Coercions) (files : Files) (environ : Environ)
    (configDir env : Option String := none) : Except LoadFailure AgentConfig :=
  loadConfig isPrintable (AgentConfig.modelValidate c) files environ configDir env

/-- **A configuration is returned** when the environment is named, the tree
loads and the model accepts it. -/
theorem loadConfig_eq_ok_iff {α : Type} {validate : Yaml → Validated ErrorDetails α}
    {files : Files} {environ : Environ} {configDir env : Option String} {cfg : α} :
    loadConfig isPrintable validate files environ configDir env = .ok cfg
      ↔ ∃ name t, envName env environ = .ok name
          ∧ loadTree files environ (cfgDir configDir environ) name = .ok t
          ∧ validate t = .ok cfg := by
  rw [loadConfig]
  cases envName env environ with
  | error e => simp
  | ok name =>
    cases ht : loadTree files environ (cfgDir configDir environ) name with
    | error e => simp [ht]
    | ok t => cases hv : validate t <;> simp [ht, hv]

end Load

example : substituteStr (fun _ => some "v") "a$$\x7bX\x7db$\x7bY\x7dc" = "a$\x7bX\x7dbvc" := by
  decide
example : (PurePath.ofString "/app//config/./x/").toString = "/app/config/x" := by decide
