import PlatformSdk.McpBridge

/-!
# The schemas a server declares for its tools

The bridge makes a typed argument model from the schema a server sends for a
tool, field by field. What a field's schema says is the server's to choose, and
so is where its `$ref` leads: `resolveFieldPythonType` follows the references
through the root schema and looks at what it finds as if it were a mapping.

`resolveFieldPythonType_ok_iff` says for which schemas that returns a type. A
chain of references has to end before the interpreter runs out of stack, and
has to end with something that has the methods the code calls; where it starts,
a `TypeError` is not caught, and everywhere else it is.
-/

/-- The types `_JSON_TYPE_MAP` maps to. -/
inductive PyType where
  | str
  | int
  | float
  | bool
  | dict
  | list
  deriving DecidableEq

/-- `_JSON_TYPE_MAP`. -/
def jsonTypeMap : Dict String PyType :=
  [("string", .str), ("integer", .int), ("number", .float), ("boolean", .bool),
    ("object", .dict), ("array", .list)]

/-- The combinators that are not translated. -/
def combinators : List String := ["allOf", "anyOf", "oneOf"]

/-! ## What Python does with a value that is taken for a mapping -/

/-- `v.get(key, default)`. -/
def pyGet (v : Json) (key : String) (default : Json) : Except PyExc Json :=
  match v with
  | .map d => .ok ((Dict.get? d key).getD default)
  | _ => .error (.attributeError "object has no attribute 'get'")

/-- `v[key]`, for a key that is in `v`. -/
def pyItem (v : Json) (key : String) : Except PyExc Json :=
  match v with
  | .map d => .ok ((Dict.get? d key).getD Json.null)
  | _ => .error (.typeError "indices must be integers")

/-- Whether some of the words is `in` a value. -/
def pyInAny : List String → Json → Except PyExc Bool
  | [], _ => .ok false
  | key :: keys, v =>
    match pyIn key v with
    | .ok false => pyInAny keys v
    | r => r

/-- `ref.lstrip("#/").split("/")`. -/
def refPath (ref : String) : List String :=
  pySplit (String.ofList (ref.toList.dropWhile fun c => c = '#' || c = '/')) '/'

/-- `resolved = resolved[part]` along a path, `none` at a `KeyError` or a
`TypeError`. -/
def walkPath : Json → List String → Option Json
  | v, [] => some v
  | .map d, part :: parts =>
    match Dict.get? d part with
    | some v => walkPath v parts
    | none => none
  | _, _ :: _ => none

/-- `_JSON_TYPE_MAP.get(json_type)`, or `str` where it has none. -/
def mapType : Json → Except PyExc PyType
  | .leaf (.str s) => .ok ((jsonTypeMap.get? s).getD .str)
  | .leaf _ => .ok .str
  | .list _ => .error (.typeError "unhashable type: 'list'")
  | .map _ => .error (.typeError "unhashable type: 'dict'")

/-- What becomes of the type a reference leads to: a `TypeError` is caught. -/
def catchTypeError : Except PyExc PyType → Except PyExc PyType
  | .error (.typeError _) => .ok .dict
  | r => r

/-- The type of a schema that has no `$ref`. -/
def plainType (schema : Json) : Except PyExc PyType :=
  match pyInAny combinators schema with
  | .error exc => .error exc
  | .ok true => .ok .dict
  | .ok false => (pyGet schema "type" (Json.str "string")).bind mapType

/-- The type a `$ref` stands for: that of what it leads to, or `dict` where it
leads nowhere. -/
def refType (root : Json) (resolve : Json → Except PyExc PyType) : Json → Except PyExc PyType
  | .leaf (.str ref) =>
    match walkPath root (refPath ref) with
    | none => .ok .dict
    | some resolved => catchTypeError (resolve resolved)
  | _ => .error (.attributeError "object has no attribute 'lstrip'")

/-- **`_resolve_field_python_type`**, with as many nested calls as the recursion
limit leaves. A `RecursionError` is a `RuntimeError`. -/
def resolveFieldPythonType (root : Json) : ℕ → Json → Except PyExc PyType
  | 0, _ => .error (.runtimeError "maximum recursion depth exceeded")
  | frames + 1, schema =>
    match pyIn "$ref" schema with
    | .error exc => .error exc
    | .ok true => (pyItem schema "$ref").bind (refType root (resolveFieldPythonType root frames))
    | .ok false => plainType schema

/-! ## Where a chain of references ends -/

/-- Where the `$ref` of a schema leads. -/
def refTarget (root : Json) : Json → Option Json
  | .map d =>
    match Dict.get? d "$ref" with
    | some (.leaf (.str ref)) => walkPath root (refPath ref)
    | _ => none
  | _ => none

/-- **The chain of references from a schema ends with `e`**, after fewer than
`n` of them. -/
inductive RefEnds (root : Json) : ℕ → Json → Json → Prop where
  | here {n : ℕ} {e : Json} (h : refTarget root e = none) : RefEnds root (n + 1) e e
  | there {n : ℕ} {v w e : Json} (h : refTarget root v = some w) (hw : RefEnds root n w e) :
    RefEnds root (n + 1) v e

/-- Whether a word is in a list, or in a text. -/
def occursIn (key : String) : Json → Bool
  | .list xs => xs.contains (Json.str key)
  | .leaf (.str s) => decide (key.toList <:+: s.toList)
  | _ => false

/-- **A schema with which a `TypeError` comes**: no container, a list or a text
with a `$ref` in it, or a mapping whose `type` is no scalar. -/
def Mistyped : Json → Prop
  | .leaf (.str s) => occursIn "$ref" (Json.str s) = true
  | .leaf _ => True
  | .list xs => occursIn "$ref" (.list xs) = true
  | .map d => "$ref" ∉ Dict.keys d ∧ (∀ key ∈ combinators, key ∉ Dict.keys d)
      ∧ ∃ v, Dict.get? d "type" = some v ∧ ∀ a, v ≠ .leaf a

/-- **A schema with which an `AttributeError` comes**: a list or a text with
none of the keywords in it, or a mapping whose `$ref` is no text. -/
def LacksMethod : Json → Prop
  | .leaf (.str s) => ∀ key ∈ "$ref" :: combinators, occursIn key (Json.str s) = false
  | .leaf _ => False
  | .list xs => ∀ key ∈ "$ref" :: combinators, occursIn key (.list xs) = false
  | .map d => ∃ v, Dict.get? d "$ref" = some v ∧ ∀ s, v ≠ Json.str s

/-- **A schema the code can give a type.** It is not mistyped itself, and its
chain of references ends, with a schema that has the methods. -/
def Resolvable (root : Json) (frames : ℕ) (schema : Json) : Prop :=
  ¬ Mistyped schema ∧ ∃ e, RefEnds root frames schema e ∧ ¬ LacksMethod e

section Resolve

variable {root : Json} {frames : ℕ}

theorem pyInAny_eq {v : Json} {f : String → Bool} (h : ∀ key, pyIn key v = .ok (f key))
    (keys : List String) : pyInAny keys v = .ok (keys.any f) := by
  induction keys with
  | nil => rfl
  | cons key keys ih =>
    rw [pyInAny, h, List.any_cons]
    cases f key with
    | false => exact ih
    | true => rfl

/-- **The three ways a call of the function can go.** -/
def Outcome (schema : Json) (r : Except PyExc PyType) : Prop :=
  (LacksMethod schema → ∃ msg, r = .error (.attributeError msg))
    ∧ (Mistyped schema → ∃ msg, r = .error (.typeError msg))
    ∧ (¬ LacksMethod schema → ¬ Mistyped schema → ∃ t, r = .ok t)

/-- A list or a text is asked for its members or its substrings, and then for
a method it lacks. -/
theorem outcome_of_occursIn {v : Json} (hin : ∀ key, pyIn key v = .ok (occursIn key v))
    (hitem : ∃ msg, pyItem v "$ref" = .error (.typeError msg))
    (hget : ∃ msg, pyGet v "type" (Json.str "string") = .error (.attributeError msg))
    (hmistyped : Mistyped v ↔ occursIn "$ref" v = true)
    (hlacks : LacksMethod v ↔ ∀ key ∈ "$ref" :: combinators, occursIn key v = false) :
    Outcome v (resolveFieldPythonType root (frames + 1) v) := by
  obtain ⟨m, hitem⟩ := hitem
  obtain ⟨m', hget⟩ := hget
  rw [Outcome, hmistyped, hlacks, resolveFieldPythonType, hin]
  cases hr : occursIn "$ref" v with
  | true =>
    refine ⟨fun h => ?_, fun _ => ⟨m, congrArg (Except.bind · _) hitem⟩, fun _ h => absurd rfl h⟩
    have := h "$ref" List.mem_cons_self
    rw [hr] at this
    cases this
  | false =>
    simp only [plainType, pyInAny_eq hin, hget]
    cases hany : combinators.any fun key => occursIn key v with
    | true =>
      refine ⟨fun h => ?_, fun h => (by cases h), fun _ _ => ⟨.dict, rfl⟩⟩
      obtain ⟨key, hkey, hocc⟩ := List.any_eq_true.mp hany
      rw [h key (List.mem_cons_of_mem _ hkey)] at hocc
      cases hocc
    | false =>
      refine ⟨fun _ => ⟨m', rfl⟩, fun h => (by cases h), fun h _ => absurd ?_ h⟩
      intro key hkey
      rcases List.mem_cons.mp hkey with rfl | hkey
      · exact hr
      · exact Bool.eq_false_of_not_eq_true (List.any_eq_false.mp hany key hkey)

/-- A mapping without a `$ref` is asked for a combinator, and for its type. -/
theorem outcome_of_no_ref {d : Dict String Json} (hno : "$ref" ∉ d.keys) :
    Outcome (.map d) (plainType (.map d)) := by
  have hlacks : ¬ LacksMethod (.map d) := by
    rintro ⟨v, hv, -⟩
    exact hno ((d.mem_keys_iff "$ref").mpr ⟨v, hv⟩)
  have hin : ∀ key, pyIn key (.map d) = .ok (decide (key ∈ d.keys)) := fun _ => rfl
  rw [plainType, pyInAny_eq hin]
  cases hany : combinators.any fun key => decide (key ∈ d.keys) with
  | true =>
    refine ⟨fun h => absurd h hlacks, fun h => ?_, fun _ _ => ⟨.dict, rfl⟩⟩
    obtain ⟨key, hkey, hmem⟩ := List.any_eq_true.mp hany
    exact absurd (of_decide_eq_true hmem) (h.2.1 key hkey)
  | false =>
    have hcomb : ∀ key ∈ combinators, key ∉ d.keys := fun key hkey hmem =>
      List.any_eq_false.mp hany key hkey (decide_eq_true hmem)
    show Outcome (.map d) (mapType ((d.get? "type").getD (Json.str "string")))
    refine ⟨fun h => absurd h hlacks, ?_, fun _ hm => ?_⟩
    · rintro ⟨-, -, v, hv, hne⟩
      rw [hv]
      cases v with
      | leaf a => exact absurd rfl (hne a)
      | list xs => exact ⟨_, rfl⟩
      | map e => exact ⟨_, rfl⟩
    · cases hv : d.get? "type" with
      | none => exact ⟨.str, rfl⟩
      | some v =>
        cases v with
        | leaf a => cases a <;> exact ⟨_, rfl⟩
        | list xs => exact absurd ⟨hno, hcomb, _, hv, fun a h => by cases h⟩ hm
        | map e => exact absurd ⟨hno, hcomb, _, hv, fun a h => by cases h⟩ hm

/-- A mapping with a `$ref` is resolved by it. -/
theorem resolveFieldPythonType_of_ref {d : Dict String Json} {v : Json}
    (hv : d.get? "$ref" = some v) :
    resolveFieldPythonType root (frames + 1) (.map d)
      = refType root (resolveFieldPythonType root frames) v := by
  have hin : pyIn "$ref" (.map d) = .ok true :=
    congrArg Except.ok (decide_eq_true ((d.mem_keys_iff "$ref").mpr ⟨v, hv⟩))
  have hitem : pyItem (.map d) "$ref" = .ok v := by
    show Except.ok ((d.get? "$ref").getD Json.null) = _
    rw [hv]
    rfl
  rw [resolveFieldPythonType, hin, hitem]
  rfl

theorem refTarget_of_ref {d : Dict String Json} {ref : String}
    (hv : d.get? "$ref" = some (Json.str ref)) :
    refTarget root (.map d) = walkPath root (refPath ref) := by
  rw [refTarget, hv]

/-- **Where no reference leads on**, the schema itself decides. -/
theorem outcome_of_refTarget_none {schema : Json} (h : refTarget root schema = none) :
    Outcome schema (resolveFieldPythonType root (frames + 1) schema) := by
  cases schema with
  | leaf a =>
    cases a with
    | str s => exact outcome_of_occursIn (fun _ => rfl) ⟨_, rfl⟩ ⟨_, rfl⟩ Iff.rfl Iff.rfl
    | _ => exact ⟨fun h => h.elim, fun _ => ⟨_, rfl⟩, fun _ h => absurd trivial h⟩
  | list xs => exact outcome_of_occursIn (fun _ => rfl) ⟨_, rfl⟩ ⟨_, rfl⟩ Iff.rfl Iff.rfl
  | map d =>
    cases hv : Dict.get? d "$ref" with
    | none =>
      have hno : "$ref" ∉ Dict.keys d := (Dict.get?_eq_none_iff d "$ref").mp hv
      have hin : pyIn "$ref" (.map d) = .ok false := congrArg Except.ok (decide_eq_false hno)
      rw [resolveFieldPythonType, hin]
      exact outcome_of_no_ref hno
    | some v =>
      have hmem : "$ref" ∈ Dict.keys d := (Dict.mem_keys_iff d "$ref").mpr ⟨v, hv⟩
      have hmistyped : ¬ Mistyped (.map d) := fun hm => hm.1 hmem
      rw [resolveFieldPythonType_of_ref hv]
      by_cases htext : ∃ ref, v = Json.str ref
      · obtain ⟨ref, rfl⟩ := htext
        have hlacks : ¬ LacksMethod (.map d) := by
          rintro ⟨w, hw, hne⟩
          exact hne ref (Option.some.inj (hw.symm.trans hv))
        rw [refTarget_of_ref hv] at h
        refine ⟨fun hl => absurd hl hlacks, fun hm => absurd hm hmistyped, fun _ _ => ⟨.dict, ?_⟩⟩
        rw [refType, h]
      · have hne : ∀ s, v ≠ Json.str s := fun s hs => htext ⟨s, hs⟩
        refine ⟨fun _ => ?_, fun hm => absurd hm hmistyped, fun hl _ => absurd ⟨v, hv, hne⟩ hl⟩
        cases v with
        | leaf a =>
          cases a with
          | str s => exact absurd rfl (hne s)
          | _ => exact ⟨_, rfl⟩
        | list xs => exact ⟨_, rfl⟩
        | map e => exact ⟨_, rfl⟩

/-- Where a reference leads on, what it leads to decides, its `TypeError`s
caught. -/
theorem resolveFieldPythonType_of_refTarget (frames : ℕ) {v w : Json}
    (h : refTarget root v = some w) :
    resolveFieldPythonType root (frames + 1) v
        = catchTypeError (resolveFieldPythonType root frames w)
      ∧ ¬ Mistyped v := by
  cases v with
  | leaf a => cases h
  | list xs => cases h
  | map d =>
    cases hv : Dict.get? d "$ref" with
    | none =>
      rw [refTarget, hv] at h
      cases h
    | some r =>
      have hmem : "$ref" ∈ Dict.keys d := (Dict.mem_keys_iff d "$ref").mpr ⟨r, hv⟩
      refine ⟨?_, fun hm => hm.1 hmem⟩
      rw [refTarget, hv] at h
      rw [resolveFieldPythonType_of_ref hv]
      cases r with
      | leaf a =>
        cases a with
        | str ref =>
          have hwalk : walkPath root (refPath ref) = some w := h
          rw [refType, hwalk]
        | _ => cases h
      | list xs => cases h
      | map e => cases h

/-- **A chain that ends** decides by its end what is raised, and by its start
what is caught. -/
theorem outcome_of_refEnds {v e : Json} (h : RefEnds root frames v e) :
    (LacksMethod e → ∃ msg, resolveFieldPythonType root frames v = .error (.attributeError msg))
      ∧ (¬ LacksMethod e → Mistyped v →
        ∃ msg, resolveFieldPythonType root frames v = .error (.typeError msg))
      ∧ (¬ LacksMethod e → ¬ Mistyped v →
        ∃ t, resolveFieldPythonType root frames v = .ok t) := by
  induction h with
  | here h =>
    obtain ⟨hlacks, hmistyped, hok⟩ := outcome_of_refTarget_none h
    exact ⟨hlacks, fun _ => hmistyped, hok⟩
  | there h hw ih =>
    next n v w e =>
    obtain ⟨hlacks, hmistyped, hok⟩ := ih
    obtain ⟨heq, hv⟩ := resolveFieldPythonType_of_refTarget n h
    rw [heq]
    refine ⟨fun hl => ?_, fun _ hm => absurd hm hv, fun hl _ => ?_⟩
    · obtain ⟨msg, hmsg⟩ := hlacks hl
      exact ⟨msg, by rw [hmsg]; rfl⟩
    · by_cases hm : Mistyped w
      · obtain ⟨msg, hmsg⟩ := hmistyped hl hm
        exact ⟨.dict, by rw [hmsg]; rfl⟩
      · obtain ⟨t, ht⟩ := hok hl hm
        exact ⟨t, by rw [ht]; rfl⟩

/-- **A chain that does not end** overflows the stack. -/
theorem resolveFieldPythonType_of_no_end {v : Json} (h : ∀ e, ¬ RefEnds root frames v e) :
    resolveFieldPythonType root frames v
      = .error (.runtimeError "maximum recursion depth exceeded") := by
  induction frames generalizing v with
  | zero => rfl
  | succ n ih =>
    cases hv : refTarget root v with
    | none => exact absurd (RefEnds.here hv) (h v)
    | some w =>
      rw [(resolveFieldPythonType_of_refTarget _ hv).1, ih fun e he => h e (RefEnds.there hv he)]
      rfl

/-- **When a schema gets a type**: exactly when it can be resolved, by induction
on the frames of the interpreter. -/
theorem resolveFieldPythonType_ok_iff {schema : Json} :
    (∃ t, resolveFieldPythonType root frames schema = .ok t) ↔ Resolvable root frames schema := by
  constructor
  · rintro ⟨t, ht⟩
    by_cases hend : ∃ e, RefEnds root frames schema e
    · obtain ⟨e, he⟩ := hend
      obtain ⟨hlacks, hmistyped, -⟩ := outcome_of_refEnds he
      have hl : ¬ LacksMethod e := fun hl => by
        obtain ⟨msg, hmsg⟩ := hlacks hl
        rw [hmsg] at ht
        cases ht
      refine ⟨fun hm => ?_, e, he, hl⟩
      obtain ⟨msg, hmsg⟩ := hmistyped hl hm
      rw [hmsg] at ht
      cases ht
    · rw [resolveFieldPythonType_of_no_end fun e he => hend ⟨e, he⟩] at ht
      cases ht
  · rintro ⟨hm, e, he, hl⟩
    exact (outcome_of_refEnds he).2.2 hl hm

end Resolve

/-! ## The argument model -/

/-- **A field of an argument model**: its type, and what `Field` is given. One
that is not required has a default, and an optional type. -/
structure ArgsField where
  pythonType : PyType
  required : Bool
  default : Json
  description : Json

/-- Whether a value can be a member of a `set`. -/
def isHashable : Json → Bool
  | .leaf _ => true
  | _ => false

/-- `set(v)`. -/
def pySet : Json → Except PyExc (List Json)
  | .list xs =>
    if xs.all isHashable then .ok xs else .error (.typeError "unhashable type")
  | .map d => .ok ((Dict.keys d).map Json.str)
  | .leaf (.str s) => .ok (s.toList.map fun c => Json.str (String.ofList [c]))
  | .leaf _ => .error (.typeError "object is not iterable")

/-- A field, from its schema: its type and its description, and a default unless
it is required. -/
def buildField (root : Json) (frames : ℕ) (required : List Json) (name : String) (schema : Json) :
    Except PyExc ArgsField :=
  (resolveFieldPythonType root frames schema).bind fun pythonType =>
    (pyGet schema "description" (Json.str "")).bind fun description =>
      if required.contains (Json.str name) then .ok ⟨pythonType, true, Json.null, description⟩
      else (pyGet schema "default" Json.null).map fun d => ⟨pythonType, false, d, description⟩

/-- The loop over the properties. -/
def buildFields (root : Json) (frames : ℕ) (required : List Json) :
    Dict String Json → Dict String ArgsField → Except PyExc (Dict String ArgsField)
  | [], fields => .ok fields
  | (name, schema) :: properties, fields =>
    (buildField root frames required name schema).bind fun field =>
      buildFields root frames required properties (fields.set name field)

/-- **`_build_args_model`**, for pydantic's `create_model`. -/
def buildArgsModel {μ : Type} (createModel : Dict String ArgsField → Except PyExc μ) (frames : ℕ)
    (inputSchema : Dict String Json) : Except PyExc μ :=
  (pySet ((inputSchema.get? "required").getD (.list []))).bind fun required =>
    match (inputSchema.get? "properties").getD (.map []) with
    | .map properties =>
      (buildFields (.map inputSchema) frames required properties []).bind createModel
    | _ => .error (.attributeError "object has no attribute 'items'")

/-- **When a field is built**: its schema gets a type, and is a mapping. -/
theorem buildField_ok_iff {root : Json} {frames : ℕ} (required : List Json) (name : String)
    {schema : Json} :
    (∃ field, buildField root frames required name schema = .ok field)
      ↔ Resolvable root frames schema ∧ ∃ d, schema = .map d := by
  rw [← resolveFieldPythonType_ok_iff, buildField]
  constructor
  · rintro ⟨field, hfield⟩
    cases ht : resolveFieldPythonType root frames schema with
    | error exc =>
      rw [ht] at hfield
      cases hfield
    | ok t =>
      rw [ht] at hfield
      cases schema with
      | leaf a => cases hfield
      | list xs => cases hfield
      | map d => exact ⟨⟨t, rfl⟩, d, rfl⟩
  · rintro ⟨⟨t, ht⟩, d, rfl⟩
    rw [ht]
    by_cases hreq : required.contains (Json.str name) = true
    · exact ⟨_, if_pos hreq⟩
    · exact ⟨_, if_neg hreq⟩

/-- **When the loop gets through**: every field is built. -/
theorem buildFields_ok_iff {root : Json} {frames : ℕ} {required : List Json}
    {properties : Dict String Json} (fields : Dict String ArgsField) :
    (∃ result, buildFields root frames required properties fields = .ok result)
      ↔ ∀ e ∈ properties, Resolvable root frames e.2 ∧ ∃ d, e.2 = .map d := by
  induction properties generalizing fields with
  | nil => exact iff_of_true ⟨fields, rfl⟩ fun e he => absurd he List.not_mem_nil
  | cons e properties ih =>
    obtain ⟨name, schema⟩ := e
    rw [List.forall_mem_cons, ← buildField_ok_iff required name, buildFields]
    constructor
    · rintro ⟨result, hresult⟩
      cases hf : buildField root frames required name schema with
      | error exc =>
        rw [hf] at hresult
        cases hresult
      | ok field =>
        rw [hf] at hresult
        exact ⟨⟨field, rfl⟩, (ih (fields.set name field)).mp ⟨result, hresult⟩⟩
    · rintro ⟨⟨field, hf⟩, hrest⟩
      rw [hf]
      exact (ih (fields.set name field)).mpr hrest

/-- **The schemas that get a type, and the fields that are built.** The function
returns a type exactly for the schemas that can be resolved, and the loop over
the properties of a tool gets through exactly when every field's schema can be
and is a mapping. -/
theorem fieldTypes_total_iff (root : Dict String Json) (frames : ℕ) (schema : Json)
    (required : List Json) (properties : Dict String Json) :
    ((∃ t, resolveFieldPythonType (.map root) frames schema = .ok t)
        ↔ Resolvable (.map root) frames schema)
      ∧ ((∃ fields, buildFields (.map root) frames required properties [] = .ok fields)
        ↔ ∀ e ∈ properties, Resolvable (.map root) frames e.2 ∧ ∃ d, e.2 = .map d) :=
  ⟨resolveFieldPythonType_ok_iff, buildFields_ok_iff []⟩

/-- A reference to itself, which a schema can hold and nobody can follow to an
end. -/
def selfRef : Json := .map [("$ref", Json.str "#/properties/query")]

/-- A schema of one property, which refers to itself. -/
def cyclicSchema : Dict String Json := [("properties", .map [("query", selfRef)])]

theorem refTarget_selfRef : refTarget (.map cyclicSchema) selfRef = some selfRef := by decide

/-- A cycle has no end, however many references are followed. -/
theorem not_refEnds_selfRef (frames : ℕ) (e : Json) :
    ¬ RefEnds (.map cyclicSchema) frames selfRef e := by
  induction frames with
  | zero =>
    intro h
    cases h
  | succ n ih =>
    intro h
    cases h with
    | here h => cases refTarget_selfRef.symm.trans h
    | there h hw => exact ih (Option.some.inj (refTarget_selfRef.symm.trans h) ▸ hw)

/-- A cycle stops the argument model of its tool. -/
theorem buildArgsModel_cyclicSchema (frames : ℕ) :
    buildArgsModel Except.ok frames cyclicSchema
      = .error (.runtimeError "maximum recursion depth exceeded") := by
  show ((((resolveFieldPythonType (.map cyclicSchema) frames selfRef).bind _).bind _).bind _) = _
  rw [resolveFieldPythonType_of_no_end (not_refEnds_selfRef frames)]
  rfl

/-- **Four schemas a server can send**: a cycle of references, a list of types,
`true`, and a `$ref` that is a number. The first one stops the argument model
too. -/
theorem fieldTypes_not_total :
    resolveFieldPythonType (.map cyclicSchema) 1000 selfRef
        = .error (.runtimeError "maximum recursion depth exceeded")
      ∧ resolveFieldPythonType (.map cyclicSchema) 1000
          (.map [("type", .list [Json.str "string", Json.str "null"])])
        = .error (.typeError "unhashable type: 'list'")
      ∧ resolveFieldPythonType (.map cyclicSchema) 1000 (Json.bool true)
        = .error (.typeError "argument is not iterable")
      ∧ resolveFieldPythonType (.map cyclicSchema) 1000 (.map [("$ref", Json.int 5)])
        = .error (.attributeError "object has no attribute 'lstrip'")
      ∧ buildArgsModel Except.ok 1000 cyclicSchema
        = .error (.runtimeError "maximum recursion depth exceeded") :=
  ⟨resolveFieldPythonType_of_no_end (not_refEnds_selfRef 1000), rfl, rfl, rfl,
    buildArgsModel_cyclicSchema 1000⟩
