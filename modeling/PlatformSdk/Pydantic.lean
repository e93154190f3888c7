import PlatformSdk.Validation
import PlatformSdk.Yaml

/-!
# Validating a document against a model

What the configuration models use of pydantic. A model is checked field by
field, in the order the fields are declared: a field that is present is
converted and constrained, one that is absent takes its default unchecked or
is reported missing, and a key that names no field is reported too. Every
problem is collected, and each carries the **offending input** – the value
that failed, or for a missing field the mapping it is missing from.

How pydantic converts a scalar to `str`, `int`, `float` or `bool` – which
strings read as numbers, which numbers as booleans – is `Coercions`, a
parameter. What the models add on top is written out: literals, bounds and
validators are this module's `Check.literal`, `Check.ge` and `Check.after`.
-/

/-- **One reported problem**, as `ValidationError.errors()` lists it. -/
structure ErrorDetails where
  /-- The path of the failing field. -/
  loc : List (DocTree.Step YamlKey)
  /-- The kind of problem. -/
  type : String
  /-- The problem in words. -/
  msg : String
  /-- The offending input. -/
  input : Yaml

/-- Why a value fails the check of its field. -/
structure FieldError where
  /-- The kind of problem. -/
  type : String
  /-- The problem in words. -/
  msg : String

/-- What a field does with the value written for it. -/
abbrev Check (α : Type) := Yaml → Except FieldError α

/-- **How a value is read at each scalar type.** -/
structure Coercions where
  str : Check String
  int : Check ℤ
  float : Check FloatValue
  bool : Check Bool

/-- The conversions that convert nothing: a value is read at its own type
only. A float has no value here beyond zero, its `repr` being text. -/
def Coercions.exact : Coercions where
  str
    | .leaf (.str s) => .ok s
    | _ => .error ⟨"string_type", "Input should be a valid string"⟩
  int
    | .leaf (.int i) => .ok i
    | _ => .error ⟨"int_type", "Input should be a valid integer"⟩
  float
    | .leaf (.int i) => .ok (.finite i)
    | _ => .error ⟨"float_type", "Input should be a valid number"⟩
  bool
    | .leaf (.bool b) => .ok b
    | _ => .error ⟨"bool_type", "Input should be a valid boolean"⟩

namespace Check

variable {α β : Type}

/-- `Literal[...]`: one of the listed strings, and no conversion. -/
def literal (options : List (String × α)) (msg : String) : Check α
  | .leaf (.str s) =>
    match options.lookup s with
    | some a => .ok a
    | none => .error ⟨"literal_error", msg⟩
  | _ => .error ⟨"literal_error", msg⟩

/-- `Field(ge=b)` on an integer, checked after its type is. -/
def ge (check : Check ℤ) (b : ℤ) : Check ℤ := fun v => do
  let a ← check v
  if b ≤ a then return a
  throw ⟨"greater_than_equal", "Input should be greater than or equal to " ++ b.repr⟩

/-- `Field(gt=b)` on an integer, checked after its type is. -/
def gt (check : Check ℤ) (b : ℤ) : Check ℤ := fun v => do
  let a ← check v
  if b < a then return a
  throw ⟨"greater_than", "Input should be greater than " ++ b.repr⟩

/-- `Field(le=b)` on an integer, checked after its type is. -/
def le (check : Check ℤ) (b : ℤ) : Check ℤ := fun v => do
  let a ← check v
  if a ≤ b then return a
  throw ⟨"less_than_equal", "Input should be less than or equal to " ++ b.repr⟩

/-- `Field(gt=0)` on a float. What is refused is `a <= 0`, so that `nan`, which
compares with nothing, is let through. -/
def positive (check : Check FloatValue) : Check FloatValue := fun v => do
  let a ← check v
  if FloatValue.reachedBy 0 a = false then return a
  throw ⟨"greater_than", "Input should be greater than 0"⟩

/-- A `field_validator`, which returns a value or raises `ValueError`. -/
def after (check : Check α) (validator : α → Except String β) : Check β := fun v => do
  let a ← check v
  match validator a with
  | .ok b => return b
  | .error msg => throw ⟨"value_error", "Value error, " ++ msg⟩

end Check

/-! ## A field and the model -/

section Model

variable {α β : Type}

/-- A field of the model, read from the mapping. -/
def field (d : Dict YamlKey Yaml) (name : String) (default : Option α) (check : Check α) :
    Validated ErrorDetails α :=
  match d.get? (.str name) with
  | some v =>
    match check v with
    | .ok a => .ok a
    | .error e => .error [⟨[.key (.str name)], e.type, e.msg, v⟩]
  | none =>
    match default with
    | some a => .ok a
    | none => .error [⟨[.key (.str name)], "missing", "Field required", .map d⟩]

/-- The key of a mapping as a value, as a problem of an unknown field quotes it.
-/
def keyInput (k : YamlKey) : Yaml := .leaf k.scalar

/-- What is said of a key no field reads. -/
def extraMsg : YamlKey → String
  | .str _ => "Extra inputs are not permitted"
  | _ => "Keys should be strings"

/-- The problem of a key no field reads, under `extra="forbid"`. -/
def extraError (names : List String) (d : Dict YamlKey Yaml) : YamlKey → Option ErrorDetails
  | .str k =>
    if k ∈ names then none
    else some ⟨[.key (.str k)], "extra_forbidden", extraMsg (.str k),
      (d.get? (.str k)).getD Yaml.null⟩
  | k => some ⟨[.key k], "invalid_key", extraMsg k, keyInput k⟩

/-- A model whose fields have been read forbids every other key. -/
def forbidExtra (x : Validated ErrorDetails α) (names : List String) (d : Dict YamlKey Yaml) :
    Validated ErrorDetails α :=
  match d.keys.filterMap (extraError names d) with
  | [] => x
  | es => .error (x.errors ++ es)

/-- **`model_validate`** of a model with the given fields, which reports the
problems of all of them. -/
def validateModel (model : String) (names : List String)
    (readFields : Dict YamlKey Yaml → Validated ErrorDetails α) :
    Yaml → Validated ErrorDetails α
  | .map d => forbidExtra (readFields d) names d
  | t => .error [⟨[], "model_type",
      "Input should be a valid dictionary or instance of " ++ model, t⟩]

/-- A field that yields a value has a mapping entry that checks, or its
default. -/
theorem field_eq_ok_iff {d : Dict YamlKey Yaml} {name : String} {default : Option α}
    {check : Check α} {a : α} :
    field d name default check = .ok a
      ↔ (∃ v, d.get? (.str name) = some v ∧ check v = .ok a)
        ∨ (d.get? (.str name) = none ∧ default = some a) := by
  unfold field
  cases d.get? (.str name) with
  | some v => cases h : check v <;> simp [h]
  | none => cases default <;> simp

/-- A model that yields a value has no key besides its fields. -/
theorem forbidExtra_eq_ok_iff {x : Validated ErrorDetails α} {names : List String}
    {d : Dict YamlKey Yaml} {a : α} :
    forbidExtra x names d = .ok a ↔ x = .ok a ∧ ∀ k ∈ d.keys, extraError names d k = none := by
  rw [forbidExtra, ← List.filterMap_eq_nil_iff]
  split
  · next h => simp [h]
  · next h => simpa using fun _ => h

/-- What validates is a mapping whose fields yield the model. -/
theorem validateModel_eq_ok {model : String} {names : List String}
    {readFields : Dict YamlKey Yaml → Validated ErrorDetails α} {t : Yaml} {a : α}
    (h : validateModel model names readFields t = .ok a) :
    ∃ d, t = .map d ∧ readFields d = .ok a := by
  cases t with
  | leaf a => exact absurd h (by simp [validateModel])
  | list xs => exact absurd h (by simp [validateModel])
  | map d => exact ⟨d, rfl, (forbidExtra_eq_ok_iff.mp h).1⟩

/-- The problems of the fields, then those of the other keys. -/
theorem errors_forbidExtra (x : Validated ErrorDetails α) (names : List String)
    (d : Dict YamlKey Yaml) :
    (forbidExtra x names d).errors
      = x.errors ++ d.keys.filterMap (extraError names d) := by
  rw [forbidExtra]
  split
  · next h => rw [h, List.append_nil]
  · rfl

/-- A literal yields what it lists for the string it is given. -/
theorem literal_eq_ok {options : List (String × α)} {msg : String} {v : Yaml} {a : α}
    (h : Check.literal options msg v = .ok a) :
    ∃ s, v = .leaf (.str s) ∧ options.lookup s = some a := by
  unfold Check.literal at h
  split at h
  · next s =>
    split at h
    · next b hb => exact ⟨s, rfl, Except.ok.inj h ▸ hb⟩
    · exact absurd h (by simp)
  · exact absurd h (by simp)

/-! ## What a reported problem says

Two facts about a model, which pydantic documents for every model and which
hold of the models written with `field` and `forbidExtra`. The input a
problem carries is found in the document at the path of the field. And the
words of a problem are determined by the field, by whether it is there, and
by the offending input: a validator sees nothing else. -/

/-- **The offending input of a field**: its value, or the mapping it is
missing from; for a key that is no string, the key. -/
def offending (t : Yaml) (loc : List (DocTree.Step YamlKey)) : Yaml :=
  match loc.getLast? with
  | none | some (.index _) | some (.key (.str _)) =>
    match t.at? loc with
    | some v => v
    | none => (t.at? loc.dropLast).getD Yaml.null
  | some (.key k) => keyInput k

/-- Every problem carries the offending input of its field. -/
def ReportsOffending (validate : Yaml → Validated ErrorDetails α) : Prop :=
  ∀ t, ∀ e ∈ (validate t).errors, e.input = offending t e.loc

/-- The words of a problem come from the field and its input. -/
def WordsFromInput (validate : Yaml → Validated ErrorDetails α) : Prop :=
  ∀ s t, ∀ e ∈ (validate s).errors, ∀ e' ∈ (validate t).errors, e.loc = e'.loc →
    (s.at? e.loc).isSome = (t.at? e.loc).isSome → e.input = e'.input → e.msg = e'.msg

/-- The offending input of a field of the model itself. -/
theorem offending_field (d : Dict YamlKey Yaml) (name : String) :
    offending (.map d) [.key (.str name)] = (d.get? (.str name)).getD (.map d) := by
  unfold offending
  cases h : d.get? (.str name) <;> simp [DocTree.at?, h]

/-- What a check says of a value it refuses. -/
def Check.msg (check : Check α) (v : Yaml) : String :=
  match check v with
  | .ok _ => ""
  | .error f => f.msg

/-- A field reports its offending input, under its own name. -/
theorem errors_field {d : Dict YamlKey Yaml} {name : String} {default : Option α}
    {check : Check α} {e : ErrorDetails} (h : e ∈ (field d name default check).errors) :
    e.loc = [.key (.str name)] ∧ e.input = (d.get? (.str name)).getD (.map d)
      ∧ e.msg = ((d.get? (.str name)).map check.msg).getD "Field required" := by
  unfold field at h
  cases hv : d.get? (.str name) with
  | some v =>
    rw [hv] at h
    cases hc : check v with
    | ok a => simp [hc] at h
    | error f =>
      simp only [hc, Validated.errors_error, List.mem_singleton] at h
      subst h
      refine ⟨rfl, rfl, ?_⟩
      simp only [Option.map_some, Option.getD_some, Check.msg, hc]
  | none =>
    rw [hv] at h
    cases default with
    | some a => simp at h
    | none =>
      simp only [Validated.errors_error, List.mem_singleton] at h
      subst h
      exact ⟨rfl, rfl, rfl⟩

/-- A key that names no field is reported under its own name. -/
theorem extraError_eq_some {names : List String} {d : Dict YamlKey Yaml} {k : YamlKey}
    {e : ErrorDetails} (hk : k ∈ d.keys) (h : extraError names d k = some e) :
    e.loc = [.key k] ∧ (∀ s, k = .str s → s ∉ names) ∧ e.input = offending (.map d) e.loc
      ∧ e.msg = extraMsg k := by
  cases k with
  | null | bool | int | float | other =>
    obtain rfl := Option.some.inj h
    exact ⟨rfl, fun s hs => (nomatch hs), rfl, rfl⟩
  | str k =>
    rw [extraError] at h
    split at h
    · exact absurd h (by simp)
    · next hn =>
      obtain rfl := Option.some.inj h
      obtain ⟨v, hv⟩ := (Dict.mem_keys_iff d _).mp hk
      refine ⟨rfl, fun s hs => YamlKey.str.inj hs ▸ hn, ?_, rfl⟩
      show (d.get? (.str k)).getD Yaml.null = offending (.map d) [.key (.str k)]
      rw [offending_field, hv, Option.getD_some, Option.getD_some]

/-- The problems of two readings of the same fields, in two documents. -/
structure ReadAlike (names : List String) (d₁ d₂ : Dict YamlKey Yaml)
    (x₁ x₂ : Validated ErrorDetails α) : Prop where
  /-- Every problem of the first reading is about one of the fields. -/
  loc₁ : ∀ e ∈ x₁.errors, ∃ n ∈ names, e.loc = [.key (.str n)]
  /-- Every problem of the second reading is about one of the fields. -/
  loc₂ : ∀ e ∈ x₂.errors, ∃ n ∈ names, e.loc = [.key (.str n)]
  /-- Every problem of the first reading carries its offending input. -/
  input₁ : ∀ e ∈ x₁.errors, e.input = offending (.map d₁) e.loc
  /-- The same field with the same input has the same words. -/
  msg_eq : ∀ e ∈ x₁.errors, ∀ e' ∈ x₂.errors, e.loc = e'.loc →
    ((DocTree.map d₁).at? e.loc).isSome = ((DocTree.map d₂).at? e.loc).isSome →
    e.input = e'.input → e.msg = e'.msg

/-- Before any field is read there is no problem. -/
theorem readAlike_pure (d₁ d₂ : Dict YamlKey Yaml) (a b : α) :
    ReadAlike [] d₁ d₂ (.pure a) (.pure b) :=
  ⟨by simp, by simp, by simp, by simp⟩

/-- **One more field**, of a name not read before. -/
theorem ReadAlike.ap {names : List String} {d₁ d₂ : Dict YamlKey Yaml}
    {x₁ x₂ : Validated ErrorDetails (α → β)} (h : ReadAlike names d₁ d₂ x₁ x₂) {name : String}
    (hn : name ∉ names) (default : Option α) (check : Check α) :
    ReadAlike (name :: names) d₁ d₂ (x₁.ap (field d₁ name default check))
      (x₂.ap (field d₂ name default check)) := by
  refine ⟨fun e he => ?_, fun e he => ?_, fun e he => ?_, fun e he e' he' hl hp hi => ?_⟩
  · rw [Validated.errors_ap, List.mem_append] at he
    rcases he with he | he
    · obtain ⟨n, hn', hl⟩ := h.loc₁ e he
      exact ⟨n, List.mem_cons_of_mem _ hn', hl⟩
    · exact ⟨name, List.mem_cons_self, (errors_field he).1⟩
  · rw [Validated.errors_ap, List.mem_append] at he
    rcases he with he | he
    · obtain ⟨n, hn', hl⟩ := h.loc₂ e he
      exact ⟨n, List.mem_cons_of_mem _ hn', hl⟩
    · exact ⟨name, List.mem_cons_self, (errors_field he).1⟩
  · rw [Validated.errors_ap, List.mem_append] at he
    rcases he with he | he
    · exact h.input₁ e he
    · obtain ⟨hl, hi, -⟩ := errors_field he
      rw [hl, offending_field, hi]
  · rw [Validated.errors_ap, List.mem_append] at he he'
    rcases he with he | he <;> rcases he' with he' | he'
    · exact h.msg_eq e he e' he' hl hp hi
    · obtain ⟨n, hn', hl'⟩ := h.loc₁ e he
      rw [hl', (errors_field he').1] at hl
      simp only [List.cons.injEq, DocTree.Step.key.injEq, YamlKey.str.injEq, and_true] at hl
      exact absurd (hl ▸ hn') hn
    · obtain ⟨n, hn', hl'⟩ := h.loc₂ e' he'
      rw [hl', (errors_field he).1] at hl
      simp only [List.cons.injEq, DocTree.Step.key.injEq, YamlKey.str.injEq, and_true] at hl
      exact absurd (hl ▸ hn') hn
    · obtain ⟨hl₁, hi₁, hm₁⟩ := errors_field he
      obtain ⟨-, hi₂, hm₂⟩ := errors_field he'
      rw [hl₁] at hp
      rw [hi₁, hi₂] at hi
      rw [hm₁, hm₂]
      cases hv₁ : d₁.get? (.str name) <;> cases hv₂ : d₂.get? (.str name) <;>
        simp_all [DocTree.at?]

/-- **A model written with `field` and `forbidExtra`** reports offending
inputs in words that come from them. -/
theorem ReadAlike.forbidExtra {names : List String} {d₁ d₂ : Dict YamlKey Yaml}
    {x₁ x₂ : Validated ErrorDetails α} (h : ReadAlike names d₁ d₂ x₁ x₂)
    {fieldNames : List String} (hn : ∀ n ∈ names, n ∈ fieldNames) :
    (∀ e ∈ (forbidExtra x₁ fieldNames d₁).errors, e.input = offending (.map d₁) e.loc)
      ∧ ∀ e ∈ (forbidExtra x₁ fieldNames d₁).errors,
        ∀ e' ∈ (forbidExtra x₂ fieldNames d₂).errors, e.loc = e'.loc →
        ((DocTree.map d₁).at? e.loc).isSome = ((DocTree.map d₂).at? e.loc).isSome →
        e.input = e'.input → e.msg = e'.msg := by
  have hextra : ∀ {d : Dict YamlKey Yaml} {e : ErrorDetails},
      e ∈ d.keys.filterMap (extraError fieldNames d) →
        ∃ k, k ∈ d.keys ∧ extraError fieldNames d k = some e := by
    intro d e he
    exact List.mem_filterMap.mp he
  refine ⟨fun e he => ?_, fun e he e' he' hl hp hi => ?_⟩
  · rw [errors_forbidExtra, List.mem_append] at he
    rcases he with he | he
    · exact h.input₁ e he
    · obtain ⟨k, hk, hke⟩ := hextra he
      exact (extraError_eq_some hk hke).2.2.1
  · rw [errors_forbidExtra, List.mem_append] at he he'
    rcases he with he | he <;> rcases he' with he' | he'
    · exact h.msg_eq e he e' he' hl hp hi
    · obtain ⟨n, hn', hl'⟩ := h.loc₁ e he
      obtain ⟨k, hk, hke⟩ := hextra he'
      obtain ⟨hlk, hkn, -, -⟩ := extraError_eq_some hk hke
      rw [hl', hlk] at hl
      simp only [List.cons.injEq, DocTree.Step.key.injEq, and_true] at hl
      exact absurd (hn n hn') (hkn n hl.symm)
    · obtain ⟨n, hn', hl'⟩ := h.loc₂ e' he'
      obtain ⟨k, hk, hke⟩ := hextra he
      obtain ⟨hlk, hkn, -, -⟩ := extraError_eq_some hk hke
      rw [hl', hlk] at hl
      simp only [List.cons.injEq, DocTree.Step.key.injEq, and_true] at hl
      exact absurd (hn n hn') (hkn n hl)
    · obtain ⟨k, hk, hke⟩ := hextra he
      obtain ⟨k', hk', hke'⟩ := hextra he'
      obtain ⟨hlk, -, -, hm⟩ := extraError_eq_some hk hke
      obtain ⟨hlk', -, -, hm'⟩ := extraError_eq_some hk' hke'
      rw [hlk, hlk'] at hl
      simp only [List.cons.injEq, DocTree.Step.key.injEq, and_true] at hl
      rw [hm, hm', hl]

/-- A value that is no mapping is itself the offending input. -/
theorem errors_validateModel {model : String} {names : List String}
    {readFields : Dict YamlKey Yaml → Validated ErrorDetails α} {t : Yaml} {e : ErrorDetails}
    (he : e ∈ (validateModel model names readFields t).errors) :
    (∃ d, t = .map d ∧ e ∈ (forbidExtra (readFields d) names d).errors)
      ∨ e = ⟨[], "model_type",
        "Input should be a valid dictionary or instance of " ++ model, t⟩ := by
  cases t with
  | leaf a => exact .inr (List.mem_singleton.mp he)
  | list xs => exact .inr (List.mem_singleton.mp he)
  | map d => exact .inl ⟨d, rfl, he⟩

/-- A model whose fields are read alike in any two documents reports
offending inputs. -/
theorem reportsOffending_validateModel {model : String} {read names : List String}
    {readFields : Dict YamlKey Yaml → Validated ErrorDetails α} (hn : ∀ n ∈ read, n ∈ names)
    (h : ∀ d₁ d₂, ReadAlike read d₁ d₂ (readFields d₁) (readFields d₂)) :
    ReportsOffending (validateModel model names readFields) := by
  intro t e he
  rcases errors_validateModel he with ⟨d, rfl, he⟩ | rfl
  · exact ((h d d).forbidExtra hn).1 e he
  · rfl

/-- And its words come from them: what is said about a field is the input found
there, and the names are the model's own. -/
theorem wordsFromInput_validateModel {model : String} {read names : List String}
    {readFields : Dict YamlKey Yaml → Validated ErrorDetails α} (hn : ∀ n ∈ read, n ∈ names)
    (h : ∀ d₁ d₂, ReadAlike read d₁ d₂ (readFields d₁) (readFields d₂)) :
    WordsFromInput (validateModel model names readFields) := by
  have hloc : ∀ {d : Dict YamlKey Yaml} {e : ErrorDetails},
      e ∈ (forbidExtra (readFields d) names d).errors → e.loc ≠ [] := by
    intro d e he
    rw [errors_forbidExtra, List.mem_append] at he
    rcases he with he | he
    · obtain ⟨n, -, hl⟩ := (h d d).loc₁ e he
      simp [hl]
    · obtain ⟨k, hk, hke⟩ := List.mem_filterMap.mp he
      simp [(extraError_eq_some hk hke).1]
  intro s t e he e' he' hl hp hi
  rcases errors_validateModel he with ⟨d, rfl, he⟩ | rfl <;>
    rcases errors_validateModel he' with ⟨d', rfl, he'⟩ | rfl
  · exact ((h d d').forbidExtra hn).2 e he e' he' hl hp hi
  · exact absurd hl (hloc he)
  · exact absurd hl.symm (hloc he')
  · rfl

end Model
