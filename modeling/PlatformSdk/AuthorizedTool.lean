import PlatformSdk.Cache
import PlatformSdk.Yaml

/-!
# Tools behind the policy engine

`authorized_tool` puts three things before a tool: a check that the policy
client is there, a check and a truncation of one argument, and the question to
the policy engine. Whatever stops a call, and any exception of the tool
itself, becomes a text of one form, the JSON object `make_error` writes.

`isErrorResponse_makeError` is what the form is for: `is_error_response`
recognises every such text, since `json.loads` reads back what `json.dumps`
wrote.
-/

/-! ## Error responses -/

/-- **`make_error`**: a JSON object with the code and the message under `error`.
-/
def makeError (code message : String) : String :=
  Json.dumps (.map [("error", Json.str code), ("message", Json.str message)])

/-- **`json.loads` reads back what `json.dumps` wrote**, for objects of
texts. -/
def ReadsTexts (loads : String → Except PyExc Json) : Prop :=
  ∀ data : Dict String String, data.keys.Nodup →
    loads (Json.dumps (.map (data.map fun e => (e.1, Json.str e.2))))
      = .ok (.map (data.map fun e => (e.1, Json.str e.2)))

/-- **An error response is recognised.** What `make_error` writes is read back
as an object with the key `error`, whatever the code and the message are. -/
theorem isErrorResponse_makeError {loads : String → Except PyExc Json} (h : ReadsTexts loads)
    (code message : String) : isErrorResponse loads (makeError code message) = .ok true := by
  have hread : loads (makeError code message)
      = .ok (.map [("error", Json.str code), ("message", Json.str message)]) :=
    h [("error", code), ("message", message)]
      (show ["error", "message"].Nodup from by decide)
  rw [isErrorResponse, hread]
  split
  · rfl
  · simp

open Classical in
/-- A decoder that undoes `json.dumps` on every text it writes. -/
noncomputable def loadsDumped (text : String) : Except PyExc Json :=
  if h : ∃ v, Json.dumps v = text then .ok h.choose else .error .jsonDecodeError

theorem loadsDumped_dumps (v : Json) : loadsDumped (Json.dumps v) = .ok v := by
  have h : ∃ w, Json.dumps w = Json.dumps v := ⟨v, rfl⟩
  rw [loadsDumped, dif_pos h]
  exact congrArg Except.ok (Json.dumps_injective h.choose_spec)

theorem readsTexts_loadsDumped : ReadsTexts loadsDumped :=
  fun _ _ => loadsDumped_dumps _

/-! ## The argument that is checked -/

/-- The `repr` of a float, which `json` spells otherwise where it is no
number. -/
def PyFloat.repr (f : PyFloat) : String :=
  if f.text = "NaN".toList then "nan"
  else if f.text = "Infinity".toList then "inf"
  else if f.text = "-Infinity".toList then "-inf"
  else String.ofList f.text

/-- The Python value of a JSON scalar. -/
def JsonScalar.toPython : JsonScalar → YamlScalar
  | .null => .null
  | .bool b => .bool b
  | .int i => .int i
  | .float f => .float f.repr
  | .str s => .str s

/-- `str(v)`: a string is itself, any other value its `repr`. -/
def Json.pyStr (isPrintable : Char → Bool) : Json → String
  | .leaf (.str s) => s
  | v => Yaml.repr isPrintable (v.translate YamlKey.str JsonScalar.toPython)

/-- `s[:n]`; a negative `n` counts from the end. -/
def pySliceTo (n : ℤ) (cs : List Char) : List Char :=
  if 0 ≤ n then cs.take n.toNat else cs.take (cs.length - n.natAbs)

/-- `kwargs[name] = v`. -/
def Kwargs.set (k : Kwargs) (name : String) (v : Json) : Kwargs where
  entries := k.entries.set name v
  nodup := Dict.nodup_keys_set k.nodup name v

/-- **What `authorized_tool` is given**, and the name of the tool it wraps. -/
structure AuthorizedTool where
  toolName : String
  requireInput : Option String
  maxInputLength : ℤ := 256
  /-- `fn.__name__`, which `wraps` hands on. -/
  fnName : String

namespace AuthorizedTool

/-- `"OPA client not ready."` -/
def notInitialised : String := makeError "service_not_initialised" "OPA client not ready."

/-- The response to a denied call. -/
def unauthorized : String := makeError "unauthorized" "Execution blocked by policy engine."

/-- The response to an exception of the tool. -/
def databaseError : String :=
  makeError "database_error" "A database error occurred. Please try again."

/-- The response to an empty input. -/
def invalidInput (field : String) : String :=
  makeError "invalid_input" (field ++ " must not be empty.")

/-- The arguments the policy engine is asked about, and the tool is run on:
the required one stripped and cut. Without it, the error response. Only
`str(value)` raises, on an integer of too many digits. -/
def validate (tool : AuthorizedTool) (isPrintable : Char → Bool) (kwargs : Kwargs) :
    Except PyExc (Except String Kwargs) :=
  match tool.requireInput with
  | none | some "" => .ok (.ok kwargs)
  | some field =>
    let value := (kwargs.entries.get? field).getD (Json.str "")
    if value.truthy = false then .ok (.error (invalidInput field))
    else if value.isTooLong then .error .tooManyDigits
    else
      let stripped := pyStrip (value.pyStr isPrintable).toList
      if stripped = [] then .ok (.error (invalidInput field))
      else
        .ok (.ok (kwargs.set field
          (Json.str (String.ofList (pySliceTo tool.maxInputLength stripped)))))

/-- **The input is invalid**: the tool requires an argument, and the call passes
none of that name, or one that is false to Python or blank. This says nothing
of how it is checked; a value without a text is neither. -/
def Refuses (tool : AuthorizedTool) (isPrintable : Char → Bool) (kwargs : Kwargs) : Prop :=
  ∃ field, tool.requireInput = some field ∧ field ≠ ""
    ∧ ∀ value, kwargs.entries.get? field = some value →
      value.truthy = false
        ∨ value.isTooLong = false ∧ pyStrip (value.pyStr isPrintable).toList = []

/-- **Invalid input, and no other, is answered with an error response** by the
check. What a call does not pass is the empty text to it, which is false. -/
theorem refuses_iff {tool : AuthorizedTool} {isPrintable : Char → Bool} {kwargs : Kwargs} :
    tool.Refuses isPrintable kwargs
      ↔ ∃ response, tool.validate isPrintable kwargs = .ok (.error response) := by
  have hpassed : ∀ (field : String) (P : Json → Prop), P (Json.str "") →
      ((∀ value, kwargs.entries.get? field = some value → P value)
        ↔ P ((kwargs.entries.get? field).getD (Json.str ""))) := by
    intro field P hempty
    cases kwargs.entries.get? field with
    | none => exact iff_of_true (fun _ h => by cases h) hempty
    | some value => exact ⟨fun h => h value rfl, fun h _ hv => Option.some.inj hv ▸ h⟩
  unfold Refuses validate
  cases hrequire : tool.requireInput with
  | none => simp
  | some field =>
    by_cases hfield : field = ""
    · simp [hfield]
    · have hvalue := hpassed field (fun value => value.truthy = false
        ∨ value.isTooLong = false ∧ pyStrip (value.pyStr isPrintable).toList = []) (.inl rfl)
      simp only [Option.some.injEq, exists_eq_left', ne_eq, hfield, not_false_eq_true, true_and]
      rw [hvalue]
      by_cases htruthy : ((kwargs.entries.get? field).getD (Json.str "")).truthy = false
      · simp [htruthy]
      · by_cases hlong : ((kwargs.entries.get? field).getD (Json.str "")).isTooLong
        · simp [htruthy, hlong]
        · by_cases hblank : pyStrip
              (((kwargs.entries.get? field).getD (Json.str "")).pyStr isPrintable).toList = [] <;>
            simp [htruthy, hlong, hblank]

/-- Invalid input is answered with an error response, which names the argument
that is missing. -/
theorem validate_eq_error {tool : AuthorizedTool} {isPrintable : Char → Bool} {kwargs : Kwargs}
    {response : String} (h : tool.validate isPrintable kwargs = .ok (.error response)) :
    ∃ field, response = invalidInput field := by
  unfold validate at h
  split at h
  · cases h
  · cases h
  · next field _ _ =>
    dsimp only at h
    split at h
    · exact ⟨field, (Except.error.inj (Except.ok.inj h)).symm⟩
    · split at h
      · cases h
      · split at h
        · exact ⟨field, (Except.error.inj (Except.ok.inj h)).symm⟩
        · cases h

end AuthorizedTool

example : Json.pyStr (fun _ => true) (.list [Json.str "a", Json.bool true, Json.int 3])
    = "['a', True, 3]" := by decide
