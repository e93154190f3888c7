import PlatformSdk.AuthorizedTool

/-!
# Two envelopes and one recogniser

A tool may answer with the error object of `make_error`, or with a
`ToolResponse`, which wraps successes and failures alike. `is_error_response`
is asked about both before a result is cached, and what it asks is whether
there is an `"error"` key. `model_dump_json` writes every field, the unset ones
as `null`, so that there always is one: `isErrorResponse_modelDumpJson`.

The text of `model_dump_json` is pydantic's and is read by `json.loads`. Both
are parameters; what is used of them is that the text of a response is read
back as an object with the keys of its fields.
-/

/-- **`ErrorDetail`**: what went wrong, and whether a call can be made again. -/
structure ErrorDetail where
  code : String
  message : String
  retryable : Bool := false
  retryAfterSeconds : Option ℤ := none

/-- **`ToolResponse`**: data or an error, and the time. -/
structure ToolResponse where
  success : Bool
  data : Option (Dict String Json) := none
  error : Option ErrorDetail := none
  schemaVersion : ℤ := 1
  /-- When it was created. -/
  timestamp : String

/-- The fields of an error, by their names and in their order. -/
def ErrorDetail.modelDump (e : ErrorDetail) : Dict String Json :=
  [("code", Json.str e.code), ("message", Json.str e.message),
    ("retryable", Json.bool e.retryable),
    ("retry_after_seconds", (e.retryAfterSeconds.map Json.int).getD Json.null)]

namespace ToolResponse

/-- **`model_dump`**: every field, the unset ones as `null`. -/
def modelDump (r : ToolResponse) : Dict String Json :=
  [("success", Json.bool r.success), ("data", (r.data.map Json.obj).getD Json.null),
    ("error", (r.error.map fun e => Json.obj e.modelDump).getD Json.null),
    ("schema_version", Json.int r.schemaVersion), ("timestamp", Json.str r.timestamp)]

/-- **`model_dump_json`**, for pydantic's writer of JSON, the text a tool
returns. -/
def modelDumpJson (write : Json → String) (r : ToolResponse) : String :=
  write (.map r.modelDump)

/-- **`make_tool_success`**, at the time `timestamp`: data, and no error. -/
def makeToolSuccess (timestamp : String) (data : Dict String Json) : ToolResponse where
  success := true
  data := some data
  timestamp := timestamp

/-- **`make_tool_error`**: an error, and no data. -/
def makeToolError (timestamp : String) (error : ErrorDetail) : ToolResponse where
  success := false
  error := some error
  timestamp := timestamp

/-- **`json.loads` reads what `model_dump_json` wrote**: an object with the keys
of the fields. -/
def IsRead (loads : String → Except PyExc Json) (write : Json → String) (r : ToolResponse) : Prop :=
  ∃ d, loads (r.modelDumpJson write) = .ok (.map d) ∧ Dict.keys d = Dict.keys r.modelDump

/-- **Every response is taken for an error**, whatever it says. -/
theorem isErrorResponse_modelDumpJson {loads : String → Except PyExc Json} {write : Json → String}
    {r : ToolResponse} (h : r.IsRead loads write) :
    isErrorResponse loads (r.modelDumpJson write) = .ok true := by
  obtain ⟨d, hread, hkeys⟩ := h
  have herror : "error" ∈ Dict.keys d := by
    rw [hkeys]
    show "error" ∈ ["success", "data", "error", "schema_version", "timestamp"]
    decide
  rw [isErrorResponse, hread]
  split
  · rfl
  · exact congrArg Except.ok (decide_eq_true herror)

/-- **`cached_tool` caches the response** exactly when it is a success: on a
cache that can be written, a call whose tool returned the response goes on to
write it. -/
def CachedIfSuccess (loads : String → Except PyExc Json) (write : Json → String)
    (r : ToolResponse) : Prop :=
  ∀ {τ ι : Type} (tools : Tools τ ι) (sha256 : List UInt8 → List UInt8) (s : CacheState τ ι)
    (i : ℕ) (request : Request τ ι) (cache : ToolResultCache), s.cache = some cache →
    cache.isBypassed s.now = false → tools.result request = r.modelDumpJson write →
    ((s.finish tools sha256 loads i request).phase i = .setting (r.modelDumpJson write)
      ↔ r.success = true)

/-- **The recogniser tells successes from failures**, and the cache stores only
the former. -/
structure ToldApart (loads : String → Except PyExc Json) (write : Json → String)
    (r : ToolResponse) : Prop where
  /-- `is_error_response` is `True` on the response exactly when it failed. -/
  recognised : isErrorResponse loads (r.modelDumpJson write) = .ok true ↔ r.success = false
  /-- It is cached exactly when it succeeded. -/
  cached : r.CachedIfSuccess loads write
  /-- And the texts of `make_error` are errors. -/
  makeError : ∀ code message, isErrorResponse loads (makeError code message) = .ok true

/-- What is taken for an error is not written. -/
theorem finish_phase_of_isErrorResponse {τ ι : Type} {tools : Tools τ ι}
    {loads : String → Except PyExc Json} {request : Request τ ι}
    (h : isErrorResponse loads (tools.result request) = .ok true)
    (sha256 : List UInt8 → List UInt8) (s : CacheState τ ι) (i : ℕ) :
    (s.finish tools sha256 loads i request).phase i = .returned (tools.result request) := by
  rw [CacheState.finish]
  split
  · exact s.goto_phase_self i _
  · rw [h]
    exact s.goto_phase_self i _

/-- **A response is told apart exactly when it failed**: the failures are
recognised, and the successes are taken for failures, as `model_dump_json`
writes the key `error` with a `null` on every success and `is_error_response`
asks for the key only. -/
theorem toldApart_iff {loads : String → Except PyExc Json} {write : Json → String}
    (hloads : ReadsTexts loads) {r : ToolResponse} (hread : r.IsRead loads write) :
    r.ToldApart loads write ↔ r.success = false := by
  have herror := isErrorResponse_modelDumpJson hread
  constructor
  · exact fun h => h.recognised.mp herror
  · intro hfail
    refine ⟨iff_of_true herror hfail, ?_, isErrorResponse_makeError hloads⟩
    intro τ ι tools sha256 s i request cache _ _ hresult
    rw [finish_phase_of_isErrorResponse (hresult ▸ herror), hfail]
    exact iff_of_false (fun h => by cases h) Bool.false_ne_true

/-! ## Two responses as pydantic writes them -/

/-- `json.dumps` puts a space after the colon of every key, so that no text
without one is its. -/
theorem dumps_ne_of_key {text : String} (k : String) {c : Char} (hc : c ≠ ' ')
    (htext : '\x7b' :: (Json.renderString k ++ [':', c]) <+: text.toList) (v : Json) :
    Json.dumps v ≠ text := by
  rintro rfl
  obtain ⟨rest, hrest⟩ := htext
  have hr : Json.render v = '\x7b' :: (Json.renderString k ++ ':' :: c :: rest) := by
    rw [Json.dumps, String.toList_ofList] at hrest
    rw [← hrest]
    simp
  have hkind : Json.kind v = .object := by
    rw [← Json.headKind_render v [], List.append_nil, hr]
    rfl
  cases v with
  | leaf a =>
    cases a with
    | bool b => cases b <;> cases hkind
    | _ => cases hkind
  | list xs => cases hkind
  | map d =>
    have htail : Json.renderMap d = Json.renderString k ++ ':' :: c :: rest := (List.cons.inj hr).2
    cases d with
    | nil => exact absurd (List.cons.inj htail).1 (by decide)
    | cons e d =>
      obtain ⟨-, hafter⟩ := Json.renderString_append_inj htail
      exact hc (List.cons.inj (List.cons.inj hafter).2).1.symm

/-- A parser that reads what `json.dumps` wrote, and one more text. -/
noncomputable def loadsAlso (text : String) (v : Json) : String → Except PyExc Json := fun t =>
  match loadsDumped t with
  | .ok w => .ok w
  | .error exc => if t = text then .ok v else .error exc

theorem readsTexts_loadsAlso (text : String) (v : Json) : ReadsTexts (loadsAlso text v) := by
  intro data _
  rw [loadsAlso, loadsDumped_dumps]

theorem loadsAlso_self {text : String} (h : ∀ w, Json.dumps w ≠ text) (v : Json) :
    loadsAlso text v text = .ok v := by
  have hno : loadsDumped text = .error .jsonDecodeError := dif_neg fun ⟨w, hw⟩ => h w hw
  rw [loadsAlso, hno]
  exact if_pos rfl

/-- A success, whose data is a text, and whose error is written as `null`. -/
def inStock : ToolResponse :=
  makeToolSuccess "2026-05-01T00:00:00+00:00" [("summary", Json.str "3 in stock")]

/-- What `model_dump_json` writes for it. -/
def inStockText : String :=
  "\x7b\"success\":true,"
    ++ ("\"data\":\x7b\"summary\":\"3 in stock\"\x7d,\"error\":null,"
      ++ "\"schema_version\":1,\"timestamp\":\"2026-05-01T00:00:00+00:00\"\x7d")

/-- A failure, with its error detail, and with `null` for its data. -/
def timedOut : ToolResponse :=
  makeToolError "2026-05-01T00:00:00+00:00" { code := "TIMEOUT", message := "Query timed out" }

/-- What `model_dump_json` writes for it. -/
def timedOutText : String :=
  "\x7b\"success\":false,"
    ++ ("\"data\":null,\"error\":\x7b\"code\":\"TIMEOUT\","
      ++ "\"message\":\"Query timed out\",\"retryable\":false,\"retry_after_seconds\":null\x7d,"
      ++ "\"schema_version\":1,\"timestamp\":\"2026-05-01T00:00:00+00:00\"\x7d")

theorem isRead_loadsAlso {text : String} (h : ∀ w, Json.dumps w ≠ text) (r : ToolResponse) :
    r.IsRead (loadsAlso text (.map r.modelDump)) (fun _ => text) :=
  ⟨r.modelDump, loadsAlso_self h _, rfl⟩

/-- What a text starts with is decided by how it starts. -/
theorem prefix_toList_append {p : List Char} {s : String} (h : p <+: s.toList) (t : String) :
    p <+: (s ++ t).toList := by
  rw [String.toList_append]
  exact h.trans (List.prefix_append _ _)

theorem dumps_ne_inStockText (w : Json) : Json.dumps w ≠ inStockText := by
  have hkey : '\x7b' :: (Json.renderString "success" ++ [':', 't']) <+: inStockText.toList :=
    prefix_toList_append (by decide +kernel) _
  exact dumps_ne_of_key "success" (by decide) hkey w

theorem dumps_ne_timedOutText (w : Json) : Json.dumps w ≠ timedOutText := by
  have hkey : '\x7b' :: (Json.renderString "success" ++ [':', 'f']) <+: timedOutText.toList :=
    prefix_toList_append (by decide +kernel) _
  exact dumps_ne_of_key "success" (by decide) hkey w

theorem toldApart_timedOut :
    timedOut.ToldApart (loadsAlso timedOutText (.map timedOut.modelDump)) (fun _ => timedOutText) :=
  (toldApart_iff (readsTexts_loadsAlso timedOutText (.map timedOut.modelDump))
    (isRead_loadsAlso dumps_ne_timedOutText timedOut)).mpr rfl

/-- **A success with nothing wrong with it is taken for an error**, and never
cached. -/
theorem not_toldApart_inStock :
    inStock.success = true
      ∧ isErrorResponse (loadsAlso inStockText (.map inStock.modelDump)) inStockText = .ok true
      ∧ ¬ inStock.ToldApart (loadsAlso inStockText (.map inStock.modelDump))
        (fun _ => inStockText) := by
  have hread := isRead_loadsAlso dumps_ne_inStockText inStock
  have herror := isErrorResponse_modelDumpJson hread
  refine ⟨rfl, herror, fun h => ?_⟩
  have hfail : true = false := h.recognised.mp herror
  cases hfail

end ToolResponse
