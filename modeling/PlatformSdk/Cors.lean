import PlatformSdk.Substitution
import PlatformSdk.UrlPath

/-!
# The origins an agent answers

`add_cors` reads one variable of the environment and configures the CORS
middleware with it. Without the variable every origin is allowed, and no
credentials are; with it the origins it lists are, and credentials too.

The variable is a list only by its commas. `addCors_spans` says which
configurations it can state: the wildcard without credentials, and with
credentials every list of origins an entry can spell. Among these are the list
with no origin and, since only a value that is the one character is taken for
the wildcard, lists with `*` in them (`allowsAnyWithCredentials_iff`).
-/

/-- **What `add_cors` configures the middleware with.** -/
structure CorsSettings where
  allowOrigins : List String
  allowCredentials : Bool
  allowMethods : List String := ["*"]
  allowHeaders : List String := ["*"]
  deriving DecidableEq

namespace BaseAgentApp

/-- `[o.strip() for o in raw.split(",") if o.strip()]`. -/
def listedOrigins (raw : String) : List String :=
  ((pySplit raw ',').map fun o => String.ofList (pyStrip o.toList)).filter (· ≠ "")

/-- Every origin, and no credentials. -/
def anyOrigin : CorsSettings where
  allowOrigins := ["*"]
  allowCredentials := false

/-- **`add_cors`**, which reads `ALLOWED_ORIGINS` and takes a value that is
empty for one that is not set. -/
def addCors (environ : Environ) : CorsSettings :=
  match environ "ALLOWED_ORIGINS" with
  | some raw =>
    if raw ≠ "" ∧ raw ≠ "*" then
      { allowOrigins := listedOrigins raw, allowCredentials := true }
    else anyOrigin
  | none => anyOrigin

/-- **What an entry of the list can be**: a text with no comma in it, no blank
at either end and, since a process has no variable that holds one, no NUL. -/
structure IsOrigin (o : String) : Prop where
  ne_empty : o ≠ ""
  no_comma : ',' ∉ o.toList
  stripped : pyStrip o.toList = o.toList
  no_nul : nul ∉ o.toList

/-- Every entry that is kept is an origin: the split has taken the commas, and
`strip` the blanks. -/
theorem isOrigin_of_mem_listedOrigins {raw o : String} (hraw : nul ∉ raw.toList)
    (h : o ∈ listedOrigins raw) : IsOrigin o := by
  obtain ⟨hmem, hne⟩ := List.mem_filter.mp h
  obtain ⟨p, hp, rfl⟩ := List.mem_map.mp hmem
  obtain ⟨cs, hcs, rfl⟩ := List.mem_map.mp hp
  rw [String.toList_ofList] at hne ⊢
  refine ⟨of_decide_eq_true hne, fun hcomma => ?_, ?_, fun hnul => ?_⟩
  · rw [String.toList_ofList] at hcomma
    exact UrlPath.notMem_of_mem_splitOn hcs ((pyStrip_sublist cs).subset hcomma)
  · rw [String.toList_ofList, pyStrip_idempotent]
  · rw [String.toList_ofList] at hnul
    have hsub : (pyStrip cs).Sublist raw.toList :=
      (pyStrip_sublist cs).trans (UrlPath.sublist_of_mem_splitOn hcs)
    exact hraw (hsub.subset hnul)

/-- A list of origins, behind two blank entries so that it is neither empty nor
the wildcard. -/
def rawOrigins (origins : List String) : String :=
  String.ofList ([','].intercalate ([] :: [] :: origins.map String.toList))

/-- What stands in a text that is joined: its parts and the separator. -/
theorem mem_intercalate_cons_iff {α : Type} {x c : α} {l : List α} {ls : List (List α)} :
    c ∈ [x].intercalate (l :: ls) ↔ c ∈ l ∨ ∃ m ∈ ls, c = x ∨ c ∈ m := by
  induction ls generalizing l with
  | nil => simp
  | cons k ls ih => simp [ih, or_assoc]

/-- The value can be that of a variable, since no origin holds a NUL. -/
theorem nul_notMem_rawOrigins {origins : List String} (h : ∀ o ∈ origins, IsOrigin o) :
    nul ∉ (rawOrigins origins).toList := by
  rw [rawOrigins, String.toList_ofList, mem_intercalate_cons_iff]
  rintro (hnil | ⟨m, hm, hcomma | hnul⟩)
  · exact List.not_mem_nil hnil
  · exact absurd hcomma (by decide)
  · rcases List.mem_cons.mp hm with rfl | hm
    · exact List.not_mem_nil hnul
    · obtain ⟨o, ho, rfl⟩ := List.mem_map.mp hm
      exact (h o ho).no_nul hnul

/-- The first of the two blank entries puts a comma in front, so the value is
neither empty nor the wildcard. -/
theorem exists_rawOrigins_eq (origins : List String) :
    ∃ cs, (rawOrigins origins).toList = ',' :: cs := by
  rw [rawOrigins, String.toList_ofList, List.intercalate_cons_cons]
  exact ⟨_, rfl⟩

/-- **The origins are read back from their list**: no origin has a comma or
blanks to lose, and the two blank entries are dropped. -/
theorem listedOrigins_rawOrigins {origins : List String} (h : ∀ o ∈ origins, IsOrigin o) :
    listedOrigins (rawOrigins origins) = origins := by
  have hparts : pySplit (rawOrigins origins) ',' = "" :: "" :: origins := by
    have hcomma : ∀ l ∈ [] :: [] :: origins.map String.toList, ',' ∉ l := by
      intro l hl
      simp only [List.mem_cons, List.mem_map] at hl
      rcases hl with rfl | rfl | ⟨o, ho, rfl⟩
      · exact List.not_mem_nil
      · exact List.not_mem_nil
      · exact (h o ho).no_comma
    have hid : String.ofList ∘ String.toList = id := funext fun _ => String.ofList_toList
    rw [pySplit, rawOrigins, String.toList_ofList,
      List.splitOn_intercalate ',' hcomma (List.cons_ne_nil _ _), List.map_cons, List.map_cons,
      List.map_map, hid, List.map_id]
  have hstrip : origins.map (fun o => String.ofList (pyStrip o.toList)) = origins := by
    refine (List.map_congr_left fun o ho => ?_).trans (List.map_id origins)
    rw [(h o ho).stripped, String.ofList_toList, id]
  rw [listedOrigins, hparts, List.map_cons, List.map_cons, hstrip,
    List.filter_cons_of_neg (by decide), List.filter_cons_of_neg (by decide),
    List.filter_eq_self.mpr fun o ho => decide_eq_true (h o ho).ne_empty]

/-- **The configurations there are.** Some environment of a process states a
configuration exactly when it is the wildcard without credentials, or
credentials with any list of origins: the list can be empty, and `*` can be in
it. -/
theorem addCors_spans (s : CorsSettings) :
    (∃ environ : OsEnviron, addCors environ.get = s)
      ↔ s = anyOrigin
        ∨ ∃ origins : List String, (∀ o ∈ origins, IsOrigin o)
          ∧ s = { allowOrigins := origins, allowCredentials := true } := by
  constructor
  · rintro ⟨environ, rfl⟩
    unfold addCors
    split
    · next raw hraw =>
      have hnul : nul ∉ raw.toList := environ.nul_notMem _ raw hraw
      split
      · exact Or.inr ⟨_, fun o ho => isOrigin_of_mem_listedOrigins hnul ho, rfl⟩
      · exact Or.inl rfl
    · exact Or.inl rfl
  · rintro (rfl | ⟨origins, h, rfl⟩)
    · exact ⟨⟨fun _ => none, nofun⟩, rfl⟩
    · refine ⟨⟨fun _ => some (rawOrigins origins), fun _ value hvalue => ?_⟩, ?_⟩
      · exact Option.some.inj hvalue ▸ nul_notMem_rawOrigins h
      obtain ⟨cs, hcs⟩ := exists_rawOrigins_eq origins
      have hraw : rawOrigins origins ≠ "" ∧ rawOrigins origins ≠ "*" := by
        constructor
        · intro hempty
          rw [hempty] at hcs
          cases hcs
        · intro hstar
          rw [hstar] at hcs
          exact absurd (List.cons.inj hcs).1 (by decide)
      show (if rawOrigins origins ≠ "" ∧ rawOrigins origins ≠ "*" then
        CorsSettings.mk (listedOrigins (rawOrigins origins)) true ["*"] ["*"] else anyOrigin) = _
      rw [if_pos hraw, listedOrigins_rawOrigins h]

/-- **When any origin is allowed and credentials are**: an entry of the list is
the wildcard, and the list is more than that one character. -/
theorem allowsAnyWithCredentials_iff (environ : Environ) :
    "*" ∈ (addCors environ).allowOrigins ∧ (addCors environ).allowCredentials = true
      ↔ ∃ raw, environ "ALLOWED_ORIGINS" = some raw ∧ raw ≠ "*"
        ∧ ∃ p ∈ pySplit raw ',', pyStrip p.toList = ['*'] := by
  have hmem (raw : String) :
      "*" ∈ listedOrigins raw ↔ ∃ p ∈ pySplit raw ',', pyStrip p.toList = ['*'] := by
    rw [listedOrigins, List.mem_filter, and_iff_left (by decide), List.mem_map]
    refine exists_congr fun p => and_congr_right fun _ => ?_
    rw [← String.toList_inj, String.toList_ofList]
    rfl
  rw [addCors]
  cases environ "ALLOWED_ORIGINS" with
  | none => simp [anyOrigin]
  | some raw =>
    by_cases hraw : raw ≠ "" ∧ raw ≠ "*"
    · simp [hraw, hmem]
    · have hnone : ¬ (raw ≠ "*" ∧ ∃ p ∈ pySplit raw ',', pyStrip p.toList = ['*']) := by
        rintro ⟨hstar, h⟩
        obtain rfl : raw = "" := by_contra fun hne => hraw ⟨hne, hstar⟩
        exact absurd h (by decide)
      simp only [if_neg hraw, anyOrigin, Bool.false_eq_true, and_false, Option.some.injEq,
        exists_eq_left', false_iff]
      exact hnone

end BaseAgentApp
