import PlatformSdk.DeepMerge

/-!
# Which files a failed parse phase names

A problem of a configuration carries a location: the path of a file, or a line
of it (`ConfigErrorDetail.Names`). The parse phase is to refuse a file that is
neither a mapping nor empty, and to name each file it refuses –
`ReportsDefects`.

The phase stops at the first of several checks: a `default.yaml` that is not
there, then the parse errors of both files, then the type of each. And what is
false to Python it takes for an empty document. And it expects nothing but a
`YAMLError` of a file it reads, so that bytes that are no UTF-8, or a date
there is none of, end the load with the exception of the decoder.
`load_reportsDefects_iff` says when nothing is lost by this: both files can be
read, there is no empty list, zero or empty string at the top of one, and not
two defective files unless both fail to parse.
-/

/-- The problem is located in the file: at its path, or at a line of it. -/
def ConfigErrorDetail.Names (d : ConfigErrorDetail) (path : PurePath) : Prop :=
  d.location = path.toString ∨ ∃ line : ℕ, d.location = path.toString ++ ":" ++ line.repr

/-- **The files of a disk**, which is asked by the text of a path. -/
def diskFiles (disk : String → FileContents) : Files := fun path => disk path.toString

/-! ## Paths of YAML files -/

/-- What follows the last separator goes to the last piece. -/
theorem exists_splitOn_append {c : Char} {ys : List Char} (hy : c ∉ ys) (xs : List Char) :
    ∃ init last, (xs ++ ys).splitOn c = init ++ [last ++ ys] := by
  induction hn : xs.length using Nat.strong_induction_on generalizing xs with
  | _ n ih =>
    by_cases hx : c ∈ xs
    · obtain ⟨p, q, rfl, hp⟩ := List.eq_append_cons_of_mem hx
      obtain ⟨init, last, hq⟩ := ih q.length (by simp [← hn]; omega) q rfl
      refine ⟨p :: init, last, ?_⟩
      rw [List.append_assoc, List.cons_append, List.splitOn_append_cons_self_of_not_mem hp, hq]
      rfl
    · refine ⟨[], xs, List.splitOn_eq_singleton ?_⟩
      simp [hx, hy]

/-- **The path of a YAML file ends as its name does.** -/
theorem toString_join_yaml (dir : PurePath) (name : String) :
    ∃ stem, (dir.join (name ++ ".yaml")).toString = stem ++ ".yaml" := by
  obtain ⟨init, last, hsplit⟩ :=
    exists_splitOn_append (show '/' ∉ ".yaml".toList by decide) name.toList
  have hne : ∀ s : String, s.length < 5 → String.ofList last ++ ".yaml" ≠ s := by
    intro s hs h
    have hlen := congrArg String.length h
    rw [String.length_append, show ".yaml".length = 5 from rfl] at hlen
    omega
  have hparts : ∃ init', (PurePath.ofString (name ++ ".yaml")).parts
      = init' ++ [String.ofList last ++ ".yaml"] := by
    refine ⟨(init.map String.ofList).filter (fun c => c ≠ "" ∧ c ≠ "."), ?_⟩
    show ((pySplit (name ++ ".yaml") '/').filter _) = _
    rw [pySplit, String.toList_append, hsplit, List.map_append, List.filter_append]
    simp [hne "" (by decide), hne "." (by decide)]
  have hjoin : ∃ root init', dir.join (name ++ ".yaml")
      = ⟨root, init' ++ [String.ofList last ++ ".yaml"]⟩ := by
    obtain ⟨init', h⟩ := hparts
    rw [PurePath.join]
    split
    · exact ⟨(PurePath.ofString (name ++ ".yaml")).root, init', by rw [← h]⟩
    · exact ⟨dir.root, dir.parts ++ init', by rw [h, List.append_assoc]⟩
  obtain ⟨root, init', h⟩ := hjoin
  rw [h, PurePath.toString, if_neg (by simp)]
  cases init' with
  | nil => exact ⟨root ++ String.ofList last, by simp [String.append_assoc]⟩
  | cons a init' =>
    refine ⟨root ++ (String.intercalate "/" (a :: init') ++ "/" ++ String.ofList last), ?_⟩
    rw [String.intercalate_append_of_ne_nil (List.cons_ne_nil a init') (List.cons_ne_nil _ _),
      String.intercalate_singleton]
    simp only [String.append_assoc]

/-- The digits of a line number are no other characters. -/
theorem notMem_repr {c : Char} (hc : c.isDigit = false) (n : ℕ) : c ∉ n.repr.toList := by
  intro h
  rw [Nat.toList_repr] at h
  rw [Nat.isDigit_of_mem_toDigits (by decide) (by decide) h] at hc
  cases hc

/-- A line of a file is not the path of a YAML file. -/
theorem line_ne_yaml (stem s : String) (n : ℕ) : stem ++ ".yaml" ≠ s ++ ":" ++ n.repr := by
  intro h
  have hl := congrArg (fun t => t.toList.getLast?) h
  simp only [String.toList_append] at hl
  have hr : n.repr.toList ≠ [] := by rw [Nat.toList_repr]; exact Nat.toDigits_ne_nil
  rw [List.getLast?_append_of_ne_nil _ (by decide), List.getLast?_append_of_ne_nil _ hr] at hl
  exact notMem_repr (by decide) n (List.mem_of_getLast? hl.symm)

/-- Two lines that are the same are lines of the same file. -/
theorem line_inj {s t : String} {m n : ℕ} (h : s ++ ":" ++ m.repr = t ++ ":" ++ n.repr) :
    s = t := by
  have hl := congrArg (fun r => r.toList.reverse) h
  have hcolon : ∀ k : ℕ, ':' ∉ k.repr.toList.reverse := fun k hk =>
    notMem_repr (by decide) k (List.mem_reverse.mp hk)
  have hl' : m.repr.toList.reverse ++ ':' :: s.toList.reverse
      = n.repr.toList.reverse ++ ':' :: t.toList.reverse := by
    simpa [String.toList_append] using hl
  have hsplit := congrArg (List.splitOn ':') hl'
  rw [List.splitOn_append_cons_self_of_not_mem (hcolon m),
    List.splitOn_append_cons_self_of_not_mem (hcolon n)] at hsplit
  rw [(List.cons.inj hsplit).1] at hl'
  have hst := (List.cons.inj (List.append_cancel_left hl')).2
  exact String.toList_inj.mp (List.reverse_inj.mp hst)

/-- **A problem names one YAML file.** Two files that a problem names have one
path, as a location is the path and at most a line behind it. -/
theorem ConfigErrorDetail.Names.toString_eq {d : ConfigErrorDetail} {dir dir' : PurePath}
    {name name' : String} (h : d.Names (dir.join (name ++ ".yaml")))
    (h' : d.Names (dir'.join (name' ++ ".yaml"))) :
    (dir.join (name ++ ".yaml")).toString = (dir'.join (name' ++ ".yaml")).toString := by
  obtain ⟨stem, hstem⟩ := toString_join_yaml dir name
  obtain ⟨stem', hstem'⟩ := toString_join_yaml dir' name'
  obtain hd | ⟨m, hd⟩ := h <;> obtain hd' | ⟨n, hd'⟩ := h'
  · exact hd.symm.trans hd'
  · exact absurd (hstem.symm.trans (hd.symm.trans hd')) (line_ne_yaml _ _ n)
  · exact absurd (hstem'.symm.trans (hd'.symm.trans hd)) (line_ne_yaml _ _ m)
  · exact line_inj (hd.symm.trans hd')

/-! ## The parse phase -/

namespace FileContents

/-- A mapping or an empty document. -/
def IsMapping : FileContents → Prop
  | .document v => v.isMap = true ∨ v = Yaml.null
  | _ => False

/-- **A defective `default.yaml`**: it is to be a mapping or empty. -/
def DefaultDefective (c : FileContents) : Prop := ¬ c.IsMapping

/-- **A defective overlay**: it may be absent as well. -/
def OverlayDefective (c : FileContents) : Prop := ¬ c.IsMapping ∧ c ≠ .absent

/-- Reading the file, if it is there, raises nothing but a `YAMLError`. -/
def Readable (c : FileContents) : Prop := ∀ exc, c ≠ .unreadable exc

/-- A document that is false to Python and neither a mapping nor empty: an
empty list, zero, `false`, an empty string. -/
def FalsyDocument : FileContents → Prop
  | .document v => v.truthy = false ∧ v.isMap = false ∧ v ≠ Yaml.null
  | _ => False

/-- A file that is no YAML. -/
def IsMalformed : FileContents → Prop
  | .malformed _ _ => True
  | _ => False

end FileContents

/-- **The contract of the parse phase** of a load, for a directory and the
name of an environment: when a file is defective the load ends there, with a
`ConfigError` that has a problem for each of the files that are. -/
def ReportsDefects {α : Type} (load : Except LoadFailure α) (disk : String → FileContents)
    (dir : PurePath) (name : String) : Prop :=
  (disk (dir.join "default.yaml").toString).DefaultDefective ∨
      (disk (dir.join (name ++ ".yaml")).toString).OverlayDefective →
    ∃ e, parsePhase (diskFiles disk) (dir.join "default.yaml") (dir.join (name ++ ".yaml"))
          = .error (.configError e)
      ∧ load = .error (.configError e)
      ∧ ((disk (dir.join "default.yaml").toString).DefaultDefective →
          ∃ d ∈ e.errors, d.Names (dir.join "default.yaml"))
      ∧ ((disk (dir.join (name ++ ".yaml")).toString).OverlayDefective →
          ∃ d ∈ e.errors, d.Names (dir.join (name ++ ".yaml")))

/-- **What the phase needs of its files**: no document that is false to Python
but not empty, and not two defective files unless both fail to parse. -/
structure Separable (disk : String → FileContents) (dir : PurePath) (name : String) : Prop where
  default : ¬ (disk (dir.join "default.yaml").toString).FalsyDocument
  overlay : ¬ (disk (dir.join (name ++ ".yaml")).toString).FalsyDocument
  one : (disk (dir.join "default.yaml").toString).DefaultDefective →
    (disk (dir.join (name ++ ".yaml")).toString).OverlayDefective →
      (dir.join "default.yaml").toString = (dir.join (name ++ ".yaml")).toString
        ∨ (disk (dir.join "default.yaml").toString).IsMalformed
          ∧ (disk (dir.join (name ++ ".yaml")).toString).IsMalformed

/-- A document is read as a mapping if it is one or is false to Python. -/
def Yaml.readsAsMapping (v : Yaml) : Bool := !v.truthy || v.isMap

theorem Yaml.exists_map_of_readsAsMapping {v : Yaml} (h : v.readsAsMapping = true) :
    ∃ d, (if v.truthy then v else .map []) = .map d := by
  cases ht : v.truthy with
  | false => exact ⟨[], rfl⟩
  | true =>
    rw [readsAsMapping, ht] at h
    cases v with
    | map d => exact ⟨d, rfl⟩
    | _ => cases h

/-- One that is not is read as it is. -/
theorem Yaml.of_not_readsAsMapping {v : Yaml} (h : v.readsAsMapping = false) :
    v.truthy = true ∧ v.isMap = false := by
  simpa [readsAsMapping] using h

/-- **A document is defective** when it is false to Python and not empty, or
not read as a mapping. -/
theorem FileContents.defective_document_iff {v : Yaml} :
    (FileContents.document v).DefaultDefective
      ↔ (FileContents.document v).FalsyDocument ∨ v.readsAsMapping = false := by
  rw [DefaultDefective, IsMapping, FalsyDocument, Yaml.readsAsMapping]
  by_cases hnull : v = Yaml.null
  · subst hnull
    simp [Yaml.truthy]
  · cases v.truthy <;> cases v.isMap <;> simp [hnull]

theorem FileContents.not_falsyDocument {v : Yaml} (h : v.truthy = true) :
    ¬ (FileContents.document v).FalsyDocument := by
  rw [FalsyDocument, h]
  exact fun hf => Bool.noConfusion hf.1

theorem FileContents.exists_of_isMalformed {c : FileContents} (h : c.IsMalformed) :
    ∃ line problem, c = .malformed line problem := by
  cases c with
  | malformed line problem => exact ⟨line, problem, rfl⟩
  | _ => exact h.elim

/-- What is readable, parses and is read as a mapping if it is there. -/
theorem FileContents.absent_or_readsAsMapping {c : FileContents} (h : c.Readable)
    (hm : ¬ c.IsMalformed) (hw : ¬ ∃ w, c = .document w ∧ w.readsAsMapping = false) :
    c = .absent ∨ ∃ w, c = .document w ∧ w.readsAsMapping = true := by
  cases c with
  | absent => exact Or.inl rfl
  | unreadable exc => exact absurd rfl (h exc)
  | malformed line problem => exact absurd trivial hm
  | document w => exact Or.inr ⟨w, rfl, by simpa using fun hf => hw ⟨w, rfl, hf⟩⟩

theorem FileContents.overlayDefective_document_iff {v : Yaml} :
    (FileContents.document v).OverlayDefective ↔ (FileContents.document v).DefaultDefective :=
  and_iff_left (by simp)

/-- A document that is false to Python but not empty is defective. -/
theorem FileContents.FalsyDocument.overlayDefective {c : FileContents} (h : c.FalsyDocument) :
    c.OverlayDefective := by
  cases c with
  | document v => exact overlayDefective_document_iff.mpr (defective_document_iff.mpr (Or.inl h))
  | _ => exact h.elim

/-- Without two parse errors, two defective files have to be one. -/
theorem separable_iff {disk : String → FileContents} {dir : PurePath} {name : String}
    (h : ¬ ((disk (dir.join "default.yaml").toString).IsMalformed
      ∧ (disk (dir.join (name ++ ".yaml")).toString).IsMalformed)) :
    Separable disk dir name
      ↔ ¬ (disk (dir.join "default.yaml").toString).FalsyDocument
        ∧ ¬ (disk (dir.join (name ++ ".yaml")).toString).FalsyDocument
        ∧ ((disk (dir.join "default.yaml").toString).DefaultDefective →
          (disk (dir.join (name ++ ".yaml")).toString).OverlayDefective →
            (dir.join "default.yaml").toString = (dir.join (name ++ ".yaml")).toString) :=
  ⟨fun hs => ⟨hs.default, hs.overlay, fun hd ho => (hs.one hd ho).resolve_right h⟩,
    fun ⟨hd, ho, hone⟩ => ⟨hd, ho, fun h₁ h₂ => Or.inl (hone h₁ h₂)⟩⟩

section Separable

variable {disk : String → FileContents} {dir : PurePath} {name : String}
  (h : ¬ ((disk (dir.join "default.yaml").toString).IsMalformed
    ∧ (disk (dir.join (name ++ ".yaml")).toString).IsMalformed))

include h

/-- When `default.yaml` is defective for another reason, the overlay has to be
sound. -/
theorem separable_iff_of_default (hd : (disk (dir.join "default.yaml").toString).DefaultDefective)
    (hf : ¬ (disk (dir.join "default.yaml").toString).FalsyDocument) :
    Separable disk dir name
      ↔ ((disk (dir.join (name ++ ".yaml")).toString).OverlayDefective →
          (dir.join "default.yaml").toString = (dir.join (name ++ ".yaml")).toString) := by
  rw [separable_iff h]
  refine ⟨fun hs => hs.2.2 hd, fun ho => ⟨hf, fun hfo => hf ?_, fun _ => ho⟩⟩
  rw [ho hfo.overlayDefective]
  exact hfo

/-- When the overlay is, `default.yaml` has to be. -/
theorem separable_iff_of_overlay
    (ho : (disk (dir.join (name ++ ".yaml")).toString).OverlayDefective)
    (hf : ¬ (disk (dir.join (name ++ ".yaml")).toString).FalsyDocument) :
    Separable disk dir name
      ↔ ((disk (dir.join "default.yaml").toString).DefaultDefective →
          (dir.join "default.yaml").toString = (dir.join (name ++ ".yaml")).toString) := by
  rw [separable_iff h]
  refine ⟨fun hs hd => hs.2.2 hd ho, fun hd => ⟨fun hfd => hf ?_, hf, fun hd' _ => hd hd'⟩⟩
  rw [← hd hfd.overlayDefective.1]
  exact hfd

/-- **Where both files are let through**, a defect is a document that is false
to Python. -/
theorem separable_iff_of_mappings {v : Yaml}
    (hD : disk (dir.join "default.yaml").toString = .document v)
    (hv : v.readsAsMapping = true)
    (hO : disk (dir.join (name ++ ".yaml")).toString = .absent
      ∨ ∃ w, disk (dir.join (name ++ ".yaml")).toString = .document w
        ∧ w.readsAsMapping = true) :
    Separable disk dir name
      ↔ ¬ (disk (dir.join "default.yaml").toString).DefaultDefective
        ∧ ¬ (disk (dir.join (name ++ ".yaml")).toString).OverlayDefective := by
  rw [separable_iff h]
  have hd : (disk (dir.join "default.yaml").toString).DefaultDefective
      ↔ (disk (dir.join "default.yaml").toString).FalsyDocument := by
    rw [hD, FileContents.defective_document_iff, hv]
    simp
  have ho : (disk (dir.join (name ++ ".yaml")).toString).OverlayDefective →
      (disk (dir.join (name ++ ".yaml")).toString).FalsyDocument := by
    rcases hO with hO | ⟨w, hO, hw⟩
    · rw [hO]
      exact fun h => absurd rfl h.2
    · rw [hO, FileContents.overlayDefective_document_iff,
        FileContents.defective_document_iff, hw]
      exact fun h => h.resolve_right Bool.noConfusion
  constructor
  · rintro ⟨hdefault, hoverlay, -⟩
    exact ⟨fun hd' => hdefault (hd.mp hd'), fun ho' => hoverlay (ho ho')⟩
  · rintro ⟨hdefault, hoverlay⟩
    exact ⟨fun hf => hdefault (hd.mpr hf), fun hf => hoverlay hf.overlayDefective,
      fun hd' => absurd hd' hdefault⟩

end Separable

section ParsePhase

variable {files : Files} {dp op : PurePath}

theorem parsePhase_absent (h : files dp = .absent) :
    parsePhase files dp op
      = .error (.configError ⟨[⟨dp.toString, "", "default.yaml not found"⟩], ""⟩) := by
  rw [parsePhase, h]

/-- Reading a file that is no YAML meets one problem, located in it. -/
theorem readYaml_malformed (path : PurePath) (line : Option ℕ) (problem : String) :
    ∃ d, d.Names path ∧ readYaml path (.malformed line problem) = .ok (.map [], [d]) := by
  cases line with
  | none => exact ⟨_, Or.inl rfl, rfl⟩
  | some n => exact ⟨_, Or.inr ⟨n + 1, rfl⟩, rfl⟩

theorem readYaml_document (path : PurePath) (v : Yaml) :
    readYaml path (.document v) = .ok (if v.truthy then v else .map [], []) := rfl

/-- A parse error of `default.yaml` alone is the only problem reported, whatever
document the overlay is. -/
theorem parsePhase_malformed {line : Option ℕ} {problem : String}
    (h : files dp = .malformed line problem) (ho : (files op).Readable)
    (hop : ¬ (files op).IsMalformed) :
    ∃ d, d.Names dp ∧ parsePhase files dp op = .error (.configError ⟨[d], ""⟩) := by
  obtain ⟨d, hd, hread⟩ := readYaml_malformed dp line problem
  refine ⟨d, hd, ?_⟩
  rw [parsePhase, h]
  cases hc : files op with
  | absent => simp [hread, readOverlay]
  | unreadable exc => exact absurd hc (ho exc)
  | malformed l p => rw [hc] at hop; exact absurd trivial hop
  | document w => simp [hread, readYaml_document, readOverlay, Except.map]

/-- Parse errors of both files are reported together, since the phase parses
both before it raises. -/
theorem parsePhase_malformed_malformed {line line' : Option ℕ} {problem problem' : String}
    (h : files dp = .malformed line problem) (h' : files op = .malformed line' problem') :
    ∃ d d', d.Names dp ∧ d'.Names op
      ∧ parsePhase files dp op = .error (.configError ⟨[d, d'], ""⟩) := by
  obtain ⟨d, hd, hread⟩ := readYaml_malformed dp line problem
  obtain ⟨d', hd', hread'⟩ := readYaml_malformed op line' problem'
  refine ⟨d, d', hd, hd', ?_⟩
  rw [parsePhase, h, h']
  simp [hread, readOverlay, hread', Except.map]

/-- A parse error of the overlay comes before any other defect. -/
theorem parsePhase_document_malformed {v : Yaml} {line : Option ℕ} {problem : String}
    (h : files dp = .document v) (h' : files op = .malformed line problem) :
    ∃ d, d.Names op ∧ parsePhase files dp op = .error (.configError ⟨[d], ""⟩) := by
  obtain ⟨d, hd, hread⟩ := readYaml_malformed op line problem
  refine ⟨d, hd, ?_⟩
  rw [parsePhase, h, h']
  simp [readYaml_document, readOverlay, hread, Except.map]

/-- **Two files read as mappings pass**: an absent overlay, and documents that
are false to Python, are read as the empty mapping. -/
theorem parsePhase_mapping {v : Yaml} (h : files dp = .document v)
    (hv : v.readsAsMapping = true)
    (h' : files op = .absent ∨ ∃ w, files op = .document w ∧ w.readsAsMapping = true) :
    ∃ merged, parsePhase files dp op = .ok merged := by
  obtain ⟨b, hb⟩ := Yaml.exists_map_of_readsAsMapping hv
  rcases h' with h' | ⟨w, h', hw⟩
  · rw [parsePhase, h, h']
    simp [readYaml_document, readOverlay, hb]
  · obtain ⟨o, ho⟩ := Yaml.exists_map_of_readsAsMapping hw
    rw [parsePhase, h, h']
    simp [readYaml_document, readOverlay, hb, ho, Except.map]

/-- An overlay that is no mapping is reported, and nothing else, behind a
`default.yaml` that passes. -/
theorem parsePhase_overlay {v w : Yaml} (h : files dp = .document v)
    (hv : v.readsAsMapping = true) (h' : files op = .document w)
    (hw : w.readsAsMapping = false) :
    parsePhase files dp op = .error (.configError ⟨[notAMapping op], ""⟩) := by
  obtain ⟨b, hb⟩ := Yaml.exists_map_of_readsAsMapping hv
  obtain ⟨ht, hm⟩ := Yaml.of_not_readsAsMapping hw
  rw [parsePhase, h, h']
  cases w with
  | map o => cases hm
  | _ => simp [readYaml_document, readOverlay, hb, ht, Except.map]

/-- What reading `default.yaml` raises passes through, as the reader catches a
`YAMLError` only. -/
theorem parsePhase_unreadable {exc : PyExc} (h : files dp = .unreadable exc) :
    parsePhase files dp op = .error (.raised exc) := by
  simp [parsePhase, h, readYaml]

/-- And so does what reading the overlay raises, where `default.yaml` is there. -/
theorem parsePhase_unreadable_overlay {exc : PyExc} (h : files op = .unreadable exc)
    (hr : (files dp).Readable) (hd : files dp ≠ .absent) :
    parsePhase files dp op = .error (.raised exc) := by
  cases hc : files dp with
  | absent => exact absurd hc hd
  | unreadable exc' => exact absurd hc (hr exc')
  | malformed _ _ | document _ => simp [parsePhase, hc, h, readOverlay, readYaml, Except.map]

/-- A `default.yaml` that is no mapping, reported alone. -/
theorem parsePhase_default {v : Yaml} (h : files dp = .document v)
    (hv : v.readsAsMapping = false) (ho : (files op).Readable) (hop : ¬ (files op).IsMalformed) :
    parsePhase files dp op = .error (.configError ⟨[notAMapping dp], ""⟩) := by
  obtain ⟨ht, hm⟩ := Yaml.of_not_readsAsMapping hv
  rw [parsePhase, h]
  cases hc : files op with
  | unreadable exc => exact absurd hc (ho exc)
  | malformed l p => rw [hc] at hop; exact absurd trivial hop
  | absent =>
    cases v with
    | map b => cases hm
    | _ => simp [readYaml_document, readOverlay, ht]
  | document w =>
    cases v with
    | map b => cases hm
    | _ => simp [readYaml_document, readOverlay, ht, Except.map]

end ParsePhase

section Reports

variable {disk : String → FileContents} {dir : PurePath} {name : String} {α : Type}
  {load : Except LoadFailure α}

/-- A phase that is passed reports nothing. -/
theorem reportsDefects_of_ok {merged : Dict YamlKey Yaml}
    (h : parsePhase (diskFiles disk) (dir.join "default.yaml") (dir.join (name ++ ".yaml"))
      = .ok merged) :
    ReportsDefects load disk dir name
      ↔ ¬ (disk (dir.join "default.yaml").toString).DefaultDefective
        ∧ ¬ (disk (dir.join (name ++ ".yaml")).toString).OverlayDefective := by
  rw [← not_or]
  refine ⟨fun hr hd => ?_, fun hn hd => absurd hd hn⟩
  obtain ⟨e, he, -⟩ := hr hd
  rw [h] at he
  cases he

/-- **A phase that fails reports its problems**, so each defective file has to
be among the files they name. -/
theorem reportsDefects_of_error {e : ConfigError}
    (h : parsePhase (diskFiles disk) (dir.join "default.yaml") (dir.join (name ++ ".yaml"))
      = .error (.configError e)) (hload : load = .error (.configError e)) :
    ReportsDefects load disk dir name
      ↔ ((disk (dir.join "default.yaml").toString).DefaultDefective →
          ∃ d ∈ e.errors, d.Names (dir.join "default.yaml"))
        ∧ ((disk (dir.join (name ++ ".yaml")).toString).OverlayDefective →
          ∃ d ∈ e.errors, d.Names (dir.join (name ++ ".yaml"))) := by
  constructor
  · intro hr
    refine ⟨fun hd => ?_, fun hd => ?_⟩
    · obtain ⟨e', he', -, hdef, -⟩ := hr (Or.inl hd)
      rw [h] at he'
      cases he'
      exact hdef hd
    · obtain ⟨e', he', -, -, hov⟩ := hr (Or.inr hd)
      rw [h] at he'
      cases he'
      exact hov hd
  · rintro ⟨hdef, hov⟩ -
    exact ⟨e, h, hload, hdef, hov⟩

/-- A single problem, of `default.yaml`: the overlay is sound or the same
file. -/
theorem reportsDefects_of_default {d : ConfigErrorDetail} (hd : d.Names (dir.join "default.yaml"))
    (h : parsePhase (diskFiles disk) (dir.join "default.yaml") (dir.join (name ++ ".yaml"))
      = .error (.configError ⟨[d], ""⟩)) (hload : load = .error (.configError ⟨[d], ""⟩)) :
    ReportsDefects load disk dir name
      ↔ ((disk (dir.join (name ++ ".yaml")).toString).OverlayDefective →
          (dir.join "default.yaml").toString = (dir.join (name ++ ".yaml")).toString) := by
  rw [reportsDefects_of_error h hload]
  constructor
  · rintro ⟨-, hov⟩ hdef
    obtain ⟨d', hmem, hd'⟩ := hov hdef
    obtain rfl := List.mem_singleton.mp hmem
    have hnames : d'.Names (dir.join ("default" ++ ".yaml")) := hd
    have hsame := hnames.toString_eq hd'
    exact hsame
  · intro hsame
    refine ⟨fun _ => ⟨d, List.mem_singleton_self d, hd⟩, fun hdef => ?_⟩
    refine ⟨d, List.mem_singleton_self d, ?_⟩
    rw [ConfigErrorDetail.Names, ← hsame hdef]
    exact hd

/-- A single problem, of the overlay: `default.yaml` is sound or the same
file. -/
theorem reportsDefects_of_overlay {d : ConfigErrorDetail}
    (hd : d.Names (dir.join (name ++ ".yaml")))
    (h : parsePhase (diskFiles disk) (dir.join "default.yaml") (dir.join (name ++ ".yaml"))
      = .error (.configError ⟨[d], ""⟩)) (hload : load = .error (.configError ⟨[d], ""⟩)) :
    ReportsDefects load disk dir name
      ↔ ((disk (dir.join "default.yaml").toString).DefaultDefective →
          (dir.join "default.yaml").toString = (dir.join (name ++ ".yaml")).toString) := by
  rw [reportsDefects_of_error h hload]
  constructor
  · rintro ⟨hdef, -⟩ hdefective
    obtain ⟨d', hmem, hd'⟩ := hdef hdefective
    obtain rfl := List.mem_singleton.mp hmem
    have hnames : d'.Names (dir.join ("default" ++ ".yaml")) := hd'
    have hsame := hnames.toString_eq hd
    exact hsame
  · intro hsame
    refine ⟨fun hdef => ⟨d, List.mem_singleton_self d, ?_⟩,
      fun _ => ⟨d, List.mem_singleton_self d, hd⟩⟩
    rw [ConfigErrorDetail.Names, hsame hdef]
    exact hd

/-- A phase that raises something else has no errors to name a file in. -/
theorem not_reportsDefects_of_raised {exc : PyExc}
    (h : parsePhase (diskFiles disk) (dir.join "default.yaml") (dir.join (name ++ ".yaml"))
      = .error (.raised exc))
    (hd : (disk (dir.join "default.yaml").toString).DefaultDefective ∨
      (disk (dir.join (name ++ ".yaml")).toString).OverlayDefective) :
    ¬ ReportsDefects load disk dir name := by
  intro hr
  obtain ⟨e, he, -⟩ := hr hd
  rw [h] at he
  cases he

/-- **A file that cannot be read is not reported.** -/
theorem readable_of_reportsDefects (hr : ReportsDefects load disk dir name) :
    (disk (dir.join "default.yaml").toString).Readable
      ∧ (disk (dir.join (name ++ ".yaml")).toString).Readable := by
  have hdefault : (disk (dir.join "default.yaml").toString).Readable := by
    intro exc hD
    refine not_reportsDefects_of_raised
      (parsePhase_unreadable (show diskFiles disk _ = _ from hD)) (Or.inl ?_) hr
    rw [hD]
    exact fun h => h
  refine ⟨hdefault, fun exc hO => ?_⟩
  have hdefective : (disk (dir.join (name ++ ".yaml")).toString).OverlayDefective := by
    rw [hO]
    exact ⟨fun h => h, FileContents.noConfusion⟩
  by_cases hD : disk (dir.join "default.yaml").toString = .absent
  · -- the file that is not there is reported alone, and is not the one that cannot be read
    obtain ⟨e, he, -, -, hov⟩ := hr (Or.inr hdefective)
    obtain ⟨d, hd, hnames⟩ := hov hdefective
    rw [parsePhase_absent (show diskFiles disk _ = _ from hD)] at he
    cases he
    obtain rfl := List.mem_singleton.mp hd
    have hdefault' : ConfigErrorDetail.Names ⟨_, "", "default.yaml not found"⟩
      (dir.join ("default" ++ ".yaml")) := Or.inl rfl
    rw [show dir.join "default.yaml" = dir.join ("default" ++ ".yaml") from rfl,
      hdefault'.toString_eq hnames, hO] at hD
    cases hD
  · exact not_reportsDefects_of_raised
      (parsePhase_unreadable_overlay (show diskFiles disk _ = _ from hO) hdefault hD)
      (Or.inr hdefective) hr

end Reports

/-- A load whose parse phase fails ends there, with the problems of that phase
only. -/
theorem loadConfig_of_parsePhase_error {α : Type} (isPrintable : Char → Bool)
    (validate : Yaml → Validated ErrorDetails α) {files : Files} {environ : Environ}
    {configDir env : Option String} {name : String} {e : LoadFailure}
    (hname : envName env environ = .ok name)
    (h : parsePhase files ((cfgDir configDir environ).join "default.yaml")
      ((cfgDir configDir environ).join (name ++ ".yaml")) = .error e) :
    loadConfig isPrintable validate files environ configDir env = .error e := by
  simp [loadConfig, hname, loadTree, h]

section Iff

variable {disk : String → FileContents} {environ : Environ} {configDir env : Option String}
  {name : String} {α : Type}

/-- **When every defective file is named**, if both can be read: when no file is
a document that is false to Python but not empty, and the two are not both
defective unless both fail to parse or they are one file. -/
theorem reportsDefects_iff_separable {load : Except LoadFailure α} {dir : PurePath}
    (hload : ∀ e, parsePhase (diskFiles disk) (dir.join "default.yaml")
      (dir.join (name ++ ".yaml")) = .error e → load = .error e)
    (hdef : (disk (dir.join "default.yaml").toString).Readable)
    (hov : (disk (dir.join (name ++ ".yaml")).toString).Readable) :
    ReportsDefects load disk dir name ↔ Separable disk dir name := by
  cases hD : disk (dir.join "default.yaml").toString with
  | unreadable exc => exact absurd hD (hdef exc)
  | absent =>
    have hphase := @parsePhase_absent (diskFiles disk) (dir.join "default.yaml")
      (dir.join (name ++ ".yaml")) hD
    rw [reportsDefects_of_default (Or.inl rfl) hphase (hload _ hphase)]
    refine (separable_iff_of_default ?_ ?_ ?_).symm
    · rw [hD]; exact fun h => h.1
    · rw [hD]; exact fun h => h
    · rw [hD]; exact fun h => h
  | malformed line problem =>
    cases hO : disk (dir.join (name ++ ".yaml")).toString with
    | malformed line' problem' =>
      obtain ⟨d, d', hd, hd', hphase⟩ :=
        parsePhase_malformed_malformed (show diskFiles disk _ = _ from hD) hO
      rw [reportsDefects_of_error hphase (hload _ hphase)]
      refine iff_of_true ⟨fun _ => ⟨d, by simp, hd⟩, fun _ => ⟨d', by simp, hd'⟩⟩ ⟨?_, ?_, ?_⟩
      · rw [hD]; exact fun h => h
      · rw [hO]; exact fun h => h
      · rw [hD, hO]; exact fun _ _ => Or.inr ⟨trivial, trivial⟩
    | _ =>
      have hm : ¬ (diskFiles disk (dir.join (name ++ ".yaml"))).IsMalformed := by
        rw [diskFiles, hO]; exact fun h => h
      obtain ⟨d, hd, hphase⟩ := parsePhase_malformed (show diskFiles disk _ = _ from hD) hov hm
      rw [reportsDefects_of_default hd hphase (hload _ hphase)]
      refine (separable_iff_of_default (fun h => hm h.2) ?_ ?_).symm
      · rw [hD]; exact fun h => h
      · rw [hD]; exact fun h => h
  | document v =>
    by_cases hm : (diskFiles disk (dir.join (name ++ ".yaml"))).IsMalformed
    · obtain ⟨line, problem, hO⟩ := FileContents.exists_of_isMalformed hm
      obtain ⟨d, hd, hphase⟩ := parsePhase_document_malformed (show diskFiles disk _ = _ from hD) hO
      rw [diskFiles] at hO
      rw [reportsDefects_of_overlay hd hphase (hload _ hphase)]
      refine (separable_iff_of_overlay ?_ ?_ ?_).symm
      · rw [hD]; exact fun h => h.1
      · rw [hO]; exact ⟨fun h => h, by simp⟩
      · rw [hO]; exact fun h => h
    · cases hv : v.readsAsMapping with
      | false =>
        have hphase := parsePhase_default (show diskFiles disk _ = _ from hD) hv hov hm
        rw [reportsDefects_of_default (Or.inl rfl) hphase (hload _ hphase)]
        refine (separable_iff_of_default (fun h => hm h.2) ?_ ?_).symm
        · rw [hD]; exact FileContents.defective_document_iff.mpr (Or.inr hv)
        · rw [hD]; exact FileContents.not_falsyDocument (Yaml.of_not_readsAsMapping hv).1
      | true =>
        by_cases hw : ∃ w, diskFiles disk (dir.join (name ++ ".yaml")) = .document w
            ∧ w.readsAsMapping = false
        · obtain ⟨w, hO, hw⟩ := hw
          have hphase := parsePhase_overlay (show diskFiles disk _ = _ from hD) hv hO hw
          rw [diskFiles] at hO
          rw [reportsDefects_of_overlay (Or.inl rfl) hphase (hload _ hphase)]
          refine (separable_iff_of_overlay (fun h => hm h.2) ?_ ?_).symm
          · rw [hO, FileContents.overlayDefective_document_iff]
            exact FileContents.defective_document_iff.mpr (Or.inr hw)
          · rw [hO]; exact FileContents.not_falsyDocument (Yaml.of_not_readsAsMapping hw).1
        · have hpass := FileContents.absent_or_readsAsMapping hov hm hw
          obtain ⟨merged, hphase⟩ := parsePhase_mapping (show diskFiles disk _ = _ from hD) hv hpass
          rw [reportsDefects_of_ok hphase]
          exact (separable_iff_of_mappings (fun h => hm h.2) hD hv hpass).symm

/-- **When a load reports every defective file.** One that gets to its parse
phase meets the contract of the phase exactly when reading the two files
raises nothing but a `YAMLError`, neither is a document that is false to
Python but not empty, and they are not both defective unless both fail to
parse or they are one file. -/
theorem load_reportsDefects_iff (isPrintable : Char → Bool)
    (validate : Yaml → Validated ErrorDetails α) (hname : envName env environ = .ok name) :
    ReportsDefects (loadConfig isPrintable validate (diskFiles disk) environ configDir env)
        disk (cfgDir configDir environ) name
      ↔ (disk ((cfgDir configDir environ).join "default.yaml").toString).Readable
        ∧ (disk ((cfgDir configDir environ).join (name ++ ".yaml")).toString).Readable
        ∧ Separable disk (cfgDir configDir environ) name := by
  have hload := fun e => @loadConfig_of_parsePhase_error α isPrintable validate (diskFiles disk)
    environ configDir env name e hname
  constructor
  · intro hr
    obtain ⟨hdef, hov⟩ := readable_of_reportsDefects hr
    exact ⟨hdef, hov, (reportsDefects_iff_separable hload hdef hov).mp hr⟩
  · rintro ⟨hdef, hov, hs⟩
    exact (reportsDefects_iff_separable hload hdef hov).mpr hs

end Iff

/-- A directory with a sound default file and a list for an overlay. -/
def listOverlay : String → FileContents := fun path =>
  if path = "/app/config/prod.yaml" then .document (.list [Yaml.str "a"])
  else .document (.map [])

theorem load_reportsDefects_listOverlay :
    ReportsDefects (loadConfig (fun _ => true) (fun _ => .ok ()) (diskFiles listOverlay)
      (fun _ => none) (some "/app/config") (some "prod")) listOverlay
      (PurePath.ofString "/app/config") "prod" := by
  have hdefault : listOverlay ((PurePath.ofString "/app/config").join "default.yaml").toString
      = .document (.map []) := rfl
  have hoverlay : listOverlay ((PurePath.ofString "/app/config").join ("prod" ++ ".yaml")).toString
      = .document (.list [Yaml.str "a"]) := rfl
  refine (load_reportsDefects_iff (fun _ => true) (fun _ => .ok ())
    (show envName (some "prod") (fun _ => none) = _ from rfl)).mpr ⟨fun exc h => ?_,
      fun exc h => ?_, fun h => ?_, fun h => ?_, fun hd _ => absurd ?_ hd⟩
  · exact FileContents.noConfusion (hdefault.symm.trans h)
  · exact FileContents.noConfusion (hoverlay.symm.trans h)
  · exact absurd ((congrArg FileContents.FalsyDocument hdefault).mp h).2.1 (by decide)
  · exact absurd ((congrArg FileContents.FalsyDocument hoverlay).mp h).1 (by decide)
  · exact (congrArg FileContents.IsMapping hdefault).mpr (Or.inl rfl)

/-- **A second defective file is not named**, and an empty list passes for a
mapping. -/
theorem not_load_reportsDefects :
    ¬ ReportsDefects (loadConfig (fun _ => true) (fun _ => .ok ())
        (diskFiles (fun _ => .document (.list [Yaml.str "a"]))) (fun _ => none)
        (some "/app/config") (some "prod")) (fun _ => .document (.list [Yaml.str "a"]))
        (PurePath.ofString "/app/config") "prod"
      ∧ ¬ ReportsDefects (loadConfig (fun _ => true) (fun _ => .ok ())
        (diskFiles (fun _ => .document (.list []))) (fun _ => none)
        (some "/app/config") (some "prod")) (fun _ => .document (.list []))
        (PurePath.ofString "/app/config") "prod" := by
  have hlist : ∀ xs, (FileContents.document (.list xs)).DefaultDefective := by
    rintro xs (h | h) <;> cases h
  refine ⟨fun h => ?_, fun h => ?_⟩
  · obtain ⟨e, he, -, -, hov⟩ := h (Or.inl (hlist _))
    obtain ⟨d, hd, hnames⟩ := hov (FileContents.overlayDefective_document_iff.mpr (hlist _))
    have hphase := @parsePhase_default (diskFiles fun _ => .document (.list [Yaml.str "a"]))
      ((PurePath.ofString "/app/config").join "default.yaml")
      ((PurePath.ofString "/app/config").join ("prod" ++ ".yaml"))
      (.list [Yaml.str "a"]) rfl rfl (fun exc h => by cases h) (fun hm => hm)
    rw [hphase] at he
    cases he
    obtain rfl := List.mem_singleton.mp hd
    have hdefault : (notAMapping ((PurePath.ofString "/app/config").join "default.yaml")).Names
        ((PurePath.ofString "/app/config").join ("default" ++ ".yaml")) := Or.inl rfl
    exact absurd (hdefault.toString_eq hnames) (by decide)
  · obtain ⟨e, he, -⟩ := h (Or.inl (hlist _))
    obtain ⟨merged, hphase⟩ := @parsePhase_mapping (diskFiles fun _ => .document (.list []))
      ((PurePath.ofString "/app/config").join "default.yaml")
      ((PurePath.ofString "/app/config").join ("prod" ++ ".yaml"))
      (.list []) rfl rfl (Or.inr ⟨.list [], rfl, rfl⟩)
    rw [hphase] at he
    cases he
