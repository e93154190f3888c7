import PlatformSdk.SchemaContext
import PlatformSdk.UrlPath

/-!
# The file of relationships

What the catalog does not say about a database is written in a YAML file by
hand: the joins on matching text, the perspectives of the analysts, the
glossary. `_load_relationships_yaml` reads it, and validates nothing. A field
is whatever the document has at its key, of whatever type.

Two things it does check without meaning to. It takes the names of a join apart
at their dots, and it strips the definition of a term. `loadRelationshipsYaml_spans` says
what that makes of the relationships a prompt can be given: those whose names
have no dot and no double quote at either end and whose definitions have no
blank there, no others and all of them. Each is what its own document loads to.

The `KeyError` of a missing key and what `_split_qualified` raises carry their
text. The texts of Python's own `TypeError` and `AttributeError` are left out.
-/

/-! ## What is loaded -/

/-- **What loading raises** on a document of another shape, and what splitting a
name does. -/
inductive LoaderExc where
  | keyError (key : String)
  | typeError
  | attributeError
  /-- An exception of `_split_qualified`. -/
  | raised (e : PyExc)
  deriving DecidableEq

/-- **What Python does with the scalars of no type of JSON**, by their `repr`. -/
structure ScalarMethods where
  /-- `list(x)`: of a byte string its bytes, of a set its members. -/
  list : String → Except LoaderExc (List Yaml)
  /-- `x.strip()`: of a byte string another, with its truth value. -/
  strip : String → Except LoaderExc (String × Bool)
  /-- What `x.split(".")` raises. -/
  split : String → LoaderExc

/-- A `TextJoin` as it is loaded: its semantics are whatever the document has
there. -/
structure LoadedJoin extends ForeignKey where
  semantics : Yaml

/-- An `EntityPerspective` as it is loaded, none of whose fields is checked. -/
structure LoadedPerspective where
  name : Yaml
  description : Yaml
  primaryTable : Yaml
  factColumns : List Yaml

/-- A `GlossaryTerm` as it is loaded, none of whose fields is checked. -/
structure LoadedTerm where
  term : Yaml
  definition : Yaml

/-- **What `_load_relationships_yaml` returns**, with whatever values the
document has for texts. -/
structure LoadedRelationships where
  textJoins : List LoadedJoin
  perspectives : List LoadedPerspective
  glossary : List LoadedTerm

section Loader

variable (py : ScalarMethods) (isPrintable : Char → Bool)

/-! ### The operations on a document -/

namespace Yaml

/-- `x.get(key, default)`, which only a mapping has. -/
def getD (x : Yaml) (key : String) (default : Yaml) : Except LoaderExc Yaml :=
  match x with
  | .map d => .ok ((Dict.get? d (.str key)).getD default)
  | _ => .error .attributeError

/-- `x[key]`, which a mapping without the key and every other value raise on. -/
def subscript (x : Yaml) (key : String) : Except LoaderExc Yaml :=
  match x with
  | .map d =>
    match Dict.get? d (.str key) with
    | some v => .ok v
    | none => .error (.keyError key)
  | _ => .error .typeError

/-- **`list(x)`**, and what a `for` loop runs over: members, keys or characters.
-/
def toList (x : Yaml) : Except LoaderExc (List Yaml) :=
  match x with
  | .list xs => .ok xs
  | .map d => .ok (d.map fun e => .leaf e.1.scalar)
  | .leaf (.str s) => .ok (s.toList.map fun c => str (String.singleton c))
  | .leaf (.other r _) => py.list r
  | _ => .error .typeError

/-- `x.strip()`, which a string has, and a byte string in its own way. -/
def strip (x : Yaml) : Except LoaderExc Yaml :=
  match x with
  | .leaf (.str s) => .ok (str (String.ofList (pyStrip s.toList)))
  | .leaf (.other r _) => (py.strip r).map fun e => .leaf (.other e.1 e.2)
  | _ => .error .attributeError

/-- `_split_qualified(x)`, which begins with `x.split(".")` and goes on with
what comes of it. -/
def splitIdent (x : Yaml) : Except LoaderExc (String × String × String) :=
  match x with
  | .leaf (.str s) => (splitQualified isPrintable s).mapError .raised
  | .leaf (.other r _) => .error (py.split r)
  | _ => .error .attributeError

end Yaml

/-! ### The three sections -/

/-- **An entry of `joins`**: both ends are split, and the semantics may be left
out. -/
def loadJoin (item : Yaml) : Except LoaderExc LoadedJoin := do
  let source ← (← item.subscript "from").splitIdent py isPrintable
  let target ← (← item.subscript "to").splitIdent py isPrintable
  let semantics ← item.getD "semantics" (Yaml.str "")
  return {
    fromSchema := source.1, fromTable := source.2.1, fromColumn := source.2.2,
    toSchema := target.1, toTable := target.2.1, toColumn := target.2.2,
    semantics }

/-- **An entry of `perspectives`**, of which the name has to be there. -/
def loadPerspective (item : Yaml) : Except LoaderExc LoadedPerspective := do
  let name ← item.subscript "name"
  let description ← item.getD "description" (Yaml.str "")
  let primaryTable ← item.getD "primary_table" (Yaml.str "")
  let factColumns ← (← item.getD "fact_columns" (.list [])).toList py
  return { name, description, primaryTable, factColumns }

/-- **An entry of `glossary`**, whose definition may be left out and is
stripped. -/
def loadTerm (item : Yaml) : Except LoaderExc LoadedTerm := do
  let term ← item.subscript "term"
  let definition ← (← item.getD "definition" (Yaml.str "")).strip py
  return { term, definition }

/-- One section: the entries at a key, each in its turn. -/
def loadSection {α : Type} (raw : Yaml) (key : String) (load : Yaml → Except LoaderExc α) :
    Except LoaderExc (List α) := do
  (← (← raw.getD key (.list [])).toList py).mapM load

/-- **`_load_relationships_yaml`** on what the file holds, or on no file. -/
def loadRelationshipsYaml (doc : Option Yaml) : Except LoaderExc LoadedRelationships :=
  match doc with
  | none => .ok ⟨[], [], []⟩
  | some doc => do
    let raw := if doc.truthy then doc else .map []
    let textJoins ← loadSection py raw "joins" (loadJoin py isPrintable)
    let perspectives ← loadSection py raw "perspectives" (loadPerspective py)
    let glossary ← loadSection py raw "glossary" (loadTerm py)
    return { textJoins, perspectives, glossary }

end Loader

/-! ## The relationships there are -/

/-- A name in double quotes, none of its own doubled. -/
def rawQuoted (name : String) : String := "\"" ++ name ++ "\""

/-- **Three names in quotes, joined by dots**, as a column is written in the
file. -/
def rawQualified (schema table column : String) : String :=
  rawQuoted schema ++ "." ++ rawQuoted table ++ "." ++ rawQuoted column

/-- **A name that can be loaded**: without a dot, and without a double quote at
either end. -/
def LoadableName (name : String) : Prop :=
  '.' ∉ name.toList ∧ name.toList.head? ≠ some '"' ∧ name.toList.getLast? ≠ some '"'

instance (name : String) : Decidable (LoadableName name) := inferInstanceAs (Decidable (_ ∧ _))

namespace TextJoin

/-- A join as it is loaded. -/
def loaded (j : TextJoin) : LoadedJoin := ⟨j.toForeignKey, Yaml.str j.semantics⟩

/-- A join as an entry. -/
def document (j : TextJoin) : Yaml :=
  .map [(.str "from", Yaml.str (rawQualified j.fromSchema j.fromTable j.fromColumn)),
    (.str "to", Yaml.str (rawQualified j.toSchema j.toTable j.toColumn)),
    (.str "semantics", Yaml.str j.semantics)]

/-- All six names can be loaded, so that the join is read back as it is. -/
structure Loadable (j : TextJoin) : Prop where
  fromSchema : LoadableName j.fromSchema
  fromTable : LoadableName j.fromTable
  fromColumn : LoadableName j.fromColumn
  toSchema : LoadableName j.toSchema
  toTable : LoadableName j.toTable
  toColumn : LoadableName j.toColumn

end TextJoin

namespace EntityPerspective

/-- A perspective as it is loaded. -/
def loaded (p : EntityPerspective) : LoadedPerspective :=
  ⟨Yaml.str p.name, Yaml.str p.description, Yaml.str p.primaryTable, p.factColumns.map Yaml.str⟩

/-- A perspective as an entry. -/
def document (p : EntityPerspective) : Yaml :=
  .map [(.str "name", Yaml.str p.name), (.str "description", Yaml.str p.description),
    (.str "primary_table", Yaml.str p.primaryTable),
    (.str "fact_columns", .list (p.factColumns.map Yaml.str))]

end EntityPerspective

namespace GlossaryTerm

/-- A term as it is loaded. -/
def loaded (t : GlossaryTerm) : LoadedTerm := ⟨Yaml.str t.term, Yaml.str t.definition⟩

/-- A term as an entry. -/
def document (t : GlossaryTerm) : Yaml :=
  .map [(.str "term", Yaml.str t.term), (.str "definition", Yaml.str t.definition)]

/-- The definition has no blank at either end. -/
def Loadable (t : GlossaryTerm) : Prop := pyStrip t.definition.toList = t.definition.toList

end GlossaryTerm

namespace Relationships

/-- The relationships as they are loaded. -/
def loaded (r : Relationships) : LoadedRelationships :=
  ⟨r.textJoins.map TextJoin.loaded, r.perspectives.map EntityPerspective.loaded,
    r.glossary.map GlossaryTerm.loaded⟩

/-- **The relationships as a document.** -/
def document (r : Relationships) : Yaml :=
  .map [(.str "joins", .list (r.textJoins.map TextJoin.document)),
    (.str "perspectives", .list (r.perspectives.map EntityPerspective.document)),
    (.str "glossary", .list (r.glossary.map GlossaryTerm.document))]

/-- **Every join and every term can be loaded.** Of the perspectives nothing is
asked. -/
structure Loadable (r : Relationships) : Prop where
  textJoins : ∀ j ∈ r.textJoins, j.Loadable
  glossary : ∀ t ∈ r.glossary, t.Loadable

end Relationships

/-! ### What is stripped -/

theorem toList_rawQuoted (name : String) :
    (rawQuoted name).toList = '"' :: (name.toList ++ ['"']) := by
  rw [rawQuoted, String.toList_append, String.toList_append]
  rfl

/-- The quotes around a name are what is stripped of it. -/
theorem stripPart_rawQuoted {name : String} (h : LoadableName name) :
    stripPart (rawQuoted name) = name := by
  obtain ⟨-, hhead, hlast⟩ := h
  have hblank : pyStrip ('"' :: (name.toList ++ ['"'])) = '"' :: (name.toList ++ ['"']) := by
    have hdrop : ('"' :: (name.toList ++ ['"'])).dropWhile isPySpace
        = '"' :: name.toList ++ ['"'] := rfl
    rw [pyStrip, hdrop, List.rdropWhile_concat_neg _ _ _ (by decide)]
    rfl
  have hquotes : stripQuotes ('"' :: (name.toList ++ ['"'])) = name.toList := by
    cases hname : name.toList using List.reverseRecOn with
    | nil => rfl
    | append_singleton cs c =>
      have hc : c ≠ '"' := fun h => hlast (by rw [hname, h, List.getLast?_concat])
      have hdrop : (cs ++ [c] ++ ['"']).dropWhile (· == '"') = cs ++ [c] ++ ['"'] := by
        cases hcs : cs ++ [c] with
        | nil => exact absurd hcs (by simp)
        | cons d ds =>
          have hd : d ≠ '"' := fun h => hhead (by rw [hname, hcs, h, List.head?_cons])
          exact List.dropWhile_cons_of_neg (by simp [hd])
      show ((cs ++ [c] ++ ['"']).dropWhile (· == '"')).rdropWhile (· == '"') = _
      rw [hdrop, List.rdropWhile_concat_pos _ _ _ rfl,
        List.rdropWhile_concat_neg _ _ _ (by simp [hc])]
  rw [stripPart, toList_rawQuoted, hblank, hquotes, String.ofList_toList]

/-- **A part of a split identifier can be loaded.** -/
theorem loadableName_of_mem_split {ident p : String} (h : p ∈ pySplit ident '.') :
    LoadableName (stripPart p) := by
  obtain ⟨cs, hcs, rfl⟩ := List.mem_map.mp h
  have hquotes : List.Sublist (stripQuotes (pyStrip cs)) (pyStrip cs) :=
    (List.rdropWhile_prefix _ _).sublist.trans (List.dropWhile_sublist _)
  have hsub := hquotes.trans (pyStrip_sublist cs)
  rw [LoadableName, stripPart, String.toList_ofList, String.toList_ofList]
  refine ⟨fun hdot => UrlPath.notMem_of_mem_splitOn hcs (hsub.subset hdot), fun hhead => ?_,
    fun hlast => ?_⟩
  · obtain ⟨t, ht⟩ := List.head?_eq_some_iff.mp hhead
    exact stripQuotes_ne_cons _ t ht
  · obtain ⟨t, ht⟩ := List.getLast?_eq_some_iff.mp hlast
    exact stripQuotes_ne_concat _ t ht

/-! ### A qualified name -/

section Ident

variable {py : ScalarMethods} {isPrintable : Char → Bool}

variable (py isPrintable) in
/-- **Three names in quotes are taken apart again**, where none of them has a
dot or a quote at an end. -/
theorem splitIdent_rawQualified {s t c : String} (hs : LoadableName s) (ht : LoadableName t)
    (hc : LoadableName c) :
    (Yaml.str (rawQualified s t c)).splitIdent py isPrintable = .ok (s, t, c) := by
  have hquote : ∀ n : String, '.' ∉ n.toList → '.' ∉ (rawQuoted n).toList := by
    intro n h
    rw [toList_rawQuoted, List.mem_cons, List.mem_append]
    exact fun hdot => hdot.elim (by decide) fun h' => h'.elim h (by decide)
  have hparts : pySplit (rawQualified s t c) '.' = [rawQuoted s, rawQuoted t, rawQuoted c] := by
    have htext : (rawQualified s t c).toList
        = (rawQuoted s).toList ++ '.' :: ((rawQuoted t).toList ++ '.' :: (rawQuoted c).toList) := by
      have hdot : ".".toList = ['.'] := rfl
      rw [rawQualified]
      simp only [String.toList_append, hdot, List.append_assoc, List.cons_append, List.nil_append]
    rw [pySplit, htext, List.splitOn_append_cons_self_of_not_mem (hquote s hs.1),
      List.splitOn_append_cons_self_of_not_mem (hquote t ht.1),
      List.splitOn_eq_singleton (hquote c hc.1)]
    simp only [List.map_cons, List.map_nil, String.ofList_toList]
  rw [Yaml.splitIdent, splitQualified, hparts]
  simp only [List.map_cons, List.map_nil, stripPart_rawQuoted hs, stripPart_rawQuoted ht,
    stripPart_rawQuoted hc]
  rfl

/-- **What an identifier is taken apart into can be loaded.** -/
theorem loadableName_of_splitIdent {x : Yaml} {s t c : String}
    (h : x.splitIdent py isPrintable = .ok (s, t, c)) :
    LoadableName s ∧ LoadableName t ∧ LoadableName c := by
  unfold Yaml.splitIdent at h
  split at h
  · next ident =>
    rw [splitQualified] at h
    split at h
    · next s' t' c' hparts =>
      obtain ⟨rfl, rfl, rfl⟩ : s' = s ∧ t' = t ∧ c' = c := by
        simpa only [Except.mapError, Except.ok.injEq, Prod.mk.injEq] using h
      have hpart : ∀ n ∈ [s', t', c'], LoadableName n := by
        intro n hn
        rw [← hparts] at hn
        obtain ⟨p, hp, rfl⟩ := List.mem_map.mp hn
        exact loadableName_of_mem_split hp
      exact ⟨hpart s' (by simp), hpart t' (by simp), hpart c' (by simp)⟩
    · cases h
  · cases h
  · cases h

end Ident

/-! ### A section -/

section Section

variable {ε α β : Type}

theorem bind_eq_ok_iff {x : Except ε α} {f : α → Except ε β} {b : β} :
    x >>= f = .ok b ↔ ∃ a, x = .ok a ∧ f a = .ok b := by
  cases x with
  | error e => exact iff_of_false (by simp [bind, Except.bind]) (fun ⟨_, h, _⟩ => by cases h)
  | ok a =>
    refine ⟨fun h => ⟨a, rfl, h⟩, fun ⟨a', ha, h⟩ => ?_⟩
    obtain rfl := Except.ok.inj ha
    exact h

/-- What is loaded of a list is loaded of its members. -/
theorem exists_of_mapM {load : α → Except ε β} {xs : List α} {ys : List β}
    (h : xs.mapM load = .ok ys) : ∀ y ∈ ys, ∃ x, load x = .ok y := by
  induction xs generalizing ys with
  | nil =>
    obtain rfl := Except.ok.inj h
    exact fun _ hy => absurd hy List.not_mem_nil
  | cons x xs ih =>
    rw [List.mapM_cons] at h
    obtain ⟨y', hx, h⟩ := bind_eq_ok_iff.mp h
    obtain ⟨ys', hxs, h⟩ := bind_eq_ok_iff.mp h
    obtain rfl := Except.ok.inj h
    intro y hy
    rcases List.mem_cons.mp hy with rfl | hy
    · exact ⟨x, hx⟩
    · exact ih hxs y hy

/-- **What loads as one thing each loads as a list.** -/
theorem mapM_map_of_forall {γ : Type} {load : α → Except ε β} {document : γ → α} {loaded : γ → β}
    {rs : List γ} (h : ∀ r ∈ rs, load (document r) = .ok (loaded r)) :
    (rs.map document).mapM load = .ok (rs.map loaded) := by
  induction rs with
  | nil => rfl
  | cons r rs ih =>
    rw [List.map_cons, List.mapM_cons, h r List.mem_cons_self,
      ih fun r' hr' => h r' (List.mem_cons_of_mem _ hr')]
    rfl

variable {py : ScalarMethods} {key : String} {load : Yaml → Except LoaderExc α}

/-- Every entry of a section is loaded from one of the document. -/
theorem exists_of_loadSection {raw : Yaml} {ys : List α}
    (h : loadSection py raw key load = .ok ys) : ∀ y ∈ ys, ∃ item, load item = .ok y := by
  obtain ⟨x, -, h⟩ := bind_eq_ok_iff.mp h
  obtain ⟨xs, -, h⟩ := bind_eq_ok_iff.mp h
  exact exists_of_mapM h

/-- **A section is loaded entry for entry**, in the order of the document. -/
theorem loadSection_of_forall {γ : Type} {d : Dict YamlKey Yaml} {document : γ → Yaml}
    {loaded : γ → α} {rs : List γ} (hget : d.get? (.str key) = some (.list (rs.map document)))
    (h : ∀ r ∈ rs, load (document r) = .ok (loaded r)) :
    loadSection py (.map d) key load = .ok (rs.map loaded) := by
  have hraw : Yaml.getD (.map d) key (.list []) = .ok (.list (rs.map document)) := by
    rw [Yaml.getD, hget, Option.getD_some]
  rw [loadSection, hraw]
  exact mapM_map_of_forall h

end Section

/-! ### The entries -/

section Entries

variable {py : ScalarMethods} {isPrintable : Char → Bool}

/-- A join whose names can be loaded is loaded. -/
theorem loadJoin_document {j : TextJoin} (h : j.Loadable) :
    loadJoin py isPrintable j.document = .ok j.loaded := by
  have hsource := splitIdent_rawQualified py isPrintable h.fromSchema h.fromTable h.fromColumn
  have htarget := splitIdent_rawQualified py isPrintable h.toSchema h.toTable h.toColumn
  refine bind_eq_ok_iff.mpr ⟨_, rfl, bind_eq_ok_iff.mpr ⟨_, hsource, ?_⟩⟩
  exact bind_eq_ok_iff.mpr ⟨_, rfl, bind_eq_ok_iff.mpr ⟨_, htarget, rfl⟩⟩

/-- **A join that is loaded has names that can be.** -/
theorem loadable_of_loadJoin {item : Yaml} {j : TextJoin}
    (h : loadJoin py isPrintable item = .ok j.loaded) : j.Loadable := by
  obtain ⟨x, -, h⟩ := bind_eq_ok_iff.mp h
  obtain ⟨source, hsource, h⟩ := bind_eq_ok_iff.mp h
  obtain ⟨y, -, h⟩ := bind_eq_ok_iff.mp h
  obtain ⟨target, htarget, h⟩ := bind_eq_ok_iff.mp h
  obtain ⟨semantics, -, h⟩ := bind_eq_ok_iff.mp h
  have hkey : j.toForeignKey = _ := (LoadedJoin.mk.inj (Except.ok.inj h)).1.symm
  obtain ⟨hs, ht, hc⟩ := loadableName_of_splitIdent hsource
  obtain ⟨hs', ht', hc'⟩ := loadableName_of_splitIdent htarget
  constructor
  all_goals rw [hkey]; assumption

theorem loadPerspective_document (p : EntityPerspective) :
    loadPerspective py p.document = .ok p.loaded := rfl

/-- A term whose definition has no blank at either end is loaded. -/
theorem loadTerm_document {t : GlossaryTerm} (h : t.Loadable) :
    loadTerm py t.document = .ok t.loaded := by
  have hstrip : (Yaml.str t.definition).strip py = .ok (Yaml.str t.definition) := by
    rw [Yaml.strip, show pyStrip t.definition.toList = t.definition.toList from h,
      String.ofList_toList]
  refine bind_eq_ok_iff.mpr ⟨_, rfl, bind_eq_ok_iff.mpr ⟨_, rfl, ?_⟩⟩
  exact bind_eq_ok_iff.mpr ⟨_, hstrip, rfl⟩

/-- **A term that is loaded has such a definition.** -/
theorem loadable_of_loadTerm {item : Yaml} {t : GlossaryTerm}
    (h : loadTerm py item = .ok t.loaded) : t.Loadable := by
  obtain ⟨term, -, h⟩ := bind_eq_ok_iff.mp h
  obtain ⟨x, -, h⟩ := bind_eq_ok_iff.mp h
  obtain ⟨definition, hstrip, h⟩ := bind_eq_ok_iff.mp h
  have hdefinition : definition = Yaml.str t.definition :=
    (LoadedTerm.mk.inj (Except.ok.inj h)).2
  rw [hdefinition] at hstrip
  unfold Yaml.strip at hstrip
  split at hstrip
  · next s =>
    have hs : t.definition = String.ofList (pyStrip s.toList) := by
      have hleaf := DocTree.leaf.inj (Except.ok.inj hstrip)
      exact (YamlScalar.str.inj hleaf).symm
    rw [GlossaryTerm.Loadable, hs, String.toList_ofList, pyStrip_idempotent]
  · next r b =>
    cases hr : py.strip r with
    | error e =>
      rw [hr] at hstrip
      cases hstrip
    | ok e =>
      rw [hr] at hstrip
      cases hstrip
  · cases hstrip

end Entries

/-! ### The file -/

/-- **The relationships a prompt can be given.** Relationships are what some
document loads to if and only if every join and every term of theirs can be
loaded, and then their own document loads to them. -/
theorem loadRelationshipsYaml_spans (py : ScalarMethods) (isPrintable : Char → Bool)
    (r : Relationships) :
    (loadRelationshipsYaml py isPrintable (some r.document) = .ok r.loaded ↔ r.Loadable)
      ∧ ((∃ doc, loadRelationshipsYaml py isPrintable doc = .ok r.loaded) ↔ r.Loadable) := by
  have hcomplete (h : r.Loadable) :
      loadRelationshipsYaml py isPrintable (some r.document) = .ok r.loaded := by
    refine bind_eq_ok_iff.mpr ⟨r.textJoins.map TextJoin.loaded, ?_, ?_⟩
    · exact loadSection_of_forall rfl fun j hj => loadJoin_document (h.textJoins j hj)
    refine bind_eq_ok_iff.mpr ⟨r.perspectives.map EntityPerspective.loaded, ?_, ?_⟩
    · exact loadSection_of_forall rfl fun p _ => loadPerspective_document p
    refine bind_eq_ok_iff.mpr ⟨r.glossary.map GlossaryTerm.loaded, ?_, rfl⟩
    exact loadSection_of_forall rfl fun t ht => loadTerm_document (h.glossary t ht)
  have hsound {doc : Option Yaml}
      (h : loadRelationshipsYaml py isPrintable doc = .ok r.loaded) : r.Loadable := by
    cases doc with
    | none =>
      obtain ⟨hjoins, -, hterms⟩ := LoadedRelationships.mk.inj (Except.ok.inj h)
      constructor
      · rw [List.map_eq_nil_iff.mp hjoins.symm]
        exact fun _ hj => absurd hj List.not_mem_nil
      · rw [List.map_eq_nil_iff.mp hterms.symm]
        exact fun _ ht => absurd ht List.not_mem_nil
    | some doc =>
      obtain ⟨joins, hjoins, h⟩ := bind_eq_ok_iff.mp h
      obtain ⟨perspectives, -, h⟩ := bind_eq_ok_iff.mp h
      obtain ⟨glossary, hglossary, h⟩ := bind_eq_ok_iff.mp h
      obtain ⟨rfl, -, rfl⟩ := LoadedRelationships.mk.inj (Except.ok.inj h)
      constructor
      · intro j hj
        obtain ⟨_, hitem⟩ := exists_of_loadSection hjoins _ (List.mem_map_of_mem hj)
        exact loadable_of_loadJoin hitem
      · intro t ht
        obtain ⟨_, hitem⟩ := exists_of_loadSection hglossary _ (List.mem_map_of_mem ht)
        exact loadable_of_loadTerm hitem
  exact ⟨⟨hsound, hcomplete⟩, ⟨fun ⟨_, h⟩ => hsound h, fun h => ⟨_, hcomplete h⟩⟩⟩

-- A double quote inside a name is kept, one at its end is lost.
example : LoadableName "a\"b" ∧ ¬ LoadableName "ab\"" := by decide

-- A section left out is empty, one left blank is an error.
example (py : ScalarMethods) :
    loadSection py (.map []) "glossary" (loadTerm py) = .ok []
      ∧ loadSection py (.map [(.str "glossary", Yaml.null)]) "glossary" (loadTerm py)
        = .error .typeError :=
  ⟨rfl, rfl⟩
