import PlatformSdk.SchemaContext

/-!
# Every column under its own table

Between the rows of the catalog and the entries of the prompt the columns are
grouped twice and sorted twice by name. `Arranges` says what has to come out,
in terms of the rows alone: a section for each schema, in it a part for each of
its tables, and in each part the rows of that table of that schema, in the
order of the catalog.

`rendersColumns_introspectSchema` says that the entries are those of such an
arrangement, whatever the rows are: tables of one name in several schemas stay
apart, since everything goes by the pair of both names. What an entry has to
say for this is spelled out in `ShowsSection`, down to the quotes.
-/

/-- A schema, with its tables and their rows. -/
abbrev SchemaSection := String × List (String × List ColumnRow)

/-- **The rows come in the order of their ordinals**, as far as they are of one
table. -/
def OrdinalOrder (rows : List ColumnRow) : Prop :=
  rows.Pairwise (fun r r' => r.key = r'.key → r.ordinal ≤ r'.ordinal)

instance (rows : List ColumnRow) : Decidable (OrdinalOrder rows) :=
  inferInstanceAs (Decidable (List.Pairwise _ _))

/-- **Sections that arrange the rows of a catalog.** -/
structure Arranges (rows : List ColumnRow) (sections : List SchemaSection) : Prop where
  schemas_nodup : (sections.map Prod.fst).Nodup
  mem_schemas : ∀ s, s ∈ sections.map Prod.fst ↔ ∃ r ∈ rows, r.schema = s
  tables_nodup : ∀ sec ∈ sections, (sec.2.map Prod.fst).Nodup
  mem_tables : ∀ sec ∈ sections, ∀ t, t ∈ sec.2.map Prod.fst ↔ ∃ r ∈ rows, r.key = (sec.1, t)
  columns : ∀ sec ∈ sections, ∀ tab ∈ sec.2, tab.2 = rows.filter (fun r => r.key = (sec.1, tab.1))

namespace Arranges

variable {rows : List ColumnRow} {sections : List SchemaSection}

/-- **No row is lost, and none is there twice.** -/
theorem perm (h : Arranges rows sections) :
    (sections.flatMap (fun sec => sec.2.flatMap Prod.snd)).Perm rows := by
  have hsection : ∀ sec ∈ sections, (sec.2.flatMap Prod.snd).Perm
      (rows.filter (fun r => r.schema = sec.1)) := by
    intro sec hsec
    have hrows : sec.2.flatMap Prod.snd = (sec.2.map Prod.fst).flatMap
        (fun t => (rows.filter (fun r => r.schema = sec.1)).filter (fun r => r.table = t)) := by
      rw [List.flatMap_map]
      refine List.flatMap_congr (fun tab htab => ?_)
      rw [h.columns sec hsec tab htab, List.filter_filter]
      refine List.filter_congr (fun r _ => ?_)
      simp [ColumnRow.key, Bool.and_comm]
    rw [hrows]
    refine flatMap_filter_perm ColumnRow.table (h.tables_nodup sec hsec) (fun r hr => ?_)
    obtain ⟨hmem, hschema⟩ := List.mem_filter.mp hr
    rw [h.mem_tables sec hsec]
    exact ⟨r, hmem, by rw [ColumnRow.key, of_decide_eq_true hschema]⟩
  have hall : sections.flatMap (fun sec => rows.filter (fun r => r.schema = sec.1))
      = (sections.map Prod.fst).flatMap (fun s => rows.filter (fun r => r.schema = s)) := by
    rw [List.flatMap_map]
  refine (List.Perm.flatMap_left sections hsection).trans ?_
  rw [hall]
  refine flatMap_filter_perm ColumnRow.schema h.schemas_nodup (fun r hr => ?_)
  exact (h.mem_schemas _).mpr ⟨r, hr, rfl⟩

/-- **Every row is under its own table**, and in the section of its own schema.
-/
theorem key_eq (h : Arranges rows sections) {sec : SchemaSection} (hsec : sec ∈ sections)
    {tab : String × List ColumnRow} (htab : tab ∈ sec.2) {r : ColumnRow} (hr : r ∈ tab.2) :
    r.key = (sec.1, tab.1) := by
  rw [h.columns sec hsec tab htab] at hr
  exact of_decide_eq_true (List.mem_filter.mp hr).2

/-- **The rows of a table are in the order of their ordinals**, where the
catalog has them so. -/
theorem ordinals (h : Arranges rows sections) (horder : OrdinalOrder rows) {sec : SchemaSection}
    (hsec : sec ∈ sections) {tab : String × List ColumnRow} (htab : tab ∈ sec.2) :
    tab.2.Pairwise (fun r r' => r.ordinal ≤ r'.ordinal) := by
  have hsame : tab.2.Pairwise (fun r r' => r.key = r'.key → r.ordinal ≤ r'.ordinal) := by
    rw [h.columns sec hsec tab htab]
    exact List.Pairwise.filter _ horder
  refine List.Pairwise.imp_of_mem (fun hr hr' himp => ?_) hsame
  exact himp ((h.key_eq hsec htab hr).trans (h.key_eq hsec htab hr').symm)

end Arranges

/-! ## What the entries show -/

/-- **The entries show a table of a schema**: a header with both names, what is
said of the table, which is no header and no column, then for each of its rows
an entry that begins with the name and the type of the column, and an empty
one. -/
def ShowsTable (schema : String) (tab : String × List ColumnRow) (lines : List String) : Prop :=
  ∃ (about : List String) (line : ColumnRow → String),
    lines = ("#### " ++ schema ++ ".\"" ++ tab.1 ++ "\"") :: about ++ tab.2.map line ++ [""]
      ∧ (∀ l ∈ about, "> ".toList <+: l.toList ∨ "PK: ".toList <+: l.toList)
      ∧ ∀ r ∈ tab.2,
        ("- `\"" ++ r.column ++ "\"` `" ++ r.dataType ++ "`").toList <+: (line r).toList

/-- **The entries show a section**: a header with the name of the schema, an empty
entry, and the tables one after the other. -/
def ShowsSection (sec : SchemaSection) (lines : List String) : Prop :=
  ∃ tableEntries : String × List ColumnRow → List String,
    lines = ["### Schema: `" ++ sec.1 ++ "`", ""] ++ sec.2.flatMap tableEntries
      ∧ ∀ tab ∈ sec.2, ShowsTable sec.1 tab (tableEntries tab)

/-- The entry of a column begins with its name and its type. -/
theorem prefix_columnLine (isPrintable : Char → Bool) (c : ColumnInfo) :
    ("- `\"" ++ c.name ++ "\"` `" ++ c.dataType ++ "`").toList
      <+: (columnLine isPrintable c).toList := by
  have happend : ∀ a b : String, a.toList <+: (a ++ b).toList :=
    fun a b => ⟨b.toList, String.toList_append.symm⟩
  have hhead : "- `\"" ++ c.name ++ "\"` `" ++ c.dataType ++ "`"
      = "- `" ++ String.intercalate "` `" ["\"" ++ c.name ++ "\"", c.dataType] ++ "`" := by
    rw [show "- `\"" = "- `" ++ "\"" from rfl, String.intercalate_cons_cons,
      String.intercalate_singleton]
    simp only [String.append_assoc]
    rfl
  rw [hhead, columnLine]
  exact (happend _ _).trans (happend _ _)

/-- What is said of a table is a quotation, or names its key. -/
theorem prefix_of_mem_tableAbout {t : TableInfo} {l : String} (h : l ∈ tableAbout t) :
    "> ".toList <+: l.toList ∨ "PK: ".toList <+: l.toList := by
  rcases List.mem_append.mp h with h | h
  · left
    split at h
    · cases h
    · rw [List.mem_singleton.mp h, String.toList_append]
      exact List.prefix_append _ _
  · right
    split at h
    · cases h
    · rw [List.mem_singleton.mp h, String.toList_append]
      exact List.prefix_append _ _

/-! ## The tables of the context -/

variable (sampling : Sampling) (catalog : Catalog) (rel : Relationships)

/-- The tables that `introspect_schema` finds. -/
def tablesOf : List TableInfo := (introspectSchema sampling catalog rel).tables

/-- The rows of one table, in the order of the catalog. -/
def rowsOf (schema table : String) : List ColumnRow :=
  catalog.columns.filter (fun r => r.key = (schema, table))

/-- The names of the tables are the keys of the groups. -/
theorem map_key_tablesOf :
    (tablesOf sampling catalog rel).map (fun t => (t.schema, t.name))
      = (byTable catalog.columns).keys := by
  show ((byTable catalog.columns).map _).map _ = _
  rw [List.map_map]
  rfl

/-- **There is a table where there are rows of it.** -/
theorem exists_mem_tablesOf_iff {schema table : String} :
    (∃ t ∈ tablesOf sampling catalog rel, t.schema = schema ∧ t.name = table)
      ↔ ∃ r ∈ catalog.columns, r.key = (schema, table) := by
  rw [← Dict.mem_keys_groupOn ColumnRow.key id, ← byTable,
    ← map_key_tablesOf sampling catalog rel, List.mem_map]
  simp only [Prod.mk.injEq]

variable {sampling catalog rel}

/-- **A table has the rows of its own two names.** -/
theorem eq_of_mem_tablesOf {t : TableInfo} (h : t ∈ tablesOf sampling catalog rel) :
    t = tableInfo sampling catalog (t.schema, t.name) (rowsOf catalog t.schema t.name) := by
  obtain ⟨e, he, rfl⟩ := List.mem_map.mp h
  have hrows := Dict.eq_of_mem_groupOn ColumnRow.key id he
  rw [List.map_id] at hrows
  show tableInfo sampling catalog e.1 e.2
    = tableInfo sampling catalog e.1 (catalog.columns.filter (fun r => r.key = e.1))
  rw [← hrows]

/-! ## The sections -/

/-- The tables of a schema, before they are sorted. -/
theorem getD_bySchema (tables : List TableInfo) (schema : String) :
    ((bySchema tables).get? schema).getD [] = tables.filter (fun t => t.schema = schema) := by
  rw [bySchema, Dict.get?_groupOn]
  by_cases h : schema ∈ tables.map TableInfo.schema
  · rw [if_pos h, Option.getD_some, List.map_id]
  · rw [if_neg h, Option.getD_none, eq_comm, List.filter_eq_nil_iff]
    intro t ht hschema
    exact h (of_decide_eq_true hschema ▸ List.mem_map_of_mem ht)

theorem mem_sortedTables {tables : List TableInfo} {schema : String} {t : TableInfo} :
    t ∈ sortedTables tables schema ↔ t ∈ tables ∧ t.schema = schema := by
  rw [sortedTables, List.mem_insertionSort, getD_bySchema, List.mem_filter, decide_eq_true_eq]

theorem mem_sortedSchemas {tables : List TableInfo} {schema : String} :
    schema ∈ sortedSchemas tables ↔ ∃ t ∈ tables, t.schema = schema := by
  rw [sortedSchemas, List.mem_insertionSort, bySchema, Dict.mem_keys_groupOn]

theorem nodup_sortedSchemas (tables : List TableInfo) : (sortedSchemas tables).Nodup :=
  (List.perm_insertionSort _ _).nodup_iff.mpr (Dict.nodup_keys_groupOn _ _ _)

/-- **No two tables of a schema have one name.** -/
theorem nodup_names_sortedTables (schema : String) :
    ((sortedTables (tablesOf sampling catalog rel) schema).map TableInfo.name).Nodup := by
  have hperm : (sortedTables (tablesOf sampling catalog rel) schema).Perm
      ((tablesOf sampling catalog rel).filter (fun t => t.schema = schema)) := by
    rw [← getD_bySchema]
    exact List.perm_insertionSort _ _
  have hkeys : ((tablesOf sampling catalog rel).map (fun t => (t.schema, t.name))).Nodup := by
    rw [map_key_tablesOf]
    exact Dict.nodup_keys_groupOn _ _ _
  rw [(hperm.map _).nodup_iff]
  have hpair := (List.pairwise_map.mp hkeys).filter (fun t => decide (t.schema = schema))
  refine List.pairwise_map.mpr (List.Pairwise.imp_of_mem (fun ha hb hne heq => hne ?_) hpair)
  rw [of_decide_eq_true (List.mem_filter.mp ha).2, of_decide_eq_true (List.mem_filter.mp hb).2, heq]

variable (sampling catalog rel)

/-- **The sections of the prompt**: for each schema its tables, and for each of
these its rows. -/
def promptSections : List SchemaSection :=
  (sortedSchemas (tablesOf sampling catalog rel)).map fun s =>
    (s, (sortedTables (tablesOf sampling catalog rel) s).map
      fun t => (t.name, rowsOf catalog s t.name))

/-- The entries of a section: the header of the schema, and for each table its
header, what is said of it, **an entry for each of its rows**, and an empty
one. -/
def sectionLines (isPrintable : Char → Bool) (sec : SchemaSection) : List String :=
  schemaHeader sec.1 ++ sec.2.flatMap fun tab =>
    [tableHeader sec.1 tab.1] ++ tableAbout (tableInfo sampling catalog (sec.1, tab.1) tab.2)
      ++ tab.2.map (fun r => columnLine isPrintable (columnInfo sampling sec.1 tab.1 r)) ++ [""]

/-- **They arrange the rows of the catalog**: a group holds exactly the rows of
its table, and a section the tables of its schema. -/
theorem arranges_promptSections :
    Arranges catalog.columns (promptSections sampling catalog rel) := by
  have hschemas : (promptSections sampling catalog rel).map Prod.fst
      = sortedSchemas (tablesOf sampling catalog rel) := by
    rw [promptSections, List.map_map]
    exact List.map_id _
  have hnames : ∀ sec ∈ promptSections sampling catalog rel, sec.2.map Prod.fst
      = (sortedTables (tablesOf sampling catalog rel) sec.1).map TableInfo.name := by
    intro sec hsec
    obtain ⟨s, -, rfl⟩ := List.mem_map.mp hsec
    rw [List.map_map]
    rfl
  refine ⟨?_, fun s => ?_, fun sec hsec => ?_, fun sec hsec t => ?_, fun sec hsec tab htab => ?_⟩
  · rw [hschemas]
    exact nodup_sortedSchemas _
  · rw [hschemas, mem_sortedSchemas]
    constructor
    · rintro ⟨t, ht, rfl⟩
      obtain ⟨r, hr, hkey⟩ := (exists_mem_tablesOf_iff _ _ _).mp ⟨t, ht, rfl, rfl⟩
      exact ⟨r, hr, (Prod.mk.inj hkey).1⟩
    · rintro ⟨r, hr, rfl⟩
      obtain ⟨t, ht, hschema, -⟩ := (exists_mem_tablesOf_iff _ _ _).mpr ⟨r, hr, rfl⟩
      exact ⟨t, ht, hschema⟩
  · rw [hnames sec hsec]
    exact nodup_names_sortedTables sec.1
  · rw [hnames sec hsec, List.mem_map, ← exists_mem_tablesOf_iff sampling catalog rel]
    simp only [mem_sortedTables, and_assoc]
  · obtain ⟨s, -, rfl⟩ := List.mem_map.mp hsec
    obtain ⟨t, -, rfl⟩ := List.mem_map.mp htab
    rfl

/-- **The entries of a section show it**: the header names the schema, and each
entry below begins with what it is about. -/
theorem showsSection_sectionLines (isPrintable : Char → Bool) (sec : SchemaSection) :
    ShowsSection sec (sectionLines sampling catalog isPrintable sec) := by
  refine ⟨_, rfl, fun tab _ => ⟨_, _, rfl, fun l hl => prefix_of_mem_tableAbout hl, fun r _ => ?_⟩⟩
  exact prefix_columnLine isPrintable (columnInfo sampling sec.1 tab.1 r)

/-- **What it means that the prompt has each column under its own table**: its
entries, between the front and the back, are those of sections that arrange the
rows of the catalog, and each of them shows its schema, its tables and their
columns. So none is lost or there twice, and under each header they are in
ordinal order. -/
structure RendersColumns (isPrintable : Char → Bool) (sections : List SchemaSection) : Prop where
  arranges : Arranges catalog.columns sections
  perm : (sections.flatMap (fun sec => sec.2.flatMap Prod.snd)).Perm catalog.columns
  ordinals : ∀ sec ∈ sections, ∀ tab ∈ sec.2,
    tab.2.Pairwise (fun r r' => r.ordinal ≤ r'.ordinal)
  entries : promptLines isPrintable (introspectSchema sampling catalog rel)
    = frontLines (introspectSchema sampling catalog rel)
      ++ sections.flatMap (sectionLines sampling catalog isPrintable)
      ++ backLines (introspectSchema sampling catalog rel)
  shows : ∀ sec ∈ sections, ShowsSection sec (sectionLines sampling catalog isPrintable sec)

/-- **Every column is under its own table**, whatever the catalog returns and
whatever is sampled, commented and declared. The rows are grouped by schema and
table together and then by schema, and sorted by names that are distinct by
then, so two tables of one name never share a group. -/
theorem rendersColumns_introspectSchema (isPrintable : Char → Bool)
    (horder : OrdinalOrder catalog.columns) :
    ∃ sections, RendersColumns sampling catalog rel isPrintable sections := by
  have harr := arranges_promptSections sampling catalog rel
  refine ⟨_, harr, harr.perm, fun sec hsec tab htab => harr.ordinals horder hsec htab, ?_,
    fun sec _ => showsSection_sectionLines sampling catalog isPrintable sec⟩
  rw [promptLines, promptSections, List.flatMap_map]
  refine congrArg (fun ls => _ ++ ls ++ _) (List.flatMap_congr (fun s _ => ?_))
  show schemaHeader s ++ (sortedTables (tablesOf sampling catalog rel) s).flatMap _
    = schemaHeader s ++ (List.map _ (sortedTables (tablesOf sampling catalog rel) s)).flatMap _
  rw [List.flatMap_map]
  refine congrArg (schemaHeader s ++ ·) (List.flatMap_congr (fun t ht => ?_))
  obtain ⟨hmem, rfl⟩ := mem_sortedTables.mp ht
  have ht' := eq_of_mem_tablesOf hmem
  have hcolumns : t.columns = (rowsOf catalog t.schema t.name).map
      (columnInfo sampling t.schema t.name) := congrArg TableInfo.columns ht'
  rw [tableLines, hcolumns, List.map_map, ← ht']
  rfl

/-- Two schemas with a table of one name, and another table between them. -/
def twoSchemas : Catalog where
  tables := [⟨"bank", "party", some "Counterparties"⟩, ⟨"crm", "lead", none⟩,
    ⟨"crm", "party", none⟩]
  columns := [⟨"bank", "party", "Id", "bigint", false, none, 1⟩,
    ⟨"bank", "party", "Kind", "text", true, some "Kind of party", 2⟩,
    ⟨"crm", "lead", "Id", "bigint", false, none, 1⟩,
    ⟨"crm", "party", "Id", "text", false, none, 1⟩]
  primaryKeys := [⟨"bank", "party", "Id"⟩]
  foreignKeys := []

/-- What is sampled of a column whose values are few. -/
def twoKinds : Sampling where
  lower := id
  fetch := fun _ => some ["bank", "corporate"]
  sampleEnums := true

theorem rendersColumns_twoSchemas :
    ∃ sections, RendersColumns twoKinds twoSchemas {} (fun _ => true) sections :=
  rendersColumns_introspectSchema twoKinds twoSchemas {} (fun _ => true) (by decide)
