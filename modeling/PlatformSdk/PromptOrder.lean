import Mathlib.Data.List.Dedup
import PlatformSdk.SchemaPrompt

/-!
# One prompt for one database

The catalog queries are ordered by the names of schemas and tables, and the
database orders names by its own collation, which need not be the order of
Python's strings. `formatForPrompt_introspectSchema` says that it does not
matter: two catalogs with the same rows for each table, in whatever order the
tables come and however their rows are mixed, make one prompt.

Nor does it matter which schemas are introspected together. Each query selects
the rows of the schemas asked for – `Catalog.ofSchemas` –, and the entries of
several schemas are those of each alone, in the order of their names
(`promptLines_ofSchemas`): a schema asked for twice is there once, and one
without tables leaves no trace.

Both rest on the tables being told apart by their two names, so that a sorted
list of them is determined by its elements (`insertionSort_eq_of_perm`).
-/

/-- **A sorted list is determined by its elements**, where no two of them are
level. -/
theorem insertionSort_eq_of_perm {α : Type*} {r : α → α → Prop} [DecidableRel r] [Std.Total r]
    [IsTrans α r] {xs ys : List α}
    (hanti : ∀ a b, a ∈ xs → b ∈ ys → r a b → r b a → a = b) (h : xs.Perm ys) :
    xs.insertionSort r = ys.insertionSort r := by
  refine List.Perm.eq_of_pairwise (fun a b ha hb => ?_) (List.pairwise_insertionSort r xs)
    (List.pairwise_insertionSort r ys)
    ((List.perm_insertionSort r xs).trans (h.trans (List.perm_insertionSort r ys).symm))
  exact hanti a b ((List.mem_insertionSort r).mp ha) ((List.mem_insertionSort r).mp hb)

instance : Std.Total (fun a b : TableInfo => a.name ≤ b.name) :=
  ⟨fun a b => String.le_total a.name b.name⟩

instance : IsTrans TableInfo (fun a b => a.name ≤ b.name) := ⟨fun _ _ _ => String.le_trans⟩

/-! ## The entries of the tables -/

/-- Both names of a table, by which the tables are told apart. -/
def TableInfo.key (t : TableInfo) : String × String := (t.schema, t.name)

/-- The entries of one schema, with its header. -/
def schemaEntries (isPrintable : Char → Bool) (tables : List TableInfo) (schema : String) :
    List String :=
  schemaHeader schema ++ (sortedTables tables schema).flatMap (tableLines isPrintable)

/-- **The entries of the tables**, between those before and those after the
schemas. -/
def tableEntries (isPrintable : Char → Bool) (tables : List TableInfo) : List String :=
  (sortedSchemas tables).flatMap (schemaEntries isPrintable tables)

theorem promptLines_eq (isPrintable : Char → Bool) (ctx : SchemaContext) :
    promptLines isPrintable ctx
      = frontLines ctx ++ tableEntries isPrintable ctx.tables ++ backLines ctx := rfl

section Tables

variable {tables tables' : List TableInfo}

/-- Two tables of one schema have two names. -/
theorem eq_of_name_eq (hkeys : (tables.map TableInfo.key).Nodup) {t t' : TableInfo}
    (ht : t ∈ tables) (ht' : t' ∈ tables) (hschema : t.schema = t'.schema)
    (hname : t.name = t'.name) : t = t' :=
  List.inj_on_of_nodup_map hkeys ht ht' (Prod.ext hschema hname)

/-- **The schemas in order are told by which there are.** -/
theorem sortedSchemas_congr (h : ∀ s, (∃ t ∈ tables, t.schema = s) ↔ ∃ t ∈ tables', t.schema = s) :
    sortedSchemas tables = sortedSchemas tables' := by
  refine insertionSort_eq_of_perm (fun a b _ _ => String.le_antisymm) ?_
  refine (List.perm_ext_iff_of_nodup (Dict.nodup_keys_groupOn _ _ _)
    (Dict.nodup_keys_groupOn _ _ _)).mpr (fun s => ?_)
  rw [Dict.mem_keys_groupOn, Dict.mem_keys_groupOn, h]

/-- **The tables of a schema in order are told by which there are.** -/
theorem sortedTables_congr {schema : String} (hkeys : (tables.map TableInfo.key).Nodup)
    (h : (tables.filter (fun t => t.schema = schema)).Perm
      (tables'.filter (fun t => t.schema = schema))) :
    sortedTables tables schema = sortedTables tables' schema := by
  rw [sortedTables, sortedTables, getD_bySchema, getD_bySchema]
  refine insertionSort_eq_of_perm (fun a b ha hb hab hba => ?_) h
  obtain ⟨ha, hsa⟩ := List.mem_filter.mp ha
  obtain ⟨hb, hsb⟩ := List.mem_filter.mp (h.mem_iff.mpr hb)
  exact eq_of_name_eq hkeys ha hb ((of_decide_eq_true hsa).trans (of_decide_eq_true hsb).symm)
    (String.le_antisymm hab hba)

/-- **The entries do not depend on the order of the tables.** -/
theorem tableEntries_perm (isPrintable : Char → Bool) (hkeys : (tables.map TableInfo.key).Nodup)
    (h : tables.Perm tables') :
    tableEntries isPrintable tables = tableEntries isPrintable tables' := by
  have hschemas : sortedSchemas tables = sortedSchemas tables' :=
    sortedSchemas_congr (fun s => by simp only [h.mem_iff])
  rw [tableEntries, tableEntries, hschemas]
  refine List.flatMap_congr (fun s _ => ?_)
  rw [schemaEntries, schemaEntries, sortedTables_congr hkeys (h.filter _)]

end Tables

/-! ## What is said of a table -/

/-- The comment of a table is that of its last row. -/
theorem get?_fetchTables (rows : List TableRow) (key : String × String) :
    (fetchTables rows).get? key
      = ((rows.filter (fun r => (r.schema, r.table) = key)).getLast?).map TableRow.comment := by
  induction rows using List.reverseRecOn with
  | nil => rfl
  | append_singleton rows r ih =>
    have hfold : fetchTables (rows ++ [r])
        = (fetchTables rows).set (r.schema, r.table) r.comment := List.foldl_concat _ _ _ _
    rw [hfold, List.filter_append]
    by_cases hr : (r.schema, r.table) = key
    · rw [List.filter_cons_of_pos (by simp [hr]), List.filter_nil, List.getLast?_concat, ← hr,
        Dict.get?_set_self, Option.map_some]
    · rw [List.filter_cons_of_neg (by simpa using hr), List.filter_nil, List.append_nil,
        Dict.get?_set_of_ne _ _ (Ne.symm hr), ih]

/-- Its primary key is what its own rows say. -/
theorem getD_fetchPrimaryKeys (rows : List KeyRow) (key : String × String) :
    ((fetchPrimaryKeys rows).get? key).getD []
      = (rows.filter (fun r => (r.schema, r.table) = key)).map KeyRow.column := by
  rw [fetchPrimaryKeys, Dict.get?_groupOn]
  by_cases h : key ∈ rows.map (fun r => (r.schema, r.table))
  · rw [if_pos h, Option.getD_some]
  · rw [if_neg h, Option.getD_none, eq_comm, List.map_eq_nil_iff, List.filter_eq_nil_iff]
    intro r hr hkey
    exact h (List.mem_map.mpr ⟨r, hr, of_decide_eq_true hkey⟩)

namespace Catalog

/-- **The rows that satisfy a condition on the two names of their table.** -/
def select (catalog : Catalog) (p : String × String → Bool) : Catalog where
  tables := catalog.tables.filter (fun r => p (r.schema, r.table))
  columns := catalog.columns.filter (fun r => p r.key)
  primaryKeys := catalog.primaryKeys.filter (fun r => p (r.schema, r.table))
  foreignKeys := catalog.foreignKeys.filter (fun fk => p (fk.fromSchema, fk.fromTable))

/-- **The catalogs agree on a table**: they have the same rows for it, in the
same order. -/
structure AgreeOn (catalog catalog' : Catalog) (key : String × String) : Prop where
  tables : catalog.tables.filter (fun r => (r.schema, r.table) = key)
    = catalog'.tables.filter (fun r => (r.schema, r.table) = key)
  columns : catalog.columns.filter (fun r => r.key = key)
    = catalog'.columns.filter (fun r => r.key = key)
  primaryKeys : catalog.primaryKeys.filter (fun r => (r.schema, r.table) = key)
    = catalog'.primaryKeys.filter (fun r => (r.schema, r.table) = key)

/-- **The same tables**, in whatever order: the catalogs agree on every one, and
have the same foreign keys. -/
structure SameTables (catalog catalog' : Catalog) : Prop where
  agree : ∀ key, catalog.AgreeOn catalog' key
  foreignKeys : catalog.foreignKeys = catalog'.foreignKeys

end Catalog

/-! ## The tables -/

section Introspect

variable (sampling : Sampling) (rel : Relationships) {catalog catalog' : Catalog}

theorem nodup_key_tablesOf (catalog : Catalog) :
    ((tablesOf sampling catalog rel).map TableInfo.key).Nodup := by
  have hkeys := map_key_tablesOf sampling catalog rel
  have hnodup : (byTable catalog.columns).keys.Nodup := Dict.nodup_keys_groupOn _ _ _
  exact hkeys.symm ▸ hnodup

/-- **Which tables there are**: those with rows, with what their rows say. -/
theorem mem_tablesOf_iff {catalog : Catalog} {t : TableInfo} :
    t ∈ tablesOf sampling catalog rel
      ↔ (∃ r ∈ catalog.columns, r.key = t.key)
        ∧ t = tableInfo sampling catalog t.key (rowsOf catalog t.schema t.name) := by
  constructor
  · intro ht
    exact ⟨(exists_mem_tablesOf_iff sampling catalog rel).mp ⟨t, ht, rfl, rfl⟩,
      eq_of_mem_tablesOf ht⟩
  · rintro ⟨hrows, heq⟩
    obtain ⟨t', ht', hschema, hname⟩ := (exists_mem_tablesOf_iff sampling catalog rel).mpr hrows
    have heq' := eq_of_mem_tablesOf ht'
    rw [hschema, hname] at heq'
    exact heq.trans heq'.symm ▸ ht'

/-- **What is said of a table rests on its own rows.** -/
theorem tableInfo_congr {key : String × String} (h : catalog.AgreeOn catalog' key)
    (rows : List ColumnRow) :
    tableInfo sampling catalog key rows = tableInfo sampling catalog' key rows := by
  rw [tableInfo, tableInfo, get?_fetchTables, get?_fetchTables, getD_fetchPrimaryKeys,
    getD_fetchPrimaryKeys, h.tables, h.primaryKeys]

/-- **A table is found in both catalogs where they agree on it**, or in
neither. -/
theorem mem_tablesOf_congr {t : TableInfo} (h : catalog.AgreeOn catalog' t.key) :
    t ∈ tablesOf sampling catalog rel ↔ t ∈ tablesOf sampling catalog' rel := by
  have hrows : ∀ c : Catalog, (∃ r ∈ c.columns, r.key = t.key)
      ↔ c.columns.filter (fun r => r.key = t.key) ≠ [] := by
    intro c
    simp [List.filter_eq_nil_iff]
  have hcolumns : rowsOf catalog t.schema t.name = rowsOf catalog' t.schema t.name := h.columns
  rw [mem_tablesOf_iff, mem_tablesOf_iff, hrows, hrows, h.columns, hcolumns,
    tableInfo_congr sampling h]

end Introspect

/-! ## One prompt -/

variable (sampling : Sampling) (rel : Relationships) (isPrintable : Char → Bool)

/-- **Two catalogs with the same tables make one prompt**, whatever the order
their rows come in: the rows are grouped by table and the tables sorted by name,
so only the order within a table is left. The foreign keys are shown in the
order they come in. -/
theorem formatForPrompt_introspectSchema {catalog catalog' : Catalog}
    (h : catalog.SameTables catalog') :
    formatForPrompt isPrintable (introspectSchema sampling catalog rel)
      = formatForPrompt isPrintable (introspectSchema sampling catalog' rel) := by
  have htables : (tablesOf sampling catalog rel).Perm (tablesOf sampling catalog' rel) :=
    (List.perm_ext_iff_of_nodup (nodup_key_tablesOf sampling rel catalog).of_map
      (nodup_key_tablesOf sampling rel catalog').of_map).mpr
      (fun t => mem_tablesOf_congr sampling rel (h.agree t.key))
  have hentries := tableEntries_perm isPrintable (nodup_key_tablesOf sampling rel catalog) htables
  have hfront : frontLines (introspectSchema sampling catalog rel)
      = frontLines (introspectSchema sampling catalog' rel) := rfl
  have hforeignKeys : (introspectSchema sampling catalog rel).foreignKeys
      = (introspectSchema sampling catalog' rel).foreignKeys := h.foreignKeys
  have hback : backLines (introspectSchema sampling catalog rel)
      = backLines (introspectSchema sampling catalog' rel) := by
    rw [backLines, backLines, hforeignKeys]
    rfl
  have hlines : promptLines isPrintable (introspectSchema sampling catalog rel)
      = promptLines isPrintable (introspectSchema sampling catalog' rel) := by
    rw [promptLines_eq, promptLines_eq, hfront, hback]
    exact congrArg (fun ls => _ ++ ls ++ _) hentries
  rw [formatForPrompt, formatForPrompt, hlines]

/-- The tables of `twoSchemas` in another order, and the rows of two of them
mixed. -/
def twoSchemasMixed : Catalog where
  tables := [⟨"crm", "party", none⟩, ⟨"bank", "party", some "Counterparties"⟩,
    ⟨"crm", "lead", none⟩]
  columns := [⟨"crm", "party", "Id", "text", false, none, 1⟩,
    ⟨"bank", "party", "Id", "bigint", false, none, 1⟩,
    ⟨"crm", "lead", "Id", "bigint", false, none, 1⟩,
    ⟨"bank", "party", "Kind", "text", true, some "Kind of party", 2⟩]
  primaryKeys := [⟨"bank", "party", "Id"⟩]
  foreignKeys := []

/-- The catalogs agree where they have rows, and have none elsewhere. -/
theorem sameTables_twoSchemasMixed : twoSchemas.SameTables twoSchemasMixed where
  agree := by
    intro key
    by_cases h : key ∈ [("bank", "party"), ("crm", "lead"), ("crm", "party")]
    · simp only [List.mem_cons, List.not_mem_nil, or_false] at h
      rcases h with rfl | rfl | rfl <;> exact ⟨by decide, by decide, by decide⟩
    · simp only [List.mem_cons, List.not_mem_nil, or_false, not_or] at h
      obtain ⟨h₁, h₂, h₃⟩ := h
      constructor <;>
        simp [twoSchemas, twoSchemasMixed, ColumnRow.key, Ne.symm h₁, Ne.symm h₂, Ne.symm h₃]
  foreignKeys := rfl

theorem formatForPrompt_introspectSchema_mixed :
    formatForPrompt (fun _ => true) (introspectSchema twoKinds twoSchemas {})
      = formatForPrompt (fun _ => true) (introspectSchema twoKinds twoSchemasMixed {}) :=
  formatForPrompt_introspectSchema twoKinds {} (fun _ => true) sameTables_twoSchemasMixed

/-! ## Several schemas -/

theorem flatMap_filter_eq {α β : Type*} (p : α → Bool) (f : α → List β) (xs : List α) :
    (xs.filter p).flatMap f = xs.flatMap (fun x => if p x then f x else []) := by
  induction xs with
  | nil => rfl
  | cons x xs ih =>
    rw [List.filter_cons, List.flatMap_cons, ← ih]
    by_cases hx : p x = true
    · rw [if_pos hx, if_pos hx, List.flatMap_cons]
    · rw [if_neg hx, if_neg hx, List.nil_append]

section Schemas

variable {tables : List TableInfo}

/-- The schemas in order, among those that are asked for. -/
theorem sortedSchemas_filter (tables : List TableInfo) (schemas : List String) :
    sortedSchemas (tables.filter (fun t => schemas.contains t.schema))
      = (schemas.dedup.insertionSort (fun a b => a ≤ b)).filter
        (fun s => tables.any (fun t => t.schema = s)) := by
  have hnodup : (schemas.dedup.insertionSort (fun a b => a ≤ b)).Nodup :=
    (List.perm_insertionSort _ _).nodup_iff.mpr schemas.nodup_dedup
  refine List.Perm.eq_of_pairwise (fun _ _ _ _ => String.le_antisymm)
    (List.pairwise_insertionSort _ _) ((List.pairwise_insertionSort _ _).filter _)
    ((List.perm_ext_iff_of_nodup (nodup_sortedSchemas _) (hnodup.filter _)).mpr (fun s => ?_))
  rw [mem_sortedSchemas, List.mem_filter, List.mem_insertionSort, List.mem_dedup, List.any_eq_true]
  constructor
  · rintro ⟨t, ht, rfl⟩
    obtain ⟨ht, hs⟩ := List.mem_filter.mp ht
    exact ⟨List.contains_iff_mem.mp hs, t, ht, decide_eq_true rfl⟩
  · rintro ⟨hs, t, ht, hschema⟩
    obtain rfl := of_decide_eq_true hschema
    exact ⟨t, List.mem_filter.mpr ⟨ht, List.contains_iff_mem.mpr hs⟩, rfl⟩

/-- The tables of a schema in order, among those of schemas that include it. -/
theorem sortedTables_filter (hkeys : (tables.map TableInfo.key).Nodup) {p : String → Bool}
    {schema : String} (hp : p schema = true) :
    sortedTables (tables.filter (fun t => p t.schema)) schema = sortedTables tables schema := by
  refine sortedTables_congr (hkeys.sublist (List.filter_sublist.map _)) (List.Perm.of_eq ?_)
  rw [List.filter_filter]
  refine List.filter_congr (fun t _ => ?_)
  by_cases h : t.schema = schema
  · simp [h, hp]
  · simp [h]

/-- The entries of the schemas asked for: a schema without tables has none. -/
theorem tableEntries_filter (isPrintable : Char → Bool) (hkeys : (tables.map TableInfo.key).Nodup)
    (schemas : List String) :
    tableEntries isPrintable (tables.filter (fun t => schemas.contains t.schema))
      = (schemas.dedup.insertionSort (fun a b => a ≤ b)).flatMap
        (fun s => if tables.any (fun t => t.schema = s) then schemaEntries isPrintable tables s
          else []) := by
  rw [tableEntries, sortedSchemas_filter, ← flatMap_filter_eq]
  refine List.flatMap_congr (fun s hs => ?_)
  have hmem := (List.mem_filter.mp hs).1
  rw [List.mem_insertionSort, List.mem_dedup] at hmem
  rw [schemaEntries, schemaEntries,
    sortedTables_filter hkeys (p := schemas.contains) (List.contains_iff_mem.mpr hmem)]

end Schemas

/-- **What the queries select of a database**: `n.nspname = ANY($1)`. -/
def Catalog.ofSchemas (db : Catalog) (schemas : List String) : Catalog :=
  db.select (fun key => schemas.contains key.1)

/-- A selection agrees with the database on what it selects. -/
theorem Catalog.agreeOn_select (db : Catalog) {p : String × String → Bool}
    {key : String × String} (hp : p key = true) : (db.select p).AgreeOn db key := by
  have hsame : ∀ {α : Type} (f : α → String × String) (rows : List α),
      (rows.filter (fun r => p (f r))).filter (fun r => f r = key)
        = rows.filter (fun r => f r = key) := by
    intro α f rows
    rw [List.filter_filter]
    refine List.filter_congr (fun r _ => ?_)
    by_cases h : f r = key
    · simp [h, hp]
    · simp [h]
  exact ⟨hsame _ db.tables, hsame _ db.columns, hsame _ db.primaryKeys⟩

/-- The tables selected are those of the schemas asked for. -/
theorem tablesOf_ofSchemas (db : Catalog) (schemas : List String) :
    (tablesOf sampling (db.ofSchemas schemas) rel).Perm
      ((tablesOf sampling db rel).filter (fun t => schemas.contains t.schema)) := by
  refine (List.perm_ext_iff_of_nodup (nodup_key_tablesOf sampling rel _).of_map
    ((nodup_key_tablesOf sampling rel db).of_map.filter _)).mpr (fun t => ?_)
  rw [List.mem_filter]
  by_cases hs : schemas.contains t.schema = true
  · have hagree : (db.ofSchemas schemas).AgreeOn db t.key := db.agreeOn_select hs
    rw [mem_tablesOf_congr sampling rel hagree, and_iff_left hs]
  · refine iff_of_false (fun ht => hs ?_) (fun h => hs h.2)
    obtain ⟨⟨r, hr, hkey⟩, -⟩ := (mem_tablesOf_iff sampling rel).mp ht
    have hselected : schemas.contains r.key.1 = true := (List.mem_filter.mp hr).2
    rwa [hkey] at hselected

/-- The entries of several schemas are those that each has by itself. -/
theorem tableEntries_ofSchemas (db : Catalog) (schemas : List String) :
    tableEntries isPrintable (tablesOf sampling (db.ofSchemas schemas) rel)
      = (schemas.dedup.insertionSort (fun a b => a ≤ b)).flatMap
        (fun s => tableEntries isPrintable (tablesOf sampling (db.ofSchemas [s]) rel)) := by
  have hkeys := nodup_key_tablesOf sampling rel db
  have hentries : ∀ ss : List String,
      tableEntries isPrintable (tablesOf sampling (db.ofSchemas ss) rel)
        = (ss.dedup.insertionSort (fun a b => a ≤ b)).flatMap
          (fun s => if (tablesOf sampling db rel).any (fun t => t.schema = s) then
            schemaEntries isPrintable (tablesOf sampling db rel) s else []) := by
    intro ss
    rw [tableEntries_perm isPrintable (nodup_key_tablesOf sampling rel _)
      (tablesOf_ofSchemas sampling rel db ss), tableEntries_filter isPrintable hkeys]
  rw [hentries]
  refine List.flatMap_congr (fun s _ => ?_)
  rw [hentries]
  exact (List.append_nil _).symm

/-- **Several schemas are introspected as each alone**: between the entries
before and those after the schemas are the ones that each schema has by itself,
once for each and in the order of their names. -/
theorem promptLines_ofSchemas (db : Catalog) (schemas : List String) :
    promptLines isPrintable (introspectSchema sampling (db.ofSchemas schemas) rel)
      = frontLines (introspectSchema sampling (db.ofSchemas schemas) rel)
        ++ (schemas.dedup.insertionSort (fun a b => a ≤ b)).flatMap (fun s =>
          tableEntries isPrintable (introspectSchema sampling (db.ofSchemas [s]) rel).tables)
        ++ backLines (introspectSchema sampling (db.ofSchemas schemas) rel) := by
  rw [promptLines_eq]
  exact congrArg (fun ls => _ ++ ls ++ _)
    (tableEntries_ofSchemas sampling rel isPrintable db schemas)
