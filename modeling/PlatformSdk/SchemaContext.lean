import Mathlib.Data.List.Infix
import Mathlib.Data.List.Sort
import PlatformSdk.Grouping
import PlatformSdk.SchemaSql

/-!
# The schema of a database, introspected and rendered

`introspect_schema` reads the tables, columns and keys of a database from its
catalog, and `format_for_prompt` renders what it has read as Markdown for a
prompt. The rendering is a list of entries, joined with newlines at the end.

The rows of the columns come in one list. They are grouped by table, the tables
are grouped by schema, and the schemas, and in each of them the tables, are
sorted by name. That the right columns are under each table after all that is
proved next door.

What the database returns is a parameter, and so are two things of Python that
rest on the Unicode database: `str.lower` and `str.isprintable`.
-/

/-! ## What is read -/

/-- A row of `_fetch_tables`: the names of a table and its comment. -/
structure TableRow where
  schema : String
  table : String
  comment : Option String
  deriving DecidableEq

/-- **A row of `_fetch_columns`**: the names of a column and of its table, its
type and its ordinal. -/
structure ColumnRow where
  schema : String
  table : String
  column : String
  dataType : String
  nullable : Bool
  comment : Option String
  ordinal : ℕ
  deriving DecidableEq

/-- The table a column is of, by the two names that tell it from others. -/
def ColumnRow.key (r : ColumnRow) : String × String := (r.schema, r.table)

/-- A row of `_fetch_primary_keys`, the columns of a key in order. -/
structure KeyRow where
  schema : String
  table : String
  column : String
  deriving DecidableEq

/-- `ForeignKey`: a column of one table and the column it refers to. -/
structure ForeignKey where
  fromSchema : String
  fromTable : String
  fromColumn : String
  toSchema : String
  toTable : String
  toColumn : String
  deriving DecidableEq

/-- `TextJoin`: a `ForeignKey` that is none, and what it means. -/
structure TextJoin extends ForeignKey where
  semantics : String
  deriving DecidableEq

/-- `GlossaryTerm`: a word of the business and what is meant by it. -/
structure GlossaryTerm where
  term : String
  definition : String
  deriving DecidableEq

/-- `EntityPerspective`: how to look at an entity, and the table it is mainly
in. -/
structure EntityPerspective where
  name : String
  description : String
  primaryTable : String
  factColumns : List String
  deriving DecidableEq

/-- **What the catalog queries return**, each in its order. -/
structure Catalog where
  tables : List TableRow
  columns : List ColumnRow
  primaryKeys : List KeyRow
  foreignKeys : List ForeignKey

/-- What the file of relationships declares, and the catalog does not know. -/
structure Relationships where
  textJoins : List TextJoin := []
  perspectives : List EntityPerspective := []
  glossary : List GlossaryTerm := []

/-- **How columns are sampled**: `str.lower`, the rows of a statement, and
whether to sample at all. -/
structure Sampling where
  lower : String → String
  fetch : String → Option (List String)
  sampleEnums : Bool

/-! ## What is built -/

/-- `ColumnInfo`: a column with its comment and the values sampled of it. -/
structure ColumnInfo where
  name : String
  dataType : String
  nullable : Bool
  description : Option String
  enumValues : Option (List String)
  deriving DecidableEq

/-- `TableInfo`: a table with its comment, its key and its columns in order. -/
structure TableInfo where
  schema : String
  name : String
  description : Option String
  columns : List ColumnInfo
  primaryKey : List String
  deriving DecidableEq

/-- **`SchemaContext`**: what the prompt is made from, tables of all schemas in
one list. -/
structure SchemaContext where
  tables : List TableInfo
  foreignKeys : List ForeignKey
  textJoins : List TextJoin
  perspectives : List EntityPerspective
  glossary : List GlossaryTerm

/-- `_ENUM_BASE_TYPES`: the types of the columns that are sampled. -/
def enumBaseTypes : List String := ["character varying", "text", "varchar"]

/-- `_ENUM_SKIP_PATTERNS`: a column whose name has one of these in it is not
sampled. -/
def enumSkipPatterns : List String :=
  ["id", "key", "number", "date", "time", "name", "description",
    "subject", "email", "phone", "website", "address", "street",
    "comment", "note", "step", "secret", "swiftbic", "routingnumber",
    "postalcode", "taxid", "amount", "value"]

/-- `_looks_like_enum_candidate`: a text column whose name does not tell of free
text. -/
def looksLikeEnumCandidate (lower : String → String) (colName dataType : String) : Bool :=
  let base := lower (String.ofList (pyStrip (dataType.toList.takeWhile (· ≠ '('))))
  enumBaseTypes.contains base
    && !enumSkipPatterns.any (fun p => decide (p.toList <:+: (lower colName).toList))

/-- `_fetch_tables`: the comments by table, of which the last row counts. -/
def fetchTables (rows : List TableRow) : Dict (String × String) (Option String) :=
  rows.foldl (fun d r => d.set (r.schema, r.table) r.comment) []

/-- `_fetch_primary_keys`: the columns of each key in the order of the rows. -/
def fetchPrimaryKeys (rows : List KeyRow) : Dict (String × String) (List String) :=
  Dict.groupOn (fun r => (r.schema, r.table)) KeyRow.column rows

/-- What `introspect_schema` makes of the row of a column. -/
def columnInfo (sampling : Sampling) (schema table : String) (r : ColumnRow) : ColumnInfo where
  name := r.column
  dataType := r.dataType
  nullable := r.nullable
  description := r.comment
  enumValues :=
    if sampling.sampleEnums && looksLikeEnumCandidate sampling.lower r.column r.dataType then
      sampleEnumValues sampling.fetch schema table r.column
    else none

/-- What it makes of the rows of a table. -/
def tableInfo (sampling : Sampling) (catalog : Catalog) (key : String × String)
    (rows : List ColumnRow) : TableInfo where
  schema := key.1
  name := key.2
  description := ((fetchTables catalog.tables).get? key).getD none
  columns := rows.map (columnInfo sampling key.1 key.2)
  primaryKey := ((fetchPrimaryKeys catalog.primaryKeys).get? key).getD []

/-- The rows of the columns by their table, in the order in which a table comes
first. -/
def byTable (rows : List ColumnRow) : Dict (String × String) (List ColumnRow) :=
  Dict.groupOn ColumnRow.key id rows

/-- **`introspect_schema`**: the rows are grouped by table, and the columns that
may be are sampled. -/
def introspectSchema (sampling : Sampling) (catalog : Catalog) (rel : Relationships) :
    SchemaContext where
  tables := (byTable catalog.columns).map (fun e => tableInfo sampling catalog e.1 e.2)
  foreignKeys := catalog.foreignKeys
  textJoins := rel.textJoins
  perspectives := rel.perspectives
  glossary := rel.glossary

/-! ## The entries of the rendering -/

/-- `if x:` for a text that may be missing. -/
def presentText : Option String → Option String
  | none | some "" => none
  | some s => some s

/-- The entry of a glossary term, with the term in bold type. -/
def glossaryLine (g : GlossaryTerm) : String := "- **" ++ g.term ++ "** — " ++ g.definition

/-- The entries of a perspective, one for each thing that it says. -/
def perspectiveLines (p : EntityPerspective) : List String :=
  let cols := String.intercalate ", " (p.factColumns.map (fun c => "\"" ++ c ++ "\""))
  ["- **" ++ p.name ++ "** — " ++ p.description]
    ++ (if p.primaryTable = "" then [] else ["    primary table: `" ++ p.primaryTable ++ "`"])
    ++ (if cols = "" then [] else ["    fact columns: " ++ cols])

/-- The entries before the schemas: the glossary and the perspectives. -/
def frontLines (ctx : SchemaContext) : List String :=
  (if ctx.glossary = [] then [] else
    ["## Domain Glossary", "",
      "How this team uses common banking terms. When the user's question "
        ++ "uses one of these words, map to the SQL pattern indicated here. "
        ++ "Misreading a term silently changes the answer (e.g. returning a "
        ++ "dollar sum when the user asked for a count).", ""]
      ++ ctx.glossary.map glossaryLine ++ [""])
    ++ (if ctx.perspectives = [] then [] else
      ["## Analyst Perspectives", "",
        "Commercial-banking questions usually approach the data from one of "
          ++ "these angles. Identify the perspective in the user's question, then "
          ++ "filter on the matching column(s) on `bankdw.\"fact_payments\"`:", ""]
        ++ ctx.perspectives.flatMap perspectiveLines ++ [""])
    ++ ["## Database Schema (live from pg_catalog)", "",
      "Pascal-cased identifiers MUST be double-quoted in queries.", ""]

/-- The header of a schema, and the empty entry behind it. -/
def schemaHeader (schema : String) : List String := ["### Schema: `" ++ schema ++ "`", ""]

/-- The header of a table, with the schema in front of its name. -/
def tableHeader (schema name : String) : String := "#### " ++ schema ++ ".\"" ++ name ++ "\""

/-- What is said of a table before its columns. -/
def tableAbout (t : TableInfo) : List String :=
  (match presentText t.description with
    | none => []
    | some d => ["> " ++ d])
    ++ (if t.primaryKey = [] then [] else ["PK: " ++ String.intercalate ", " t.primaryKey])

/-- The values of a column that has few, each by its `repr`. -/
def enumText (isPrintable : Char → Bool) : Option (List String) → String
  | none | some [] => ""
  | some values =>
    " — values: " ++ String.intercalate ", "
      (values.map (fun v => String.ofList (Yaml.reprStr isPrintable v)))

/-- **The entry of a column**: its name and type, the values sampled, and its
comment. -/
def columnLine (isPrintable : Char → Bool) (c : ColumnInfo) : String :=
  "- `" ++ String.intercalate "` `" ["\"" ++ c.name ++ "\"", c.dataType] ++ "`"
    ++ enumText isPrintable c.enumValues
    ++ (match presentText c.description with
      | none => ""
      | some d => " — " ++ d)

/-- **The entries of a table**: its header, what is said of it, its columns, and
an empty one. -/
def tableLines (isPrintable : Char → Bool) (t : TableInfo) : List String :=
  [tableHeader t.schema t.name] ++ tableAbout t ++ t.columns.map (columnLine isPrintable) ++ [""]

/-- `fk.from_schema."fk.from_table"."fk.from_column"`, an arrow, and where it
leads, in the same form. -/
def joinText (arrow : String) (fk : ForeignKey) : String :=
  "- " ++ fk.fromSchema ++ ".\"" ++ fk.fromTable ++ "\".\"" ++ fk.fromColumn ++ "\" " ++ arrow
    ++ " " ++ fk.toSchema ++ ".\"" ++ fk.toTable ++ "\".\"" ++ fk.toColumn ++ "\""

/-- The entries after the schemas: the foreign keys and the joins. -/
def backLines (ctx : SchemaContext) : List String :=
  (if ctx.foreignKeys = [] then [] else
    ["### Foreign Keys (declared)"] ++ ctx.foreignKeys.map (joinText "→") ++ [""])
    ++ (if ctx.textJoins = [] then [] else
      ["### Text-Match Joins (semantic, not enforced — match on equal values)"]
        ++ ctx.textJoins.map (fun tj => joinText "↔" tj.toForeignKey
          ++ if tj.semantics = "" then "" else " — " ++ tj.semantics)
        ++ [""])

/-- The tables by their schema, in the order they come. -/
def bySchema (tables : List TableInfo) : Dict String (List TableInfo) :=
  Dict.groupOn TableInfo.schema id tables

/-- The schemas in order, each that some table is of, and once. -/
def sortedSchemas (tables : List TableInfo) : List String :=
  (bySchema tables).keys.insertionSort (fun a b => a ≤ b)

/-- The tables of a schema in order, by their names. -/
def sortedTables (tables : List TableInfo) (schema : String) : List TableInfo :=
  (((bySchema tables).get? schema).getD []).insertionSort (fun a b => a.name ≤ b.name)

/-- **The entries of `format_for_prompt`**, before they are joined by line ends.
-/
def promptLines (isPrintable : Char → Bool) (ctx : SchemaContext) : List String :=
  frontLines ctx
    ++ (sortedSchemas ctx.tables).flatMap (fun schema =>
      schemaHeader schema ++ (sortedTables ctx.tables schema).flatMap (tableLines isPrintable))
    ++ backLines ctx

/-- **`format_for_prompt`**: the entries, each on lines of its own. -/
def formatForPrompt (isPrintable : Char → Bool) (ctx : SchemaContext) : String :=
  String.ofList ((String.intercalate "\n" (promptLines isPrintable ctx)).toList.rdropWhile
    isPySpace) ++ "\n"
