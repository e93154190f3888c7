import PlatformSdk.SqlLexer
import PlatformSdk.Yaml

/-!
# Names of tables and columns in SQL

The introspection of a database writes the names it finds into statements of
its own, quoted by `_qident`, and reads names that a file of relationships
gives as `schema.table.column`, taken apart by `_split_qualified`.

The quoting is sound: `lex_sampleEnumSql` says that whatever the names are, the
statement that samples a column is read as the one that is meant. The taking
apart does not undo the quoting: it cuts at every dot, inside quotes too, and
leaves doubled quotes as they are. `splitQualified_join_iff` says that this is
all that is lost.
-/

open SqlLexer

/-- `_qident`. -/
def qident (s : String) : String := "\"" ++ String.ofList (doubleQuotes s.toList) ++ "\""

theorem toList_qident (s : String) : (qident s).toList = quoteIdent s.toList := by
  have hquote : "\"".toList = ['"'] := rfl
  rw [qident, String.toList_append, String.toList_append, hquote, String.toList_ofList]
  rfl

/-! ## Sampling the values of a column -/

/-- `ENUM_CARDINALITY_THRESHOLD`. -/
def enumCardinalityThreshold : ℕ := 25

/-- The statement of `_sample_enum_values`, with the three names quoted into it.
-/
def sampleEnumSql (schema table column : String) : String :=
  "SELECT " ++ qident column ++ " AS v "
    ++ "FROM " ++ qident schema ++ "." ++ qident table ++ " "
    ++ "WHERE " ++ qident column ++ " IS NOT NULL "
    ++ "GROUP BY " ++ qident column ++ " "
    ++ "ORDER BY " ++ qident column ++ " "
    ++ "LIMIT " ++ (enumCardinalityThreshold + 1).repr

/-- **`_sample_enum_values`.** The rows of a statement are `none` when it
fails. -/
def sampleEnumValues (fetch : String → Option (List String)) (schema table column : String) :
    Option (List String) :=
  match fetch (sampleEnumSql schema table column) with
  | none => none
  | some rows => if rows.length > enumCardinalityThreshold then none else some rows

/-- **The statement that is meant**,
`SELECT c AS v FROM s.t WHERE c IS NOT NULL GROUP BY c ORDER BY c LIMIT 26`. -/
def sampleEnumTokens (schema table column : String) : List SqlToken :=
  [.word "SELECT", .quoted column, .word "AS", .word "v",
    .word "FROM", .quoted schema, .symbol '.', .quoted table,
    .word "WHERE", .quoted column, .word "IS", .word "NOT", .word "NULL",
    .word "GROUP", .word "BY", .quoted column,
    .word "ORDER", .word "BY", .quoted column,
    .word "LIMIT", .word "26"]

/-- A quoted name in a statement, with a text behind it. -/
theorem lex_qident_append (name : String) {c : Char} (hc : c ≠ '"') {xs : List Char}
    {ts : List SqlToken} (h : run .start (c :: xs) = (ts, .start)) (ys : List Char) :
    lex ((qident name).toList ++ (c :: xs ++ ys)) = (lex ys).map (.quoted name :: ts ++ ·) := by
  rw [toList_qident, List.cons_append, lex_quoteIdent_append hc, ← List.cons_append,
    lex_append_of_run h, Option.map_map, String.ofList_toList]
  rfl

/-- **No name changes the statement.** Whatever characters the three names have,
quotes and semicolons included, the database reads the one statement that is
meant: each name is a quoted identifier in its own place. -/
theorem lex_sampleEnumSql (schema table column : String) :
    lex (sampleEnumSql schema table column).toList
      = some (sampleEnumTokens schema table column) := by
  have hsql : (sampleEnumSql schema table column).toList
      = "SELECT ".toList ++ ((qident column).toList ++ (' ' :: "AS v FROM ".toList
        ++ ((qident schema).toList ++ ('.' :: [] ++ ((qident table).toList
        ++ (' ' :: "WHERE ".toList ++ ((qident column).toList
        ++ (' ' :: "IS NOT NULL GROUP BY ".toList ++ ((qident column).toList
        ++ (' ' :: "ORDER BY ".toList ++ ((qident column).toList
        ++ (' ' :: "LIMIT ".toList ++ "26".toList)))))))))))) := by
    have hlimit : (enumCardinalityThreshold + 1).repr = "26" := rfl
    unfold sampleEnumSql
    simp only [hlimit, String.toList_append, List.append_assoc]
    rfl
  have hselect : run .start "SELECT ".toList = ([.word "SELECT"], .start) := rfl
  have hfrom : run .start (' ' :: "AS v FROM ".toList)
      = ([.word "AS", .word "v", .word "FROM"], .start) := rfl
  have hdot : run .start ('.' :: []) = ([.symbol '.'], .start) := rfl
  have hwhere : run .start (' ' :: "WHERE ".toList) = ([.word "WHERE"], .start) := rfl
  have hgroup : run .start (' ' :: "IS NOT NULL GROUP BY ".toList)
      = ([.word "IS", .word "NOT", .word "NULL", .word "GROUP", .word "BY"], .start) := rfl
  have horder : run .start (' ' :: "ORDER BY ".toList)
      = ([.word "ORDER", .word "BY"], .start) := rfl
  have hlimit : run .start (' ' :: "LIMIT ".toList) = ([.word "LIMIT"], .start) := rfl
  have hend : lex "26".toList = some [.word "26"] := rfl
  have hspace : ' ' ≠ '"' := by decide
  rw [hsql, lex_append_of_run hselect, lex_qident_append column hspace hfrom,
    lex_qident_append schema (by decide) hdot, lex_qident_append table hspace hwhere,
    lex_qident_append column hspace hgroup, lex_qident_append column hspace horder,
    lex_qident_append column hspace hlimit, hend]
  rfl

/-! ## Taking a qualified name apart -/

/-- `s.strip('"')`. -/
def stripQuotes (cs : List Char) : List Char :=
  (cs.dropWhile (· == '"')).rdropWhile (· == '"')

/-- `p.strip().strip('"')`. -/
def stripPart (p : String) : String := String.ofList (stripQuotes (pyStrip p.toList))

/-- **`_split_qualified`**, which wants three parts between dots and strips the
quotes of each. -/
def splitQualified (isPrintable : Char → Bool) (ident : String) :
    Except PyExc (String × String × String) :=
  match (pySplit ident '.').map stripPart with
  | [schema, table, column] => .ok (schema, table, column)
  | _ => .error (.valueError
      ("expected schema.table.column, got " ++ String.ofList (Yaml.reprStr isPrintable ident)))

/-- **Three quoted names joined by dots.** -/
def joinQualified (schema table column : String) : String :=
  qident schema ++ "." ++ qident table ++ "." ++ qident column

/-- **A name whose quoted spelling is the name in quotes**, and that no dot cuts
in two. -/
def Splittable (name : String) : Prop := '.' ∉ name.toList ∧ '"' ∉ name.toList

instance (name : String) : Decidable (Splittable name) := inferInstanceAs (Decidable (_ ∧ _))

/-! ### The quotes -/

/-- What is stripped does not start with a double quote. -/
theorem stripQuotes_ne_cons (cs t : List Char) : stripQuotes cs ≠ '"' :: t := by
  intro h
  obtain ⟨u, hu⟩ : stripQuotes cs <+: cs.dropWhile (· == '"') := List.rdropWhile_prefix _ _
  rw [h, List.cons_append] at hu
  have hhead := List.head?_dropWhile_not (· == '"') cs
  rw [← hu] at hhead
  exact Bool.noConfusion (show true = false from hhead)

/-- Nor does what is stripped of its quotes end with one. -/
theorem stripQuotes_ne_concat (cs t : List Char) : stripQuotes cs ≠ t ++ ['"'] := by
  intro h
  have hne : stripQuotes cs ≠ [] := by rw [h]; simp
  have hlast := List.rdropWhile_last_not (· == '"') _ hne
  simp only [show (cs.dropWhile (· == '"')).rdropWhile (· == '"') = t ++ ['"'] from h,
    List.getLast_concat] at hlast
  exact hlast rfl

/-- A text without double quotes at its ends loses no more than the quotes
around it. -/
theorem stripQuotes_quoteIdent {cs : List Char} (hhead : ∀ t, cs ≠ '"' :: t)
    (hlast : ∀ t, cs ≠ t ++ ['"']) : stripQuotes (quoteIdent cs) = doubleQuotes cs := by
  cases cs using List.reverseRecOn with
  | nil => rfl
  | append_singleton ds d =>
    have hd : d ≠ '"' := fun h => hlast ds (by rw [h])
    have hdouble : doubleQuotes (ds ++ [d]) = doubleQuotes ds ++ [d] := by
      rw [doubleQuotes, List.flatMap_append, List.flatMap_singleton, if_neg hd]
      rfl
    have hdrop : (doubleQuotes (ds ++ [d]) ++ ['"']).dropWhile (· == '"')
        = doubleQuotes (ds ++ [d]) ++ ['"'] := by
      cases hcs : ds ++ [d] with
      | nil => exact absurd hcs (by simp)
      | cons c cs =>
        have hc : c ≠ '"' := fun h => hhead cs (by rw [hcs, h])
        rw [doubleQuotes_cons hc, List.cons_append]
        exact List.dropWhile_cons_of_neg (by simp [hc])
    show ((doubleQuotes (ds ++ [d]) ++ ['"']).dropWhile (· == '"')).rdropWhile (· == '"') = _
    rw [hdrop, List.rdropWhile_concat_pos _ _ _ rfl, hdouble,
      List.rdropWhile_concat_neg _ _ _ (by simp [hd])]

/-- Blanks outside the quotes there are none. -/
theorem pyStrip_quoteIdent (cs : List Char) : pyStrip (quoteIdent cs) = quoteIdent cs := by
  have hdrop : (quoteIdent cs).dropWhile isPySpace = '"' :: doubleQuotes cs ++ ['"'] := rfl
  rw [pyStrip, hdrop, List.rdropWhile_concat_neg _ _ _ (by decide)]
  rfl

/-- **Which names a part gives back**: those without a quote, since stripping
takes the quotes around a name and does not undo the doubling of those in it. -/
theorem stripPart_qident_iff (name : String) :
    stripPart (qident name) = name ↔ '"' ∉ name.toList := by
  rw [stripPart, toList_qident, pyStrip_quoteIdent, ← doubleQuotes_eq_self_iff,
    ← String.toList_inj, String.toList_ofList]
  constructor
  · intro h
    rw [← stripQuotes_quoteIdent, h]
    · exact fun t ht => stripQuotes_ne_cons _ t (h.trans ht)
    · exact fun t ht => stripQuotes_ne_concat _ t (h.trans ht)
  · intro h
    have hnot := doubleQuotes_eq_self_iff.mp h
    rw [stripQuotes_quoteIdent, h]
    · exact fun t ht => hnot (by rw [ht]; exact List.mem_cons_self)
    · exact fun t ht => hnot (by rw [ht]; exact List.mem_concat_self)

/-! ### The dots -/

/-- A split has one piece more than there are separators. -/
theorem length_splitOn (c : Char) (xs : List Char) :
    (xs.splitOn c).length = xs.count c + 1 := by
  induction xs with
  | nil => rfl
  | cons x xs ih =>
    rw [List.splitOn_cons_eq_if_modifyHead, List.count_cons]
    by_cases h : x = c
    · simp [h, ih]
    · simp [h, ih]

/-- The quoting adds no dots, and takes none away. -/
theorem count_dot_quoteIdent (cs : List Char) : (quoteIdent cs).count '.' = cs.count '.' := by
  have hdouble : (doubleQuotes cs).count '.' = cs.count '.' := by
    induction cs with
    | nil => rfl
    | cons c cs ih =>
      by_cases h : c = '"'
      · subst h
        rw [doubleQuotes_quote, List.count_cons_of_ne (by decide),
          List.count_cons_of_ne (by decide), ih, List.count_cons_of_ne (by decide)]
      · rw [doubleQuotes_cons h, List.count_cons, List.count_cons, ih]
  have hend : ['"'].count '.' = 0 := by decide
  rw [quoteIdent, List.count_cons_of_ne (by decide), List.count_append, hdouble, hend, Nat.add_zero]

theorem toList_joinQualified (schema table column : String) :
    (joinQualified schema table column).toList
      = quoteIdent schema.toList
        ++ '.' :: (quoteIdent table.toList ++ '.' :: quoteIdent column.toList) := by
  have hdot : ".".toList = ['.'] := rfl
  unfold joinQualified
  simp only [String.toList_append, toList_qident, hdot, List.append_assoc, List.cons_append,
    List.nil_append]

/-- **A dot in a name makes a part too many.** -/
theorem length_split_joinQualified (schema table column : String) :
    (pySplit (joinQualified schema table column) '.').length
      = schema.toList.count '.' + table.toList.count '.' + column.toList.count '.' + 3 := by
  rw [pySplit, List.length_map, length_splitOn, toList_joinQualified, List.count_append,
    List.count_cons_self, List.count_append, List.count_cons_self, count_dot_quoteIdent,
    count_dot_quoteIdent, count_dot_quoteIdent]
  omega

/-- Without any, the parts are the quoted names. -/
theorem split_joinQualified {schema table column : String} (hs : '.' ∉ schema.toList)
    (ht : '.' ∉ table.toList) (hc : '.' ∉ column.toList) :
    pySplit (joinQualified schema table column) '.'
      = [qident schema, qident table, qident column] := by
  have hquote : ∀ s : String, '.' ∉ s.toList → '.' ∉ quoteIdent s.toList := by
    intro s h
    rw [← List.count_eq_zero, count_dot_quoteIdent]
    exact List.count_eq_zero.mpr h
  have hname : ∀ s : String, String.ofList (quoteIdent s.toList) = qident s := by
    intro s
    rw [← toList_qident, String.ofList_toList]
  rw [pySplit, toList_joinQualified, List.splitOn_append_cons_self_of_not_mem (hquote _ hs),
    List.splitOn_append_cons_self_of_not_mem (hquote _ ht),
    List.splitOn_eq_singleton (hquote _ hc)]
  simp only [List.map_cons, List.map_nil, hname]

/-- **Which names are split as they were joined**: exactly those without dots
and double quotes. The split cuts at every dot, also at one between quotes, and
leaves a doubled quote doubled. -/
theorem splitQualified_join_iff (isPrintable : Char → Bool) (schema table column : String) :
    splitQualified isPrintable (joinQualified schema table column) = .ok (schema, table, column)
      ↔ Splittable schema ∧ Splittable table ∧ Splittable column := by
  by_cases hdots : '.' ∉ schema.toList ∧ '.' ∉ table.toList ∧ '.' ∉ column.toList
  · obtain ⟨hs, ht, hc⟩ := hdots
    have hok : splitQualified isPrintable (joinQualified schema table column)
        = .ok (stripPart (qident schema), stripPart (qident table), stripPart (qident column)) := by
      rw [splitQualified, split_joinQualified hs ht hc]
      rfl
    rw [hok, Except.ok.injEq, Prod.mk.injEq, Prod.mk.injEq, stripPart_qident_iff,
      stripPart_qident_iff, stripPart_qident_iff]
    simp only [Splittable, hs, ht, hc, not_false_eq_true, true_and]
  · refine iff_of_false (fun h => hdots ?_)
      (fun h => hdots ⟨h.1.1, h.2.1.1, h.2.2.1⟩)
    have hlength := length_split_joinQualified schema table column
    rw [splitQualified] at h
    split at h
    · next hparts =>
      have h3 := congrArg List.length hparts
      rw [List.length_map, hlength] at h3
      simp only [List.length_cons, List.length_nil] at h3
      exact ⟨List.count_eq_zero.mp (by omega), List.count_eq_zero.mp (by omega),
        List.count_eq_zero.mp (by omega)⟩
    · cases h

/-- **A dot inside the quotes, and a double quote.** -/
theorem not_splitQualified_join :
    splitQualified (fun _ => true) (joinQualified "fin.core" "accounts" "id")
        = .error (.valueError
          "expected schema.table.column, got '\"fin.core\".\"accounts\".\"id\"'")
      ∧ splitQualified (fun _ => true) (joinQualified "core" "ac\"c" "id")
        = .ok ("core", "ac\"\"c", "id") := by
  decide +kernel
