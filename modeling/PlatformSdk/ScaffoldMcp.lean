import PlatformSdk.Scaffold

/-!
# The repository of a new MCP server

`platform-sdk new mcp` renders a template of a dozen files. One of them is
named after the service, `{{name}}_service.py`, and defines its class; two
others import that class from a module of that name. The class is spelled in
capitalised words, as a class is, and the module as the name is given.

`mcpRuns_iff` says for which kebab-case names the program so written can be
read by Python: for those of one word. The hyphen of any other name is in the
name of the module, and an import cannot say it.
-/

open Piece Spelling

/-! ## Names -/

/-- **A kebab-case name**: words of lower-case letters and digits, with single
hyphens between them, the first of which starts with a letter. -/
structure KebabName where
  words : List (List Char)
  words_ok : ∀ w ∈ words, w ≠ [] ∧ ∀ c ∈ w, c.isLower = true ∨ c.isDigit = true
  head_ok : ∃ c cs rest, words = (c :: cs) :: rest ∧ c.isLower = true

/-- The name: its words with hyphens between them, as it is typed. -/
def KebabName.name (k : KebabName) : List Char := ['-'].intercalate k.words

/-! ## The template -/

/-- A file of a template: the components of its path, and its lines. -/
structure TemplateFile where
  path : List (List Piece)
  lines : List (List Piece)

/-- The text of the lines, each with a line feed behind it. -/
def TemplateFile.pieces (f : TemplateFile) : List Piece :=
  f.lines.flatMap (fun line => line ++ [lit "\n"])

/-- The file as it is copied, with its placeholders. -/
def TemplateFile.toTree (f : TemplateFile) : TreeFile where
  path := f.path.map templateText
  content := templateText f.pieces

/-- The file with its holes filled, in its content and in its path. -/
def TemplateFile.filled (name : List Char) (f : TemplateFile) : TreeFile where
  path := f.path.map (fun ps => ps.flatMap (Piece.fill (Spelling.value name)))
  content := f.pieces.flatMap (Piece.fill (Spelling.value name))

/-- `src/main.py`, which imports the service and runs it. -/
def mainPy : TemplateFile where
  path := [[lit "src"], [lit "main.py"]]
  lines :=
    [[lit "\"\"\"ai-mcp-", hole plain, lit " — FastMCP entry point.\"\"\""],
      [lit "import os"],
      [],
      [lit "from mcp.server.fastmcp import FastMCP"],
      [lit "from platform_sdk import configure_logging, get_logger"],
      [],
      [lit "from .", hole plain, lit "_service import ", hole capWords, lit "McpService"],
      [],
      [lit "configure_logging()"],
      [lit "log = get_logger(__name__)"],
      [],
      [lit "TRANSPORT = os.environ.get(\"MCP_TRANSPORT\", \"stdio\")"],
      [lit "service = ", hole capWords, lit "McpService(\"ai-mcp-", hole plain, lit "\")"],
      [],
      [lit "if TRANSPORT == \"sse\":"],
      [lit "    mcp = FastMCP("],
      [lit "        \"ai-mcp-", hole plain, lit "\","],
      [lit "        lifespan=service.lifespan,"],
      [lit "        host=\"0.0.0.0\","],
      [lit "        port=int(os.environ.get(\"PORT\", \"8080\")),"],
      [lit "    )"],
      [lit "else:"],
      [lit "    mcp = FastMCP(\"ai-mcp-", hole plain, lit "\", lifespan=service.lifespan)"],
      [],
      [lit "service.register_tools(mcp)"],
      [],
      [],
      [lit "if __name__ == \"__main__\":"],
      [lit "    log.info(\"mcp_server_starting\", transport=TRANSPORT)"],
      [lit "    mcp.run(transport=TRANSPORT)"]]

/-- `src/` and the file named after the service, hyphens included. -/
def servicePy : TemplateFile where
  path := [[lit "src"], [hole plain, lit "_service.py"]]
  lines :=
    [[lit "\"\"\"ai-mcp-", hole plain, lit " — MCP service class.\"\"\""],
      [lit "from typing import Any"],
      [],
      [lit "from platform_sdk import MCPConfig, get_logger, make_error"],
      [lit "from platform_sdk.base import McpService"],
      [],
      [lit "log = get_logger(__name__)"],
      [],
      [],
      [lit "class ", hole capWords, lit "McpService(McpService):"],
      [lit "    cache_ttl_seconds = 300"],
      [lit "    requires_database = False"],
      [lit "    enable_telemetry = True"],
      [],
      [lit "    async def on_startup(self) -> None:"],
      [lit "        log.info(\"", hole plain, lit "_mcp_ready\")"],
      [],
      [lit "    def register_tools(self, mcp: Any) -> None:"],
      [lit "        @mcp.tool()"],
      [lit "        async def hello(name: str = \"world\") -> str:"],
      [lit "            return f\"Hello, \x7bname\x7d!\""]]

/-- **The template of an MCP server**, all twelve files of it. -/
def mcpTemplate : List TemplateFile :=
  [{ path := [[lit ".gitignore"]]
     lines := [[lit "__pycache__/"], [lit ".venv/"], [lit "*.egg-info/"], [lit ".pytest_cache/"]] },
    { path := [[lit "Dockerfile"]]
      lines :=
        [[lit "ARG BASE_TAG=3.11-sdk0.4.0"],
          [lit "FROM ghcr.io/narisun/ai-python-base:$\x7bBASE_TAG\x7d"],
          [],
          [lit "WORKDIR /app"],
          [lit "COPY requirements.txt ."],
          [lit "RUN pip install --no-cache-dir -r requirements.txt"],
          [lit "COPY src/ /app/src/"],
          [],
          [lit "USER appuser"],
          [lit "EXPOSE 8080"],
          [lit "CMD [\"python\", \"-m\", \"src.main\"]"]] },
    { path := [[lit "README.md"]]
      lines :=
        [[lit "# ai-mcp-", hole plain],
          [],
          [lit "Generated from `platform-sdk new mcp`. Entry point: `src/main.py`."]] },
    { path := [[lit "conftest.py"]]
      lines :=
        [[lit "import sys"],
          [lit "from pathlib import Path"],
          [],
          [lit "sys.path.insert(0, str(Path(__file__).parent))"]] },
    { path := [[lit "pyproject.toml"]]
      lines :=
        [[lit "[project]"],
          [lit "name = \"ai-mcp-", hole plain, lit "\""],
          [lit "version = \"0.1.0\""],
          [lit "requires-python = \">=3.11\""],
          [lit "dependencies = ["],
          [lit "    \"enterprise-ai-platform-sdk @ ",
            lit "git+ssh://git@github.com/narisun/ai-platform-sdk.git@v0.4.0\","],
          [lit "]"]] },
    { path := [[lit "requirements.txt"]]
      lines :=
        [[lit "enterprise-ai-platform-sdk @ ",
          lit "git+ssh://git@github.com/narisun/ai-platform-sdk.git@v0.4.0"]] },
    { path := [[lit "src"], [lit "__init__.py"]], lines := [] },
    mainPy,
    servicePy,
    { path := [[lit "tests"], [lit "__init__.py"]], lines := [] },
    { path := [[lit "tests"], [lit "unit"], [lit "__init__.py"]], lines := [] },
    { path := [[lit "tests"], [lit "unit"], [lit "test_smoke.py"]]
      lines :=
        [[lit "def test_service_imports():"],
          [lit "    from src.", hole plain, lit "_service import ", hole capWords,
            lit "McpService"],
          [lit "    svc = ", hole capWords, lit "McpService(\"test\")"],
          [lit "    assert svc is not None"]] }]

/-- **`new_mcp`**: the files at the target, or a usage error. -/
def newMcp (target : String) (targetExists : Bool) (name : List Char) :
    Except String (List TreeFile) :=
  renderTree (mcpTemplate.map TemplateFile.toTree) target targetExists name

/-! ## What Python reads -/

/-- The keywords of Python, which name nothing. -/
def pyKeywords : List String :=
  ["False", "None", "True", "and", "as", "assert", "async", "await", "break", "class", "continue",
    "def", "del", "elif", "else", "except", "finally", "for", "from", "global", "if", "import",
    "in", "is", "lambda", "nonlocal", "not", "or", "pass", "raise", "return", "try", "while",
    "with", "yield"]

/-- Whether an ASCII text is an identifier, and so can be imported. -/
def isPyIdentifier : List Char → Bool
  | [] => false
  | c :: cs =>
    (c.isAlpha || c == '_') && cs.all (fun d => d.isAlphanum || d == '_')
      && !pyKeywords.contains (String.ofList (c :: cs))

/-- The lines of a text, as newlines end them. -/
def textLines (text : List Char) : List (List Char) := text.splitOn '\n'

/-- The module and the class of a line `from .module import Class`. -/
def importOf (line : List Char) : Option (List Char × List Char) :=
  if "from .".toList.isPrefixOf line then
    let tail := (line.drop 6).dropWhile (· != ' ')
    if " import ".toList.isPrefixOf tail then
      some ((line.drop 6).takeWhile (· != ' '), tail.drop 8)
    else none
  else none

/-- **The relative import of a file**: the module and the class. -/
def relativeImport (text : List Char) : Option (List Char × List Char) :=
  (textLines text).findSome? importOf

/-- The class a line defines, where it begins as a definition does. -/
def classOf (line : List Char) : Option (List Char) :=
  if "class ".toList.isPrefixOf line then
    some ((line.drop 6).takeWhile (fun c => c != '(' && c != ':'))
  else none

/-- **The classes a file defines**, at the top level, in order. -/
def definedClasses (text : List Char) : List (List Char) := (textLines text).filterMap classOf

/-- The content of the file at a path, where there is one. -/
def fileAt (files : List TreeFile) (path : List (List Char)) : Option (List Char) :=
  (files.find? (fun f => decide (f.path = path))).map TreeFile.content

/-- **A repository that Python can read**: `src/main.py` imports an identifier
that is the stem of a file in `src/`, and of it the class that file defines;
and nothing is left to fill in, in any content or path. -/
structure McpRuns (files : List TreeFile) : Prop where
  imports : ∃ text module cls, fileAt files ["src".toList, "main.py".toList] = some text
    ∧ relativeImport text = some (module, cls)
    ∧ isPyIdentifier module = true
    ∧ ∃ f ∈ files, f.path = ["src".toList, module ++ ".py".toList]
      ∧ definedClasses f.content = [cls]
  filled : ∀ f ∈ files, hasPlaceholder f.content = false
    ∧ ∀ component ∈ f.path, hasPlaceholder component = false

/-! ## The characters of a name -/

/-- A letter, a digit, a hyphen or an underscore. -/
def isSpellingChar (c : Char) : Bool := c.isAlphanum || c == '-' || c == '_'

theorem toNat_lt_of_isSpellingChar {c : Char} (h : isSpellingChar c = true) : c.toNat < 128 := by
  have hupper : c.isUpper = true → c.toNat < 128 := fun h =>
    Nat.lt_of_le_of_lt (of_decide_eq_true h).2 (by decide)
  have hlower : c.isLower = true → c.toNat < 128 := fun h =>
    Nat.lt_of_le_of_lt (of_decide_eq_true ((Bool.and_eq_true _ _).mp h).2) (by decide)
  have hdigit : c.isDigit = true → c.toNat < 128 := fun h =>
    Nat.lt_of_le_of_lt (of_decide_eq_true ((Bool.and_eq_true _ _).mp h).2) (by decide)
  have hcases : (c.isUpper || c.isLower || c.isDigit || c == '-' || c == '_') = true := h
  simp only [Bool.or_eq_true, beq_iff_eq] at hcases
  rcases hcases with (((h | h) | h) | rfl) | rfl
  · exact hupper h
  · exact hlower h
  · exact hdigit h
  · decide
  · decide

/-- **The characters of a name stay such in capitals and in small letters.** -/
theorem isSpellingChar_case {c : Char} (h : isSpellingChar c = true) :
    isSpellingChar c.toUpper = true ∧ isSpellingChar c.toLower = true := by
  have htable : ∀ n : Fin 128, isSpellingChar (Char.ofNat n) = true →
      isSpellingChar (Char.ofNat n).toUpper = true
        ∧ isSpellingChar (Char.ofNat n).toLower = true := by
    decide
  have hc := htable ⟨c.toNat, toNat_lt_of_isSpellingChar h⟩
  rw [Char.ofNat_toNat] at hc
  exact hc h

theorem mem_intercalate_hyphen {c : Char} {ws : List (List Char)}
    (h : c ∈ ['-'].intercalate ws) : c = '-' ∨ ∃ w ∈ ws, c ∈ w := by
  induction ws with
  | nil => exact absurd h List.not_mem_nil
  | cons w ws ih =>
    cases ws with
    | nil =>
      rw [List.intercalate_singleton] at h
      exact .inr ⟨w, List.mem_singleton_self w, h⟩
    | cons w' ws =>
      rw [List.intercalate_cons_cons, List.mem_append, List.mem_append, List.mem_singleton] at h
      rcases h with (hw | hc) | hrest
      · exact .inr ⟨w, List.mem_cons_self, hw⟩
      · exact .inl hc
      · exact (ih hrest).imp_right fun ⟨v, hv, hcv⟩ => ⟨v, List.mem_cons_of_mem _ hv, hcv⟩

namespace KebabName

variable (k : KebabName)

theorem words_ne_nil : k.words ≠ [] := by
  obtain ⟨c, cs, rest, h, -⟩ := k.head_ok
  rw [h]
  exact List.cons_ne_nil _ _

theorem isAlphanum_of_mem {w : List Char} (hw : w ∈ k.words) {c : Char} (hc : c ∈ w) :
    c.isAlphanum = true := by
  show (c.isUpper || c.isLower || c.isDigit) = true
  rw [Bool.or_eq_true, Bool.or_eq_true]
  exact ((k.words_ok w hw).2 c hc).imp_left .inr

theorem hyphen_notMem {w : List Char} (hw : w ∈ k.words) : '-' ∉ w :=
  fun h => Bool.noConfusion (show false = true from k.isAlphanum_of_mem hw h)

/-- **There is a hyphen in a name of more than one word.** -/
theorem hyphen_notMem_name_iff : '-' ∉ k.name ↔ k.words.length = 1 := by
  constructor
  · intro h
    obtain ⟨w, ws, hws⟩ := List.exists_cons_of_ne_nil k.words_ne_nil
    cases ws with
    | nil => rw [hws, List.length_singleton]
    | cons w' ws =>
      refine absurd ?_ h
      rw [name, hws, List.intercalate_cons_cons]
      exact List.mem_append_left _ (List.mem_append_right _ (List.mem_singleton_self _))
  · intro h
    obtain ⟨w, hw⟩ := List.length_eq_one_iff.mp h
    rw [name, hw, List.intercalate_singleton]
    exact k.hyphen_notMem (hw ▸ List.mem_singleton_self w)

/-- The words are what lies between the hyphens, each begun with a capital. -/
theorem value_capWords : capWords.value k.name = k.words.flatMap capitalize := by
  rw [value, name, List.splitOn_intercalate '-' (fun w hw => k.hyphen_notMem hw) k.words_ne_nil]

theorem isSpellingChar_of_mem_name {c : Char} (h : c ∈ k.name) : isSpellingChar c = true := by
  rcases mem_intercalate_hyphen h with rfl | ⟨w, hw, hc⟩
  · decide
  · rw [isSpellingChar, k.isAlphanum_of_mem hw hc, Bool.true_or, Bool.true_or]

/-- **Every spelling of a name is of such characters.** -/
theorem isSpellingChar_of_mem_value (sp : Spelling) {c : Char} (h : c ∈ sp.value k.name) :
    isSpellingChar c = true := by
  cases sp with
  | shout =>
    obtain ⟨d, hd, rfl⟩ := List.mem_map.mp h
    obtain ⟨e, he, rfl⟩ := List.mem_map.mp hd
    by_cases hh : e.toUpper = '-'
    · rw [if_pos hh]
      decide
    · rw [if_neg hh]
      exact (isSpellingChar_case (k.isSpellingChar_of_mem_name he)).1
  | capWords =>
    rw [value_capWords, List.mem_flatMap] at h
    obtain ⟨w, hw, hc⟩ := h
    have hword : ∀ d ∈ w, isSpellingChar d = true := fun d hd => by
      rw [isSpellingChar, k.isAlphanum_of_mem hw hd, Bool.true_or, Bool.true_or]
    cases w with
    | nil => exact absurd hc List.not_mem_nil
    | cons d ds =>
      rcases List.mem_cons.mp hc with rfl | hc
      · exact (isSpellingChar_case (hword d List.mem_cons_self)).1
      · obtain ⟨e, he, rfl⟩ := List.mem_map.mp hc
        exact (isSpellingChar_case (hword e (List.mem_cons_of_mem _ he))).2
  | plain => exact k.isSpellingChar_of_mem_name h

theorem notMem_value {c : Char} (hc : isSpellingChar c = false) (sp : Spelling) :
    c ∉ sp.value k.name := by
  intro h
  rw [k.isSpellingChar_of_mem_value sp h] at hc
  exact Bool.noConfusion hc

end KebabName

/-! ## What is rendered -/

/-- A piece is harmless, and within a line, whatever the name is. -/
def Piece.isInline : Piece → Bool
  | .lit s => noOpen s.toList && !s.toList.contains '\n'
  | .hole _ => true

theorem isInline_lit {cs : List Char} (h : (noOpen cs && !cs.contains '\n') = true) :
    (lit (String.ofList cs)).isInline = true := by
  rw [Piece.isInline, String.toList_ofList]
  exact h

theorem isClean_of_isInline {p : Piece} (h : p.isInline = true) : p.isClean = true := by
  cases p with
  | lit s => exact ((Bool.and_eq_true _ _).mp h).1
  | hole sp => rfl

/-- What stands between the holes of a file, and of its path, is such. -/
structure TemplateFile.IsInline (f : TemplateFile) : Prop where
  path : ∀ component ∈ f.path, ∀ p ∈ component, p.isInline = true
  lines : ∀ line ∈ f.lines, ∀ p ∈ line, p.isInline = true

/-- **The template of an MCP server** has no stray braces. -/
theorem isInline_of_mem_mcpTemplate : ∀ f ∈ mcpTemplate, f.IsInline := by
  simp only [mcpTemplate, List.forall_mem_cons]
  repeat' apply And.intro
  all_goals
    first
    | exact fun _ h => absurd h List.not_mem_nil
    | refine ⟨?_, ?_⟩
      all_goals
        simp only [mainPy, servicePy, List.forall_mem_cons]
        repeat' apply And.intro
        all_goals
          first
          | exact isInline_lit rfl
          | exact rfl
          | exact fun _ h => absurd h List.not_mem_nil

namespace TemplateFile

variable {f : TemplateFile}

theorem IsInline.isClean (h : f.IsInline) : ∀ p ∈ f.pieces, p.isClean = true := by
  intro p hp
  obtain ⟨line, hline, hp⟩ := List.mem_flatMap.mp hp
  rcases List.mem_append.mp hp with hp | hp
  · exact isClean_of_isInline (h.lines line hline p hp)
  · rw [List.mem_singleton.mp hp]
    decide

theorem IsInline.isClean_path (h : f.IsInline) :
    ∀ component ∈ f.path, ∀ p ∈ component, p.isClean = true :=
  fun component hc p hp => isClean_of_isInline (h.path component hc p hp)

variable {name : List Char}

/-- **Rendering a file fills its holes**, in its path and in its content, and
changes nothing else. -/
theorem renderFile_toTree (hname : ∀ sp : Spelling, '\x7b' ∉ sp.value name) (h : f.IsInline) :
    renderFile name f.toTree = f.filled name := by
  have hpath : (f.path.map templateText).map (renameComponent name)
      = f.path.map (fun ps => ps.flatMap (Piece.fill (Spelling.value name))) := by
    rw [List.map_map]
    exact List.map_congr_left fun ps hps =>
      renameComponent_templateText hname (h.isClean_path ps hps)
  rw [renderFile, toTree, filled, hpath, substitute_fill hname h.isClean]

/-- And in neither is a placeholder left over, whatever the name is, as long as
it has no braces of its own. -/
theorem hasPlaceholder_filled (hname : ∀ sp : Spelling, '\x7b' ∉ sp.value name) (h : f.IsInline) :
    hasPlaceholder (f.filled name).content = false
      ∧ ∀ component ∈ (f.filled name).path, hasPlaceholder component = false := by
  refine ⟨noPlaceholder_of_noOpen (noOpen_fill hname h.isClean), fun component hc => ?_⟩
  obtain ⟨ps, hps, rfl⟩ := List.mem_map.mp hc
  exact noPlaceholder_of_noOpen (noOpen_fill hname (h.isClean_path ps hps))

end TemplateFile

theorem KebabName.brace_notMem_value (k : KebabName) (sp : Spelling) : '\x7b' ∉ sp.value k.name :=
  k.notMem_value (by decide) sp

/-- **The files of a new MCP server** are those of the template, filled. -/
theorem newMcp_name (k : KebabName) (target : String) :
    newMcp target false k.name = .ok (mcpTemplate.map (TemplateFile.filled k.name)) := by
  rw [newMcp, renderTree, if_neg Bool.false_ne_true, List.map_map]
  refine congrArg Except.ok (List.map_congr_left fun f hf => ?_)
  exact TemplateFile.renderFile_toTree k.brace_notMem_value (isInline_of_mem_mcpTemplate f hf)

/-! ## The lines of a file -/

/-- A line with its holes filled, each by the name in its form. -/
def fillLine (name : List Char) (line : List Piece) : List Char :=
  line.flatMap (Piece.fill (Spelling.value name))

theorem fillLine_lit (name cs : List Char) (ps : List Piece) :
    fillLine name (lit (String.ofList cs) :: ps) = cs ++ fillLine name ps := by
  rw [fillLine, List.flatMap_cons, Piece.fill, String.toList_ofList]
  rfl

/-- A line is told by what it starts with. -/
theorem apply_fillLine_lit {α : Type*} {g : List Char → Option α} {cs : List Char}
    (h : ∀ rest, g (cs ++ rest) = none) (name : List Char) (ps : List Piece) :
    g (fillLine name (lit (String.ofList cs) :: ps)) = none := by
  rw [fillLine_lit]
  exact h _

theorem lineFeed_notMem_fillLine (k : KebabName) {line : List Piece}
    (h : ∀ p ∈ line, p.isInline = true) : '\n' ∉ fillLine k.name line := by
  intro hin
  obtain ⟨p, hp, hin⟩ := List.mem_flatMap.mp hin
  cases p with
  | lit s =>
    have hs := h _ hp
    rw [Piece.isInline, Bool.and_eq_true, Bool.not_eq_true', List.contains_eq_mem,
      decide_eq_false_iff_not] at hs
    exact hs.2 hin
  | hole sp => exact k.notMem_value (by decide) sp hin

/-- **The lines of a filled file** are those of the template, and after the last
line feed nothing. -/
theorem textLines_filled (k : KebabName) {f : TemplateFile} (h : f.IsInline) :
    textLines (f.filled k.name).content = f.lines.map (fillLine k.name) ++ [[]] := by
  have hlines : ∀ lines : List (List Piece), (∀ line ∈ lines, ∀ p ∈ line, p.isInline = true) →
      ((lines.flatMap (fun line => line ++ [lit "\n"])).flatMap
        (Piece.fill (Spelling.value k.name))).splitOn '\n'
          = lines.map (fillLine k.name) ++ [[]] := by
    intro lines
    induction lines with
    | nil => exact fun _ => rfl
    | cons line lines ih =>
      intro h
      rw [List.forall_mem_cons] at h
      rw [List.flatMap_cons, List.flatMap_append, List.flatMap_append, List.append_assoc]
      show (fillLine k.name line ++ '\n' :: _).splitOn '\n' = _
      rw [List.splitOn_append_cons_self_of_not_mem (lineFeed_notMem_fillLine k h.1)]
      exact congrArg (List.cons (fillLine k.name line)) (ih h.2)
  exact hlines f.lines h.lines

/-- **The import of a line** that is one: the module, and what is taken from it.
-/
theorem importOf_import {m : List Char} (hm : ' ' ∉ m) (c : List Char) :
    importOf ("from .".toList ++ (m ++ (" import ".toList ++ c))) = some (m, c) := by
  have hword : ∀ d ∈ m, (d != ' ') = true := fun d hd => bne_iff_ne.mpr fun h => hm (h ▸ hd)
  have htake : (m ++ (" import ".toList ++ c)).takeWhile (· != ' ') = m := by
    rw [List.takeWhile_append_of_pos hword]
    exact List.append_nil m
  have hdrop : (m ++ (" import ".toList ++ c)).dropWhile (· != ' ') = " import ".toList ++ c := by
    rw [List.dropWhile_append_of_pos hword]
    rfl
  have hfirst : ("from .".toList ++ (m ++ (" import ".toList ++ c))).drop 6
      = m ++ (" import ".toList ++ c) := rfl
  have hstart : ∀ p s : List Char, p.isPrefixOf (p ++ s) = true := fun p s =>
    List.isPrefixOf_iff_prefix.mpr ⟨s, rfl⟩
  rw [importOf, if_pos (hstart _ _), hfirst, htake, hdrop, if_pos (hstart _ _)]
  rfl

/-- The class of a line that defines one, up to its bases. -/
theorem classOf_class {c : List Char} (hc : ∀ d ∈ c, (d != '(' && d != ':') = true)
    (bases : List Char) :
    classOf ("class ".toList ++ (c ++ '(' :: bases)) = some c := by
  have hstart : "class ".toList.isPrefixOf ("class ".toList ++ (c ++ '(' :: bases)) = true :=
    List.isPrefixOf_iff_prefix.mpr ⟨_, rfl⟩
  have hfirst : ("class ".toList ++ (c ++ '(' :: bases)).drop 6 = c ++ '(' :: bases := rfl
  rw [classOf, if_pos hstart, hfirst, List.takeWhile_append_of_pos hc]
  exact congrArg some (List.append_nil c)

theorem mainPy_mem : mainPy ∈ mcpTemplate :=
  .tail _ (.tail _ (.tail _ (.tail _ (.tail _ (.tail _ (.tail _ (.head _)))))))

theorem servicePy_mem : servicePy ∈ mcpTemplate :=
  .tail _ (.tail _ (.tail _ (.tail _ (.tail _ (.tail _ (.tail _ (.tail _ (.head _))))))))

/-- **What `src/main.py` imports**: the class from the module called after the
service, with the hyphens the name has. -/
theorem relativeImport_mainPy (k : KebabName) :
    relativeImport (mainPy.filled k.name).content
      = some (k.name ++ "_service".toList, capWords.value k.name ++ "McpService".toList) := by
  have hsplit : mainPy.lines = mainPy.lines.take 6
      ++ [lit "from .", hole plain, lit "_service import ", hole capWords, lit "McpService"]
        :: mainPy.lines.drop 7 := rfl
  -- the imports above it are of no module of the package
  have hbefore : ∀ line ∈ mainPy.lines.take 6, importOf (fillLine k.name line) = none := by
    simp only [mainPy, List.take, List.forall_mem_cons]
    repeat' apply And.intro
    all_goals
      first
      | exact apply_fillLine_lit (fun _ => rfl) _ _
      | exact rfl
      | exact fun _ h => absurd h List.not_mem_nil
  have hline : fillLine k.name
      [lit "from .", hole plain, lit "_service import ", hole capWords, lit "McpService"]
      = "from .".toList ++ ((k.name ++ "_service".toList) ++ (" import ".toList
        ++ (capWords.value k.name ++ "McpService".toList))) := by
    have hservice : "_service import ".toList = "_service".toList ++ " import ".toList := rfl
    simp only [fillLine, List.flatMap_cons, List.flatMap_nil, Piece.fill, hservice,
      List.append_assoc, List.append_nil]
    rfl
  have hspace : ' ' ∉ k.name ++ "_service".toList := by
    rw [List.mem_append, not_or]
    exact ⟨k.notMem_value (by decide) plain, by decide⟩
  rw [relativeImport, textLines_filled k (isInline_of_mem_mcpTemplate _ mainPy_mem), hsplit,
    List.map_append, List.map_cons, List.append_assoc, List.findSome?_append,
    List.findSome?_eq_none_iff.mpr (List.forall_mem_map.mpr hbefore), Option.none_or,
    List.cons_append, List.findSome?_cons, hline, importOf_import hspace]

/-- **What the file named after the service defines**: the one class, called
after the words of the name. -/
theorem definedClasses_servicePy (k : KebabName) :
    definedClasses (servicePy.filled k.name).content
      = [capWords.value k.name ++ "McpService".toList] := by
  have hsplit : servicePy.lines = servicePy.lines.take 9
      ++ [lit "class ", hole capWords, lit "McpService(McpService):"]
        :: servicePy.lines.drop 10 := rfl
  have hother : ∀ line ∈ servicePy.lines.take 9 ++ servicePy.lines.drop 10,
      classOf (fillLine k.name line) = none := by
    simp only [servicePy, List.take, List.drop, List.cons_append, List.nil_append,
      List.forall_mem_cons]
    repeat' apply And.intro
    all_goals
      first
      | exact apply_fillLine_lit (fun _ => rfl) _ _
      | exact rfl
      | exact fun _ h => absurd h List.not_mem_nil
  rw [List.forall_mem_append] at hother
  have hline : fillLine k.name [lit "class ", hole capWords, lit "McpService(McpService):"]
      = "class ".toList ++ ((capWords.value k.name ++ "McpService".toList)
        ++ '(' :: "McpService):".toList) := by
    have hclass : "McpService(McpService):".toList
        = "McpService".toList ++ '(' :: "McpService):".toList := rfl
    simp only [fillLine, List.flatMap_cons, List.flatMap_nil, Piece.fill, hclass,
      List.append_assoc, List.append_nil]
  have hchars : ∀ d ∈ capWords.value k.name ++ "McpService".toList,
      (d != '(' && d != ':') = true := by
    intro d hd
    rw [Bool.and_eq_true, bne_iff_ne, bne_iff_ne]
    rcases List.mem_append.mp hd with hd | hd
    · exact ⟨fun h => k.notMem_value (c := '(') (by decide) capWords (h ▸ hd),
        fun h => k.notMem_value (c := ':') (by decide) capWords (h ▸ hd)⟩
    · constructor
      · rintro rfl
        exact absurd hd (by decide)
      · rintro rfl
        exact absurd hd (by decide)
  rw [definedClasses, textLines_filled k (isInline_of_mem_mcpTemplate _ servicePy_mem), hsplit,
    List.map_append, List.map_cons, List.append_assoc, List.filterMap_append,
    List.filterMap_eq_nil_iff.mpr (List.forall_mem_map.mpr hother.1), List.nil_append,
    List.cons_append, hline, List.filterMap_cons_some (classOf_class hchars _),
    List.filterMap_append, List.filterMap_eq_nil_iff.mpr (List.forall_mem_map.mpr hother.2)]
  rfl

/-! ## Whether it runs -/

/-- **A name makes an identifier** of the module when it has no hyphen. -/
theorem isPyIdentifier_service_iff (k : KebabName) :
    isPyIdentifier (k.name ++ "_service".toList) = true ↔ k.words.length = 1 := by
  obtain ⟨c, cs, rest, hwords, hlower⟩ := k.head_ok
  obtain ⟨tail, htail⟩ : ∃ tail, k.name = c :: tail := by
    cases rest with
    | nil => exact ⟨cs, by rw [KebabName.name, hwords, List.intercalate_singleton]⟩
    | cons w rest =>
      exact ⟨_, by rw [KebabName.name, hwords, List.intercalate_cons_cons_left]⟩
  rw [← k.hyphen_notMem_name_iff, htail, List.cons_append, isPyIdentifier, Bool.and_eq_true,
    Bool.and_eq_true, List.all_eq_true]
  constructor
  · rintro ⟨⟨hc, hall⟩, -⟩ hin
    rcases List.mem_cons.mp hin with rfl | hin
    · exact Bool.noConfusion (show false = true from hc)
    · exact Bool.noConfusion (show false = true from hall '-' (List.mem_append_left _ hin))
  · intro hyphen
    refine ⟨⟨?_, fun d hd => ?_⟩, ?_⟩
    · show (c.isUpper || c.isLower || c == '_') = true
      rw [hlower, Bool.or_true, Bool.true_or]
    · rcases List.mem_append.mp hd with hd | hd
      · have hmem : d ∈ k.name := htail ▸ List.mem_cons_of_mem _ hd
        rcases mem_intercalate_hyphen hmem with rfl | ⟨w, hw, hdw⟩
        · exact absurd (List.mem_cons_of_mem _ hd) hyphen
        · rw [k.isAlphanum_of_mem hw hdw, Bool.true_or]
      · exact List.all_eq_true.mp (show ("_service".toList.all
          (fun d => d.isAlphanum || d == '_')) = true by decide) d hd
    · -- no keyword has an underscore
      rw [Bool.not_eq_true', ← Bool.not_eq_true, List.contains_iff_mem]
      intro hkeyword
      have hnone : ∀ word ∈ pyKeywords, '_' ∉ word.toList := by decide
      refine hnone _ hkeyword ?_
      rw [String.toList_ofList, ← List.cons_append]
      exact List.mem_append_right _ (by decide)

/-- The two files stand where they are looked for. -/
theorem fileAt_mainPy (name : List Char) :
    fileAt (mcpTemplate.map (TemplateFile.filled name)) ["src".toList, "main.py".toList]
      = some (mainPy.filled name).content :=
  rfl

theorem path_servicePy (name : List Char) :
    (servicePy.filled name).path
      = ["src".toList, (name ++ "_service".toList) ++ ".py".toList] := by
  have hstem : "_service.py".toList = "_service".toList ++ ".py".toList := rfl
  simp only [servicePy, TemplateFile.filled, List.map_cons, List.map_nil, List.flatMap_cons,
    List.flatMap_nil, Piece.fill, hstem, List.append_nil, List.append_assoc]
  rfl

/-- What Python can read names an identifier, or the import of the service
fails. -/
theorem isPyIdentifier_of_mcpRuns {k : KebabName}
    (h : McpRuns (mcpTemplate.map (TemplateFile.filled k.name))) :
    isPyIdentifier (k.name ++ "_service".toList) = true := by
  obtain ⟨text, module, cls, htext, himport, hid, -⟩ := h.imports
  rw [fileAt_mainPy] at htext
  rw [← Option.some.inj htext, relativeImport_mainPy] at himport
  obtain ⟨rfl, -⟩ := Prod.mk.inj (Option.some.inj himport)
  exact hid

/-- **A rendered server can be read by Python** when its name is one word. The
templates call the module after the service as it is given, hyphens included,
and import it under that name, which is then no identifier. -/
theorem mcpRuns_iff (k : KebabName) (target : String) :
    (∃ files, newMcp target false k.name = .ok files ∧ McpRuns files) ↔ k.words.length = 1 := by
  rw [newMcp_name, ← isPyIdentifier_service_iff]
  constructor
  · rintro ⟨files, hfiles, hruns⟩
    obtain rfl := Except.ok.inj hfiles
    exact isPyIdentifier_of_mcpRuns hruns
  · intro hid
    refine ⟨_, rfl, ?_, fun f hf => ?_⟩
    · exact ⟨_, _, _, fileAt_mainPy k.name, relativeImport_mainPy k, hid, servicePy.filled k.name,
        List.mem_map_of_mem servicePy_mem, path_servicePy k.name, definedClasses_servicePy k⟩
    · obtain ⟨t, ht, rfl⟩ := List.mem_map.mp hf
      exact TemplateFile.hasPlaceholder_filled k.brace_notMem_value
        (isInline_of_mem_mcpTemplate t ht)

/-- A word that is checked letter by letter is one of a name in this form. -/
theorem word_ok_of_all {w : List Char} (hne : w ≠ [])
    (hall : w.all (fun c => c.isLower || c.isDigit) = true) :
    w ≠ [] ∧ ∀ c ∈ w, c.isLower = true ∨ c.isDigit = true :=
  ⟨hne, fun c hc => (Bool.or_eq_true _ _).mp (List.all_eq_true.mp hall c hc)⟩

/-- `platform-sdk new mcp --name customer-support`, a name of two words. -/
def customerSupport : KebabName where
  words := ["customer".toList, "support".toList]
  words_ok := List.forall_mem_cons.mpr ⟨word_ok_of_all (by decide) (by decide),
    List.forall_mem_singleton.mpr (word_ok_of_all (by decide) (by decide))⟩
  head_ok := ⟨'c', _, _, rfl, by decide⟩

/-- **The server of that name cannot be read**: what it imports is
`customer-support_service`. -/
theorem not_mcpRuns_customerSupport :
    ¬ ∀ (k : KebabName) (target : String),
      ∃ files, newMcp target false k.name = .ok files ∧ McpRuns files := by
  intro h
  obtain ⟨files, hfiles, hruns⟩ := h customerSupport "ai-mcp-customer-support"
  rw [newMcp_name] at hfiles
  obtain rfl := Except.ok.inj hfiles
  exact absurd ((isPyIdentifier_service_iff _).mp (isPyIdentifier_of_mcpRuns hruns)) (by decide)
