import Mathlib.Data.List.Basic

/-!
# Quoted identifiers, read back

A lexer for the part of SQL that statements with quoted identifiers are made
of. It reads one character at a time, and what it has read of an unfinished
token is its mode. An identifier in double quotes ends at the first double
quote that has no other behind it; two in a row stand for one.

`lex_quoteIdent_append` is the rule for what is built of such identifiers:
whatever the name, its quoted spelling is read as one token, and the rest is
read as if it stood alone. `lex_append_of_run` is the rule for fixed text.
-/

/-- **A token**: a word or a number, a quoted identifier, or any other
character. -/
inductive SqlToken where
  | word (s : String)
  | quoted (name : String)
  | symbol (c : Char)
  deriving DecidableEq

/-- What has been read of an unfinished token. In `afterQuote` an identifier
has met a double quote, which ends it unless another one follows. -/
inductive LexMode where
  | start
  | inWord (cs : List Char)
  | inQuoted (cs : List Char)
  | afterQuote (cs : List Char)
  deriving DecidableEq

namespace SqlLexer

/-- The characters between tokens. -/
def isSpace (c : Char) : Bool := c == ' ' || c == '\t' || c == '\n' || c == '\r' || c == '\x0c'

/-- The characters of words and numbers. -/
def isWordChar (c : Char) : Bool := c.isAlphanum || c == '_' || c == '$'

/-- The first character of a token. -/
def begin (c : Char) : List SqlToken × LexMode :=
  if isSpace c then ([], .start)
  else if c = '"' then ([], .inQuoted [])
  else if isWordChar c then ([], .inWord [c])
  else ([.symbol c], .start)

/-- **One character**: the tokens it finishes, and the mode behind it. -/
def step : LexMode → Char → List SqlToken × LexMode
  | .start, c => begin c
  | .inWord cs, c =>
    if isWordChar c then ([], .inWord (cs ++ [c]))
    else (.word (String.ofList cs) :: (begin c).1, (begin c).2)
  | .inQuoted cs, c => if c = '"' then ([], .afterQuote cs) else ([], .inQuoted (cs ++ [c]))
  | .afterQuote cs, c =>
    if c = '"' then ([], .inQuoted (cs ++ ['"']))
    else (.quoted (String.ofList cs) :: (begin c).1, (begin c).2)

/-- A text, character by character, from a mode to the mode it ends in. -/
def run : LexMode → List Char → List SqlToken × LexMode
  | m, [] => ([], m)
  | m, c :: cs => ((step m c).1 ++ (run (step m c).2 cs).1, (run (step m c).2 cs).2)

/-- The end of the text: an identifier that is still open is an error. -/
def finish : LexMode → Option (List SqlToken)
  | .start => some []
  | .inWord cs => some [.word (String.ofList cs)]
  | .inQuoted _ => none
  | .afterQuote cs => some [.quoted (String.ofList cs)]

/-- **The tokens of a text**, unless it ends inside of one. -/
def lex (cs : List Char) : Option (List SqlToken) :=
  (finish (run .start cs).2).map ((run .start cs).1 ++ ·)

/-- The doubled double quotes of a quoted name. -/
def doubleQuotes (cs : List Char) : List Char :=
  cs.flatMap (fun c => if c = '"' then ['"', '"'] else [c])

/-- **A name as a quoted identifier.** -/
def quoteIdent (cs : List Char) : List Char := '"' :: (doubleQuotes cs ++ ['"'])

theorem doubleQuotes_quote (cs : List Char) :
    doubleQuotes ('"' :: cs) = '"' :: '"' :: doubleQuotes cs := rfl

theorem doubleQuotes_cons {c : Char} (h : c ≠ '"') (cs : List Char) :
    doubleQuotes (c :: cs) = c :: doubleQuotes cs := by
  rw [doubleQuotes, List.flatMap_cons, if_neg h]
  rfl

/-- Doubling adds one character for each double quote. -/
theorem length_doubleQuotes (cs : List Char) :
    (doubleQuotes cs).length = cs.length + cs.count '"' := by
  induction cs with
  | nil => rfl
  | cons c cs ih =>
    by_cases h : c = '"'
    · subst h
      rw [doubleQuotes_quote, List.count_cons_self]
      simp only [List.length_cons, ih]
      omega
    · rw [doubleQuotes_cons h, List.count_cons_of_ne h]
      simp only [List.length_cons, ih]
      omega

/-- **A name without double quotes is spelled as it is**, and no other. -/
theorem doubleQuotes_eq_self_iff {cs : List Char} : doubleQuotes cs = cs ↔ '"' ∉ cs := by
  constructor
  · intro h
    have hlength := length_doubleQuotes cs
    rw [h] at hlength
    exact List.count_eq_zero.mp (by omega)
  · intro h
    induction cs with
    | nil => rfl
    | cons c cs ih =>
      rw [List.mem_cons, not_or] at h
      rw [doubleQuotes_cons (Ne.symm h.1), ih h.2]

/-- A text in two parts: the second is read from the mode the first has ended
in. -/
theorem run_append (m : LexMode) (xs ys : List Char) :
    run m (xs ++ ys) = ((run m xs).1 ++ (run (run m xs).2 ys).1, (run (run m xs).2 ys).2) := by
  induction xs generalizing m with
  | nil => rfl
  | cons c xs ih =>
    rw [List.cons_append, run, run, ih, List.append_assoc]

/-- **Inside an identifier the name is read back**: a doubled quote is one of
the name, and no single one ends it early. -/
theorem run_doubleQuotes (acc cs : List Char) :
    run (.inQuoted acc) (doubleQuotes cs) = ([], .inQuoted (acc ++ cs)) := by
  induction cs generalizing acc with
  | nil => rw [List.append_nil]; rfl
  | cons c cs ih =>
    by_cases h : c = '"'
    · subst h
      rw [doubleQuotes_quote]
      show run (.inQuoted (acc ++ ['"'])) (doubleQuotes cs) = _
      rw [ih, List.append_assoc, List.singleton_append]
    · have hstep : step (.inQuoted acc) c = ([], .inQuoted (acc ++ [c])) := if_neg h
      rw [doubleQuotes_cons h, run, hstep, ih, List.append_assoc, List.singleton_append]
      rfl

/-- A quoted name is read up to its last double quote. -/
theorem run_quoteIdent (cs : List Char) : run .start (quoteIdent cs) = ([], .afterQuote cs) := by
  show run (.inQuoted []) (doubleQuotes cs ++ ['"']) = _
  rw [run_append, run_doubleQuotes]
  rfl

/-- A character that is no double quote ends the identifier, and starts what
comes next. -/
theorem run_afterQuote {c : Char} (hc : c ≠ '"') (acc cs : List Char) :
    run (.afterQuote acc) (c :: cs)
      = (.quoted (String.ofList acc) :: (run .start (c :: cs)).1, (run .start (c :: cs)).2) := by
  have hstep : step (.afterQuote acc) c
      = (.quoted (String.ofList acc) :: (begin c).1, (begin c).2) := if_neg hc
  rw [run, hstep]
  rfl

/-- **A quoted name is one token**, and what follows it is read as if it stood
alone. -/
theorem lex_quoteIdent_append {c : Char} (hc : c ≠ '"') (name cs : List Char) :
    lex (quoteIdent name ++ c :: cs)
      = (lex (c :: cs)).map (.quoted (String.ofList name) :: ·) := by
  rw [lex, run_append, run_quoteIdent, run_afterQuote hc, lex, Option.map_map]
  rfl

/-- **A text that leaves no token unfinished** is read for itself. -/
theorem lex_append_of_run {xs : List Char} {ts : List SqlToken} (h : run .start xs = (ts, .start))
    (ys : List Char) : lex (xs ++ ys) = (lex ys).map (ts ++ ·) := by
  rw [lex, run_append, h, lex, Option.map_map]
  refine congrArg (fun f => (finish (run .start ys).2).map f) (funext fun us => ?_)
  exact List.append_assoc ts _ us

example : lex "a.\"x\"\"y\"".toList = some [.word "a", .symbol '.', .quoted "x\"y"] := by decide

end SqlLexer
