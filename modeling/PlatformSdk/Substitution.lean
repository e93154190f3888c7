import Mathlib.Data.List.TakeWhile
import PlatformSdk.ConfigLoader

/-!
# One scan instead of three passes

`_substitute` rewrites a string in three passes: it hides every `$$` behind a
sentinel, lets the regular expression resolve the references of what is left,
and turns the sentinels into dollars. What is meant is a single scan from left
to right, in which `$$` is a dollar, a reference is its value or itself, and
every other character is itself.

The two agree on texts without NUL, the character the sentinel begins with:
`hide` leaves the references of the scan where they are (`matchVar_hide`), and
no sentinel begins inside a value, since the process environment cannot hold a
NUL either – `OsEnviron` carries that.
-/

/-- The character the sentinel begins and ends with, which no text of a file
has. -/
def nul : Char := '\x00'

/-- **The process environment**, whose values are C strings. -/
structure OsEnviron where
  /-- `os.environ.get`. -/
  get : Environ
  /-- No value holds a NUL. -/
  nul_notMem : ∀ name value, get name = some value → nul ∉ value.toList

/-! ## The scan -/

/-- **What the scan reads**, from left to right and each character once. -/
inductive Token where
  /-- `$$`. -/
  | dollar
  /-- A reference. -/
  | reference (name : List Char)
  /-- Any other character. -/
  | char (c : Char)
  deriving DecidableEq

/-- **The scan from left to right**, `k` characters of the token just read
being left to skip. -/
def tokens : ℕ → List Char → List Token
  | _, [] => []
  | k + 1, _ :: cs => tokens k cs
  | 0, c :: cs =>
    if "$$".toList.isPrefixOf (c :: cs) then .dollar :: tokens 1 cs
    else
      match matchVar (c :: cs) with
      | some name => .reference name :: tokens (name.length + 2) cs
      | none => .char c :: tokens 0 cs

namespace Token

/-- What a token becomes: itself, a dollar, or what the environment has for the
name. -/
def value (environ : Environ) : Token → List Char
  | .dollar => ['$']
  | .reference name =>
    ((environ (String.ofList name)).map String.toList).getD (varText name)
  | .char c => [c]

/-- The name of a reference, where the token is one. -/
def name? : Token → Option (List Char)
  | .reference name => some name
  | _ => none

/-- What stands for a token in the text, so that the tokens spell the text
again. -/
def text : Token → List Char
  | .dollar => "$$".toList
  | .reference name => varText name
  | .char c => [c]

end Token

/-- What a string scans to: the values of its tokens, one after the other. -/
def scanStr (environ : Environ) (s : String) : String :=
  String.ofList ((tokens 0 s.toList).flatMap (Token.value environ))

/-- The references of a string that are not set, one for each place they
stand. -/
def unsetReferences (environ : Environ) (s : String) : List (List Char) :=
  ((tokens 0 s.toList).filterMap Token.name?).filter
    (fun name => (environ (String.ofList name)).isNone)

/-- A scalar scanned: only strings carry references, and everything else stays.
-/
def scanScalar (environ : Environ) : YamlScalar → YamlScalar
  | .str s => .str (scanStr environ s)
  | a => a

/-- The problems of a scalar: one for each token that is a reference not set. -/
def scanErrors (environ : Environ) (sourcePath : PurePath) : YamlScalar → List ConfigErrorDetail
  | .str s => (unsetReferences environ s).map (missingVar sourcePath)
  | _ => []

/-! ## References -/

/-- `[A-Z_][A-Z0-9_]*`, the whole of a name and not only a part of it. -/
def IsVarName (name : List Char) : Prop :=
  ∃ n ns, name = n :: ns ∧ isNameStart n = true ∧ ∀ c ∈ ns, isNameChar c = true

theorem isNameChar_of_isNameStart {c : Char} (h : isNameStart c = true) : isNameChar c = true := by
  rw [isNameChar, h, Bool.true_or]

/-- A name is made of the characters of names. -/
theorem IsVarName.isNameChar {name : List Char} (h : IsVarName name) {c : Char} (hc : c ∈ name) :
    isNameChar c = true := by
  obtain ⟨n, ns, rfl, hn, hns⟩ := h
  rcases List.mem_cons.mp hc with rfl | hc
  · exact isNameChar_of_isNameStart hn
  · exact hns c hc

/-- **A reference starts where its text does**: a dollar, and a name of the
pattern between braces. -/
theorem matchVar_eq_some_iff {cs name : List Char} :
    matchVar cs = some name ↔ IsVarName name ∧ varText name <+: cs := by
  constructor
  · intro h
    unfold matchVar at h
    split at h
    · next cs =>
      split at h
      · next n name rest h₁ h₂ =>
        split at h
        · next hn =>
          obtain rfl := Option.some.inj h
          have hall : ∀ c ∈ cs.takeWhile isNameChar, isNameChar c = true :=
            fun c hc => List.mem_takeWhile_imp hc
          have hcs : cs = (n :: name) ++ '\x7d' :: rest := by
            rw [← h₁, ← h₂, List.takeWhile_append_dropWhile]
          rw [h₁] at hall
          refine ⟨⟨n, name, rfl, hn, fun c hc => hall c (List.mem_cons_of_mem n hc)⟩, rest, ?_⟩
          rw [hcs]
          simp [varText]
        · cases h
      · cases h
    · cases h
  · rintro ⟨hname, rest, rfl⟩
    have hall : ∀ c ∈ name, isNameChar c = true := fun c hc => hname.isNameChar hc
    obtain ⟨n, ns, rfl, hn, -⟩ := hname
    have htake : ((n :: ns) ++ '\x7d' :: rest).takeWhile isNameChar = n :: ns := by
      rw [List.takeWhile_append_of_pos hall]
      simp [show isNameChar '\x7d' = false from by decide]
    have hdrop : ((n :: ns) ++ '\x7d' :: rest).dropWhile isNameChar = '\x7d' :: rest := by
      rw [List.dropWhile_append_of_pos hall]
      simp [show isNameChar '\x7d' = false from by decide]
    have htext : varText (n :: ns) ++ rest = '$' :: '\x7b' :: ((n :: ns) ++ '\x7d' :: rest) := by
      simp [varText]
    rw [htext, matchVar, htake, hdrop]
    exact if_pos hn

/-- A name has no dollar in it. -/
theorem IsVarName.dollar_notMem {name : List Char} (h : IsVarName name) : '$' ∉ name :=
  fun hmem => absurd (h.isNameChar hmem) (by decide)

/-! ## The scan, token by token -/

/-- What skips characters goes on behind them, as if it began there. -/
theorem skip_append {β : Type*} {f : ℕ → List Char → β}
    (h : ∀ k c cs, f (k + 1) (c :: cs) = f k cs) (xs ys : List Char) :
    f xs.length (xs ++ ys) = f 0 ys := by
  induction xs with
  | nil => rfl
  | cons x xs ih => exact (h xs.length x (xs ++ ys)).trans ih

/-- Behind its dollar the text of a reference is two characters longer than
the name. -/
theorem skip_varText {β : Type*} {f : ℕ → List Char → β}
    (h : ∀ k c cs, f (k + 1) (c :: cs) = f k cs) (name cs : List Char) :
    f (name.length + 2) ('\x7b' :: name ++ ['\x7d'] ++ cs) = f 0 cs := by
  have hlen : name.length + 2 = ('\x7b' :: name ++ ['\x7d']).length := by simp
  rw [hlen]
  exact skip_append h _ cs

/-- A reference matches where it is written, with its own name. -/
theorem matchVar_varText {name : List Char} (h : IsVarName name) (cs : List Char) :
    matchVar (varText name ++ cs) = some name :=
  matchVar_eq_some_iff.mpr ⟨h, List.prefix_append _ _⟩

theorem tokens_dollar (cs : List Char) : tokens 0 ('$' :: '$' :: cs) = .dollar :: tokens 0 cs :=
  rfl

theorem tokens_reference {name : List Char} (h : IsVarName name) (cs : List Char) :
    tokens 0 (varText name ++ cs) = .reference name :: tokens 0 cs := by
  have hd : "$$".toList.isPrefixOf ('$' :: ('\x7b' :: name ++ ['\x7d'] ++ cs)) = false := rfl
  have hmatch : matchVar ('$' :: ('\x7b' :: name ++ ['\x7d'] ++ cs)) = some name :=
    matchVar_varText h cs
  show tokens 0 ('$' :: ('\x7b' :: name ++ ['\x7d'] ++ cs)) = _
  rw [tokens, hd, hmatch]
  exact congrArg (Token.reference name :: ·) (skip_varText (fun _ _ _ => rfl) name cs)

theorem tokens_char {c : Char} {cs : List Char} (h : "$$".toList.isPrefixOf (c :: cs) = false)
    (hmatch : matchVar (c :: cs) = none) : tokens 0 (c :: cs) = .char c :: tokens 0 cs := by
  rw [tokens, h, hmatch]
  rfl

/-- **Induction along the scan**: a text is empty, or starts with `$$`, or
with a reference, or with a character that is neither. -/
@[elab_as_elim]
theorem scan_induct {P : List Char → Prop} (nil : P [])
    (dollar : ∀ cs, P cs → P ('$' :: '$' :: cs))
    (reference : ∀ name cs, IsVarName name → P cs → P (varText name ++ cs))
    (char : ∀ c cs, "$$".toList.isPrefixOf (c :: cs) = false → matchVar (c :: cs) = none →
      P cs → P (c :: cs))
    (cs : List Char) : P cs := by
  induction hn : cs.length using Nat.strong_induction_on generalizing cs with
  | _ n ih =>
    subst hn
    cases cs with
    | nil => exact nil
    | cons c cs =>
      by_cases hd : "$$".toList.isPrefixOf (c :: cs) = true
      · obtain ⟨rest, hrest⟩ := List.isPrefixOf_iff_prefix.mp hd
        rw [← hrest]
        refine dollar rest (ih rest.length ?_ rest rfl)
        rw [← hrest, List.length_append]
        exact Nat.lt_add_of_pos_left Nat.two_pos
      · cases hm : matchVar (c :: cs) with
        | none => exact char c cs (eq_false_of_ne_true hd) hm (ih cs.length (by simp) cs rfl)
        | some name =>
          obtain ⟨hname, rest, hrest⟩ := matchVar_eq_some_iff.mp hm
          rw [← hrest]
          refine reference name rest hname (ih rest.length ?_ rest rfl)
          rw [← hrest, List.length_append]
          exact Nat.lt_add_of_pos_left (by simp [varText])

/-- **The scan loses nothing**: its tokens spell the text. -/
theorem flatMap_text_tokens (cs : List Char) : (tokens 0 cs).flatMap Token.text = cs := by
  induction cs using scan_induct with
  | nil => rfl
  | dollar cs ih => rw [tokens_dollar, List.flatMap_cons, ih]; rfl
  | reference name cs hname ih => rw [tokens_reference hname, List.flatMap_cons, ih]; rfl
  | char c cs hd hm ih => rw [tokens_char hd hm, List.flatMap_cons, ih]; rfl

/-! ## The first pass -/

/-- A character stays where the pattern does not start. -/
theorem replaceFrom_cons {p rep : List Char} {c : Char} {cs : List Char}
    (h : p.isPrefixOf (c :: cs) = false) :
    replaceFrom p rep 0 (c :: cs) = c :: replaceFrom p rep 0 cs := by
  rw [replaceFrom, h]
  rfl

/-- Nothing starts with a pattern that has its first character nowhere. -/
theorem replaceFrom_append_of_notMem {p : Char} {ps rep xs : List Char} (h : p ∉ xs)
    (ys : List Char) :
    replaceFrom (p :: ps) rep 0 (xs ++ ys) = xs ++ replaceFrom (p :: ps) rep 0 ys := by
  induction xs with
  | nil => rfl
  | cons x xs ih =>
    rw [List.mem_cons, not_or] at h
    have hpre : (p :: ps).isPrefixOf (x :: (xs ++ ys)) = false := by
      rw [List.isPrefixOf, beq_false_of_ne h.1, Bool.false_and]
    rw [List.cons_append, replaceFrom_cons hpre, ih h.2]
    rfl

/-- A pattern is replaced where it is written, and the replacing goes on behind
it. -/
theorem replaceFrom_append_self (p : Char) (ps rep ys : List Char) :
    replaceFrom (p :: ps) rep 0 (p :: ps ++ ys) = rep ++ replaceFrom (p :: ps) rep 0 ys := by
  have hpre : (p :: ps).isPrefixOf (p :: (ps ++ ys)) = true :=
    List.isPrefixOf_iff_prefix.mpr (List.prefix_append (p :: ps) ys)
  rw [List.cons_append, replaceFrom, hpre]
  exact congrArg _ (skip_append (fun _ _ _ => rfl) ps ys)

/-- **A reference is left where it is**, whatever `$$` is replaced by. -/
theorem replaceFrom_varText (rep : List Char) {name : List Char} (h : IsVarName name)
    (cs : List Char) :
    replaceFrom "$$".toList rep 0 (varText name ++ cs)
      = varText name ++ replaceFrom "$$".toList rep 0 cs := by
  have hmem : '$' ∉ '\x7b' :: name ++ ['\x7d'] := by simp [h.dollar_notMem]
  have hrest : replaceFrom "$$".toList rep 0 ('\x7b' :: name ++ ['\x7d'] ++ cs)
      = '\x7b' :: name ++ ['\x7d'] ++ replaceFrom "$$".toList rep 0 cs :=
    replaceFrom_append_of_notMem hmem cs
  show replaceFrom _ rep 0 ('$' :: ('\x7b' :: name ++ ['\x7d'] ++ cs)) = _
  rw [replaceFrom_cons rfl, hrest]
  rfl

/-- A text with its `$$` hidden behind the sentinel. -/
def hide (cs : List Char) : List Char := replaceFrom "$$".toList sentinel 0 cs

theorem hide_dollar (cs : List Char) : hide ('$' :: '$' :: cs) = sentinel ++ hide cs :=
  replaceFrom_append_self '$' ['$'] sentinel cs

theorem hide_cons {c : Char} {cs : List Char} (h : "$$".toList.isPrefixOf (c :: cs) = false) :
    hide (c :: cs) = c :: hide cs := replaceFrom_cons h

theorem hide_varText {name : List Char} (h : IsVarName name) (cs : List Char) :
    hide (varText name ++ cs) = varText name ++ hide cs := replaceFrom_varText sentinel h cs

/-- **Hiding `$$` changes no prefix without dollars and NULs.** -/
theorem prefix_hide_iff {p : List Char} (hdollar : '$' ∉ p) (hnul : nul ∉ p) (cs : List Char) :
    p <+: hide cs ↔ p <+: cs := by
  induction p generalizing cs with
  | nil => simp
  | cons x p ih =>
    rw [List.mem_cons, not_or] at hdollar hnul
    cases cs with
    | nil => rfl
    | cons c cs =>
      cases hd : "$$".toList.isPrefixOf (c :: cs) with
      | false =>
        rw [hide_cons hd, List.cons_prefix_cons, List.cons_prefix_cons, ih hdollar.2 hnul.2]
      | true =>
        obtain ⟨rest, hrest⟩ := List.isPrefixOf_iff_prefix.mp hd
        have hs : hide (c :: cs) = nul :: ("DOLLAR\x00".toList ++ hide rest) := by
          rw [← hrest]
          exact hide_dollar rest
        have hc : c = '$' := (List.cons.inj hrest).1.symm
        rw [hs, hc, List.cons_prefix_cons, List.cons_prefix_cons]
        exact iff_of_false (fun h => hnul.1 h.1.symm) (fun h => hdollar.1 h.1.symm)

/-- **Hiding `$$` makes no reference** where there was none: what is put in its
place begins with a NUL. -/
theorem matchVar_hide {c : Char} {cs : List Char} (hd : "$$".toList.isPrefixOf (c :: cs) = false)
    (hm : matchVar (c :: cs) = none) : matchVar (c :: hide cs) = none := by
  rw [Option.eq_none_iff_forall_ne_some] at hm ⊢
  intro name hname
  obtain ⟨hvar, hpre⟩ := matchVar_eq_some_iff.mp hname
  refine hm name (matchVar_eq_some_iff.mpr ⟨hvar, ?_⟩)
  have hdollar : '$' ∉ '\x7b' :: name ++ ['\x7d'] := by simp [hvar.dollar_notMem]
  have hnul : nul ∉ '\x7b' :: name ++ ['\x7d'] := by
    have hname : '\x00' ∉ name := fun hmem => absurd (hvar.isNameChar hmem) (by decide)
    simp [nul, hname]
  obtain ⟨rfl, hrest⟩ := List.cons_prefix_cons.mp hpre
  exact List.cons_prefix_cons.mpr ⟨rfl, (prefix_hide_iff hdollar hnul cs).mp hrest⟩

/-! ## The second pass and the third -/

theorem matchVar_of_ne {c : Char} (h : c ≠ '$') (cs : List Char) : matchVar (c :: cs) = none := by
  rw [Option.eq_none_iff_forall_ne_some]
  intro name hname
  obtain ⟨rfl, -⟩ := List.cons_prefix_cons.mp (matchVar_eq_some_iff.mp hname).2
  exact h rfl

theorem references_append_of_notMem {xs : List Char} (h : '$' ∉ xs) (ys : List Char) :
    references 0 (xs ++ ys) = references 0 ys := by
  induction xs with
  | nil => rfl
  | cons x xs ih =>
    rw [List.mem_cons, not_or] at h
    rw [List.cons_append, references, matchVar_of_ne (Ne.symm h.1), ih h.2]

theorem references_varText {name : List Char} (h : IsVarName name) (cs : List Char) :
    references 0 (varText name ++ cs) = name :: references 0 cs := by
  have hmatch : matchVar ('$' :: ('\x7b' :: name ++ ['\x7d'] ++ cs)) = some name :=
    matchVar_varText h cs
  show references 0 ('$' :: ('\x7b' :: name ++ ['\x7d'] ++ cs)) = _
  rw [references, hmatch]
  exact congrArg (name :: ·) (skip_varText (fun _ _ _ => rfl) name cs)

/-- **The references found after hiding `$$`** are those of the scan, in its
order. -/
theorem references_hide (cs : List Char) :
    references 0 (hide cs) = (tokens 0 cs).filterMap Token.name? := by
  induction cs using scan_induct with
  | nil => rfl
  | dollar cs ih =>
    rw [hide_dollar, references_append_of_notMem (by decide), ih, tokens_dollar]
    rfl
  | reference name cs hname ih =>
    rw [hide_varText hname, references_varText hname, ih, tokens_reference hname]
    rfl
  | char c cs hd hm ih =>
    rw [hide_cons hd, references, matchVar_hide hd hm, tokens_char hd hm]
    exact ih

section Resolve

variable (environ : Environ)

theorem resolveFrom_append_of_notMem {xs : List Char} (h : '$' ∉ xs) (ys : List Char) :
    resolveFrom environ 0 (xs ++ ys) = xs ++ resolveFrom environ 0 ys := by
  induction xs with
  | nil => rfl
  | cons x xs ih =>
    rw [List.mem_cons, not_or] at h
    rw [List.cons_append, resolveFrom, matchVar_of_ne (Ne.symm h.1), ih h.2]
    rfl

theorem resolveFrom_varText {name : List Char} (h : IsVarName name) (cs : List Char) :
    resolveFrom environ 0 (varText name ++ cs)
      = (Token.reference name).value environ ++ resolveFrom environ 0 cs := by
  have hmatch : matchVar ('$' :: ('\x7b' :: name ++ ['\x7d'] ++ cs)) = some name :=
    matchVar_varText h cs
  show resolveFrom environ 0 ('$' :: ('\x7b' :: name ++ ['\x7d'] ++ cs)) = _
  rw [resolveFrom, hmatch]
  exact congrArg _ (skip_varText (fun _ _ _ => rfl) name cs)

end Resolve

/-- What a reference becomes holds no NUL: neither a value nor a name does. -/
theorem nul_notMem_value (environ : OsEnviron) {name : List Char} (h : IsVarName name) :
    nul ∉ (Token.reference name).value environ.get := by
  rw [Token.value]
  cases hv : environ.get (String.ofList name) with
  | some v => exact environ.nul_notMem _ v hv
  | none =>
    have hname : '\x00' ∉ name := fun hmem => absurd (h.isNameChar hmem) (by decide)
    simp [varText, nul, hname]

/-- **Three passes make one scan**, on a text without NUL. -/
theorem unhide_resolve_hide (environ : OsEnviron) {cs : List Char} (h : nul ∉ cs) :
    replaceFrom sentinel "$".toList 0 (resolveFrom environ.get 0 (hide cs))
      = (tokens 0 cs).flatMap (Token.value environ.get) := by
  induction cs using scan_induct with
  | nil => rfl
  | dollar cs ih =>
    have hcs : nul ∉ cs := fun hmem => h (List.mem_cons_of_mem _ (List.mem_cons_of_mem _ hmem))
    rw [hide_dollar, resolveFrom_append_of_notMem _ (by decide), tokens_dollar, List.flatMap_cons,
      ← ih hcs]
    exact replaceFrom_append_self nul "DOLLAR\x00".toList "$".toList _
  | reference name cs hname ih =>
    have hcs : nul ∉ cs := fun hmem => h (List.mem_append_right _ hmem)
    rw [hide_varText hname, resolveFrom_varText _ hname, tokens_reference hname,
      List.flatMap_cons, ← ih hcs]
    exact replaceFrom_append_of_notMem (nul_notMem_value environ hname) _
  | char c cs hd hm ih =>
    rw [List.mem_cons, not_or] at h
    have hc : nul ∉ [c] := by simpa using h.1
    rw [hide_cons hd, resolveFrom, matchVar_hide hd hm, tokens_char hd hm, List.flatMap_cons,
      ← ih h.2]
    exact replaceFrom_append_of_notMem hc _

/-! ## The whole tree -/

/-- A string is what it scans to, so the two passes of the code are one. -/
theorem substituteStr_eq_scanStr (environ : OsEnviron) {s : String} (h : nul ∉ s.toList) :
    substituteStr environ.get s = scanStr environ.get s :=
  congrArg String.ofList (unhide_resolve_hide environ h)

/-- The references it misses are the unset ones of the scan. -/
theorem missingVars_eq_unsetReferences (environ : Environ) (s : String) :
    missingVars environ s = unsetReferences environ s :=
  congrArg (List.filter _) (references_hide s.toList)

theorem scalarErrors_eq_scanErrors (environ : Environ) (sourcePath : PurePath) (a : YamlScalar) :
    scalarErrors environ sourcePath a = scanErrors environ sourcePath a := by
  cases a with
  | str s => exact congrArg _ (missingVars_eq_unsetReferences environ s)
  | _ => rfl

/-- **`_substitute` is one scan of every string**: on a tree whose strings
hold no NUL it returns the tree with every string scanned where it stands,
keys, lengths, order and other scalars as they were, and one problem for each
reference that is not set, in the order the references stand. -/
theorem substitute_eq_scan (environ : OsEnviron) (sourcePath : PurePath) (t : Yaml)
    (h : ∀ s, YamlScalar.str s ∈ t.leaves → nul ∉ s.toList) :
    substitute environ.get sourcePath t
      = (t.mapLeaves (scanScalar environ.get),
          t.leaves.flatMap (scanErrors environ.get sourcePath)) := by
  refine Prod.ext ?_ ?_
  · rw [substitute_fst]
    refine DocTree.mapLeaves_congr fun a ha => ?_
    cases a with
    | str s => exact congrArg YamlScalar.str (substituteStr_eq_scanStr environ (h s ha))
    | _ => rfl
  · rw [substitute_snd]
    exact congrArg (fun f => t.leaves.flatMap f)
      (funext fun a => scalarErrors_eq_scanErrors environ.get sourcePath a)

/-- A process environment in which `X` looks like a reference itself. -/
def sampleEnviron : OsEnviron where
  get name := if name = "X" then some "$\x7bY\x7d$$" else none
  nul_notMem name value h := by
    split at h
    · rw [← Option.some.inj h]
      decide
    · cases h

/-- Dollars in a row, a value that looks like a reference and one that is not
set. -/
theorem substitute_sample :
    substitute sampleEnviron.get (PurePath.ofString "c.yaml")
        (.map [(.str "$\x7bX\x7d", .list [.leaf (.int 3), .leaf (.str "$$$\x7bX\x7d$\x7bY\x7d$")])])
      = (.map [(.str "$\x7bX\x7d",
            .list [.leaf (.int 3), .leaf (.str "$$\x7bY\x7d$$$\x7bY\x7d$")])],
          [⟨"c.yaml", "", "Y not set in environment"⟩]) := by
  refine (substitute_eq_scan sampleEnviron _ _ fun s hs => ?_).trans (by decide)
  have hs' : s = "$$$\x7bX\x7d$\x7bY\x7d$" := by
    simpa [DocTree.leaves, DocTree.leavesMap, DocTree.leavesList] using hs
  rw [hs']
  decide
