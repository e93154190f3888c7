import Mathlib.Data.List.Infix
import PlatformSdk.Substitution

/-!
# Scaffolding a repository from a template

`platform-sdk new` copies a tree of template files and writes a name into it,
in three spellings: as it is, in capitals, and in capitalised words run
together. It does so twice over, in the contents of the files and in the names
of files and directories, and each time one spelling after the other.

A template is a text with holes. `substitute_fill` says that after the three
passes each hole has its own spelling of the name, whatever else is in the
text, as long as the text between the holes has no two opening braces in a row
and the name has none at all; `noOpen_fill` and `noPlaceholder_of_noOpen` say
that no placeholder is left then.
-/

/-! ## `_substitute` -/

/-- **The spellings of a name** that a template asks for by its placeholders. -/
inductive Spelling where
  /-- In capitals, for `NAME` in double braces. -/
  | shout
  /-- In capitalised words, for `Name`. -/
  | capWords
  /-- As it is, for `name`. -/
  | plain
  deriving DecidableEq

namespace Spelling

/-- What stands for a spelling in a template. -/
def placeholder : Spelling → List Char
  | shout => ['\x7b', '\x7b', 'N', 'A', 'M', 'E', '\x7d', '\x7d']
  | capWords => ['\x7b', '\x7b', 'N', 'a', 'm', 'e', '\x7d', '\x7d']
  | plain => ['\x7b', '\x7b', 'n', 'a', 'm', 'e', '\x7d', '\x7d']

/-- `part.capitalize()`, of ASCII. -/
def capitalize : List Char → List Char
  | [] => []
  | c :: cs => c.toUpper :: cs.map Char.toLower

/-- What a name is in a spelling. -/
def value (name : List Char) : Spelling → List Char
  | shout => (name.map Char.toUpper).map (fun c => if c = '-' then '_' else c)
  | capWords => (name.splitOn '-').flatMap capitalize
  | plain => name

/-- Every placeholder opens with two braces, so a text without these has none.
-/
theorem exists_placeholder_eq (sp : Spelling) :
    ∃ p, sp.placeholder = '\x7b' :: '\x7b' :: p := by
  cases sp <;> exact ⟨_, rfl⟩

end Spelling

/-- **`_substitute`**: one spelling after the other. -/
def substituteName (text name : List Char) : List Char :=
  replaceFrom Spelling.plain.placeholder (Spelling.plain.value name) 0
    (replaceFrom Spelling.capWords.placeholder (Spelling.capWords.value name) 0
      (replaceFrom Spelling.shout.placeholder (Spelling.shout.value name) 0 text))

/-! ## `_render_tree` -/

/-- A file of a tree: the components of its path, and its text. -/
structure TreeFile where
  path : List (List Char)
  content : List Char
  deriving DecidableEq

/-- Whether there is a placeholder in a text. -/
def hasPlaceholder (text : List Char) : Bool :=
  [Spelling.plain, .capWords, .shout].any (fun sp => decide (sp.placeholder <:+: text))

/-- What becomes of the name of a file or a directory. -/
def renameComponent (name component : List Char) : List Char :=
  if hasPlaceholder component then substituteName component name else component

/-- What becomes of a file: its content is rewritten, and then every name on its
path. -/
def renderFile (name : List Char) (f : TreeFile) : TreeFile where
  path := f.path.map (renameComponent name)
  content := substituteName f.content name

/-- **`_render_tree`**, for a target that is there already or not. -/
def renderTree (template : List TreeFile) (target : String) (targetExists : Bool)
    (name : List Char) : Except String (List TreeFile) :=
  if targetExists then .error (target ++ " already exists; refusing to overwrite.")
  else .ok (template.map (renderFile name))

/-! ## Texts with holes -/

/-- A piece of a template: text, or a hole for a spelling. -/
inductive Piece where
  | lit (s : String)
  | hole (sp : Spelling)
  deriving DecidableEq

/-- A piece with the holes filled in some way. -/
def Piece.fill (v : Spelling → List Char) : Piece → List Char
  | .lit s => s.toList
  | .hole sp => v sp

/-- **The text of a template**, with the placeholders in its holes. -/
def templateText (ps : List Piece) : List Char := ps.flatMap (Piece.fill Spelling.placeholder)

/-- No opening brace has another one, or nothing, behind it. -/
def noOpen : List Char → Bool
  | [] => true
  | c :: cs => (c != '\x7b' || cs.head?.any (· != '\x7b')) && noOpen cs

/-- The text between the holes is harmless. -/
def Piece.isClean : Piece → Bool
  | .lit s => noOpen s.toList
  | .hole _ => true

theorem noOpen_of_notMem {cs : List Char} (h : '\x7b' ∉ cs) : noOpen cs = true := by
  induction cs with
  | nil => rfl
  | cons c cs ih =>
    rw [List.mem_cons, not_or] at h
    rw [noOpen, ih h.2, Bool.and_true, Bool.or_eq_true]
    exact .inl (bne_iff_ne.mpr (Ne.symm h.1))

theorem noOpen_append {xs ys : List Char} (hx : noOpen xs = true) (hy : noOpen ys = true) :
    noOpen (xs ++ ys) = true := by
  induction xs with
  | nil => exact hy
  | cons c xs ih =>
    rw [noOpen, Bool.and_eq_true] at hx
    rw [List.cons_append, noOpen, ih hx.2, Bool.and_true]
    cases xs with
    | nil =>
      have hc : (c != '\x7b') = true := by simpa using hx.1
      rw [hc, Bool.true_or]
    | cons d xs => exact hx.1

/-- And no placeholder is in a harmless text, as each opens with two braces. -/
theorem not_infix_of_noOpen {cs : List Char} (h : noOpen cs = true) (sp : Spelling) :
    ¬ sp.placeholder <:+: cs := by
  obtain ⟨p, hp⟩ := sp.exists_placeholder_eq
  rw [hp]
  induction cs with
  | nil => exact fun hin => by simpa using hin.length_le
  | cons c cs ih =>
    rw [noOpen, Bool.and_eq_true] at h
    rw [List.infix_cons_iff]
    rintro (hpre | hin)
    · obtain ⟨rfl, hrest⟩ := List.cons_prefix_cons.mp hpre
      cases cs with
      | nil => simpa using hrest.length_le
      | cons d cs =>
        obtain ⟨rfl, -⟩ := List.cons_prefix_cons.mp hrest
        exact Bool.noConfusion (show false = true from h.1)
    · exact ih h.2 hin

/-- **A harmless text is passed over**: the search for a placeholder goes on
behind it as if it had begun there. -/
theorem replaceFrom_append_of_noOpen (sp : Spelling) (rep : List Char) {xs : List Char}
    (h : noOpen xs = true) (ys : List Char) :
    replaceFrom sp.placeholder rep 0 (xs ++ ys) = xs ++ replaceFrom sp.placeholder rep 0 ys := by
  obtain ⟨p, hp⟩ := sp.exists_placeholder_eq
  rw [hp]
  induction xs with
  | nil => rfl
  | cons c xs ih =>
    rw [noOpen, Bool.and_eq_true] at h
    have hpre : ('\x7b' :: '\x7b' :: p).isPrefixOf (c :: (xs ++ ys)) = false := by
      rw [← Bool.not_eq_true, List.isPrefixOf_iff_prefix]
      intro hpre
      obtain ⟨rfl, hrest⟩ := List.cons_prefix_cons.mp hpre
      cases xs with
      | nil => exact absurd h.1 (by decide)
      | cons d xs =>
        obtain ⟨rfl, -⟩ := List.cons_prefix_cons.mp hrest
        exact Bool.noConfusion (show false = true from h.1)
    rw [List.cons_append, replaceFrom_cons hpre, ih h.2]
    rfl

/-- A placeholder is replaced where it stands. -/
theorem replaceFrom_placeholder_self (sp : Spelling) (rep ys : List Char) :
    replaceFrom sp.placeholder rep 0 (sp.placeholder ++ ys)
      = rep ++ replaceFrom sp.placeholder rep 0 ys := by
  obtain ⟨p, hp⟩ := sp.exists_placeholder_eq
  rw [hp]
  exact replaceFrom_append_self _ _ _ _

/-- The placeholder of another spelling is not taken for it. -/
theorem replaceFrom_placeholder_of_ne {sp sp' : Spelling} (h : sp' ≠ sp) (rep ys : List Char) :
    replaceFrom sp.placeholder rep 0 (sp'.placeholder ++ ys)
      = sp'.placeholder ++ replaceFrom sp.placeholder rep 0 ys := by
  cases sp <;> cases sp' <;> first | exact absurd rfl h | rfl

/-- **One pass fills the holes of one spelling**, and leaves the other pieces
alone: none of them holds a brace that could start a placeholder. -/
theorem replaceFrom_fill {sp : Spelling} {v : Spelling → List Char}
    (hv : ∀ sp', v sp' = sp'.placeholder ∨ '\x7b' ∉ v sp') (hsp : v sp = sp.placeholder)
    (rep : List Char) {ps : List Piece} (hclean : ∀ p ∈ ps, p.isClean = true) :
    replaceFrom sp.placeholder rep 0 (ps.flatMap (Piece.fill v))
      = ps.flatMap (Piece.fill (fun sp' => if sp' = sp then rep else v sp')) := by
  induction ps with
  | nil => rfl
  | cons p ps ih =>
    have ih' := ih (fun q hq => hclean q (List.mem_cons_of_mem _ hq))
    rw [List.flatMap_cons, List.flatMap_cons, ← ih']
    cases p with
    | lit s => exact replaceFrom_append_of_noOpen sp rep (hclean _ List.mem_cons_self) _
    | hole sp' =>
      show replaceFrom _ rep 0 (v sp' ++ _) = (if sp' = sp then rep else v sp') ++ _
      by_cases h : sp' = sp
      · rw [if_pos h, h, hsp]
        exact replaceFrom_placeholder_self sp rep _
      · rw [if_neg h]
        rcases hv sp' with hplace | hvalue
        · rw [hplace]
          exact replaceFrom_placeholder_of_ne h rep _
        · exact replaceFrom_append_of_noOpen sp rep (noOpen_of_notMem hvalue) _

variable {name : List Char}

/-- **The three passes fill every hole with its own spelling.** -/
theorem substitute_fill (hname : ∀ sp : Spelling, '\x7b' ∉ sp.value name) {ps : List Piece}
    (hclean : ∀ p ∈ ps, p.isClean = true) :
    substituteName (templateText ps) name = ps.flatMap (Piece.fill (Spelling.value name)) := by
  have hpass : ∀ (sp : Spelling) (v : Spelling → List Char),
      (∀ sp', v sp' = sp'.placeholder ∨ v sp' = sp'.value name) → v sp = sp.placeholder →
      replaceFrom sp.placeholder (sp.value name) 0 (ps.flatMap (Piece.fill v))
        = ps.flatMap (Piece.fill (fun sp' => if sp' = sp then sp.value name else v sp')) := by
    intro sp v hv hsp
    refine replaceFrom_fill (fun sp' => (hv sp').imp_right (fun h => ?_)) hsp _ hclean
    rw [h]
    exact hname sp'
  unfold substituteName templateText
  rw [hpass .shout _ (fun _ => .inl rfl) rfl, hpass .capWords _ ?_ ?_, hpass .plain _ ?_ ?_]
  · refine congrArg (fun v => ps.flatMap (Piece.fill v)) (funext fun sp => ?_)
    cases sp <;> rfl
  · intro sp'
    cases sp' <;> first | exact .inl rfl | exact .inr rfl
  · rfl
  · intro sp'
    cases sp' <;> first | exact .inl rfl | exact .inr rfl
  · rfl

/-- A filled template is harmless, where its fixed parts are and the names put
into it have no brace. -/
theorem noOpen_fill (hname : ∀ sp : Spelling, '\x7b' ∉ sp.value name) {ps : List Piece}
    (hclean : ∀ p ∈ ps, p.isClean = true) :
    noOpen (ps.flatMap (Piece.fill (Spelling.value name))) = true := by
  induction ps with
  | nil => rfl
  | cons p ps ih =>
    rw [List.flatMap_cons]
    refine noOpen_append ?_ (ih (fun q hq => hclean q (List.mem_cons_of_mem _ hq)))
    cases p with
    | lit s => exact hclean _ List.mem_cons_self
    | hole sp => exact noOpen_of_notMem (hname sp)

/-- **No placeholder is left in a harmless text**, since every placeholder would
open with two braces. -/
theorem noPlaceholder_of_noOpen {text : List Char} (h : noOpen text = true) :
    hasPlaceholder text = false := by
  rw [hasPlaceholder, List.any_eq_false]
  intro sp _ hin
  exact not_infix_of_noOpen h sp (of_decide_eq_true hin)

/-- A name of a file is filled whether it has holes or not. -/
theorem renameComponent_templateText (hname : ∀ sp : Spelling, '\x7b' ∉ sp.value name)
    {ps : List Piece} (hclean : ∀ p ∈ ps, p.isClean = true) :
    renameComponent name (templateText ps) = ps.flatMap (Piece.fill (Spelling.value name)) := by
  by_cases h : hasPlaceholder (templateText ps) = true
  · rw [renameComponent, if_pos h, substitute_fill hname hclean]
  · rw [renameComponent, if_neg h]
    refine List.flatMap_congr (fun p hp => ?_)
    cases p with
    | lit s => rfl
    | hole sp =>
      -- a hole would be a placeholder in the text
      obtain ⟨qs, rs, rfl⟩ := List.append_of_mem hp
      have hin : sp.placeholder <:+: templateText (qs ++ Piece.hole sp :: rs) := by
        rw [templateText, List.flatMap_append, List.flatMap_cons, ← List.append_assoc]
        exact ⟨_, _, rfl⟩
      refine absurd (List.any_eq_true.mpr ⟨sp, ?_, decide_eq_true hin⟩) h
      cases sp <;> decide
