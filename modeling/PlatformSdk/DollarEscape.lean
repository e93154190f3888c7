import PlatformSdk.Substitution

/-!
# Texts that are taken literally

In a configuration file `$$` stands for a dollar, so a text with its dollars
doubled is to come out of `_substitute` as it was. The dollars come out, and
no reference is left to resolve. But `$$` is hidden behind a sentinel, and the
sentinel is a text like any other: the comment at its definition holds that no
scalar has a NUL in it, and a double-quoted scalar may spell one as `\0`.

`substitute_escapeDollars_iff` says which texts are lost: those with the
sentinel in them, and those with all of the sentinel but its last character
before a dollar, which is hidden behind a NUL of its own.
-/

/-- A text with every dollar spelled in another way. -/
def dollarsAs (rep cs : List Char) : List Char := cs.flatMap (fun c => if c = '$' then rep else [c])

/-- **`s.replace("$", "$$")`**, the way to write a text literally. -/
def escapeDollars (s : String) : String := String.ofList (dollarsAs "$$".toList s.toList)

/-- The sentinel between its first character and its last. -/
def sentinelBody : List Char := "DOLLAR".toList

/-- **A text the sentinel is taken for**: the sentinel is in it, or is in it
but for its last character, with a dollar in that place. -/
def CollidesWithSentinel (cs : List Char) : Prop :=
  nul :: sentinelBody ++ [nul] <:+: cs ∨ nul :: sentinelBody ++ ['$'] <:+: cs

theorem dollarsAs_dollar (rep cs : List Char) :
    dollarsAs rep ('$' :: cs) = rep ++ dollarsAs rep cs := rfl

theorem dollarsAs_cons {c : Char} (h : c ≠ '$') (rep cs : List Char) :
    dollarsAs rep (c :: cs) = c :: dollarsAs rep cs := by
  rw [dollarsAs, List.flatMap_cons, if_neg h]
  rfl

/-- **Hiding the `$$` of a doubled text hides its dollars.** -/
theorem hide_dollarsAs (cs : List Char) :
    hide (dollarsAs "$$".toList cs) = dollarsAs sentinel cs := by
  induction cs with
  | nil => rfl
  | cons c cs ih =>
    by_cases h : c = '$'
    · subst h
      show hide ('$' :: '$' :: dollarsAs "$$".toList cs) = _
      rw [hide_dollar, ih, dollarsAs_dollar]
    · have hpre : "$$".toList.isPrefixOf (c :: dollarsAs "$$".toList cs) = false := by
        show (('$' == c) && _) = false
        rw [beq_false_of_ne (Ne.symm h), Bool.false_and]
      rw [dollarsAs_cons h, hide_cons hpre, ih, dollarsAs_cons h]

/-- Then no dollar is left, where the text that takes the place of each pair has
none. -/
theorem dollar_notMem_dollarsAs {rep : List Char} (hrep : '$' ∉ rep) (cs : List Char) :
    '$' ∉ dollarsAs rep cs := by
  rw [dollarsAs, List.mem_flatMap]
  rintro ⟨c, -, hc⟩
  split at hc
  · exact hrep hc
  · next h => exact h (List.mem_singleton.mp hc).symm

/-- **What a hidden dollar looks like from before**: a NUL behind a text is one
of the text's own, or a dollar's. -/
theorem prefix_dollarsAs_iff {p : List Char} (hdollar : '$' ∉ p) (hnul : nul ∉ p)
    (cs : List Char) :
    p ++ [nul] <+: dollarsAs sentinel cs ↔ p ++ [nul] <+: cs ∨ p ++ ['$'] <+: cs := by
  induction p generalizing cs with
  | nil =>
    cases cs with
    | nil => simp [dollarsAs]
    | cons c cs =>
      by_cases h : c = '$'
      · subst h
        exact iff_of_true ⟨_, rfl⟩ (Or.inr ⟨cs, rfl⟩)
      · have hne : '$' ≠ c := Ne.symm h
        rw [dollarsAs_cons h]
        simp [List.cons_prefix_cons, hne]
  | cons x p ih =>
    rw [List.mem_cons, not_or] at hdollar hnul
    cases cs with
    | nil => simp [dollarsAs]
    | cons c cs =>
      by_cases h : c = '$'
      · subst h
        have hx : x ≠ '$' := Ne.symm hdollar.1
        have hx' : x ≠ nul := Ne.symm hnul.1
        have hs : dollarsAs sentinel ('$' :: cs)
            = nul :: ("DOLLAR\x00".toList ++ dollarsAs sentinel cs) := rfl
        rw [hs]
        simp [List.cons_prefix_cons, hx, hx']
      · rw [dollarsAs_cons h, List.cons_append, List.cons_append, List.cons_prefix_cons,
          List.cons_prefix_cons, List.cons_prefix_cons, ih hdollar.2 hnul.2]
        exact and_or_left

/-- **Where the sentinel is found too early**: at a NUL that is followed by the
rest of the sentinel, its last character being hidden or not. -/
theorem sentinel_prefix_iff (c : Char) (cs : List Char) :
    sentinel <+: c :: dollarsAs sentinel cs
      ↔ nul :: sentinelBody ++ [nul] <+: c :: cs ∨ nul :: sentinelBody ++ ['$'] <+: c :: cs := by
  have hcons : ∀ p ds : List Char, nul :: p <+: c :: ds ↔ nul = c ∧ p <+: ds :=
    fun _ _ => List.cons_prefix_cons
  show nul :: (sentinelBody ++ [nul]) <+: _ ↔ _
  rw [List.cons_append, List.cons_append, hcons, hcons, hcons,
    prefix_dollarsAs_iff (by decide) (by decide)]
  exact and_or_left

theorem collidesWithSentinel_cons_iff (c : Char) (cs : List Char) :
    CollidesWithSentinel (c :: cs)
      ↔ (nul :: sentinelBody ++ [nul] <+: c :: cs ∨ nul :: sentinelBody ++ ['$'] <+: c :: cs)
        ∨ CollidesWithSentinel cs := by
  unfold CollidesWithSentinel
  rw [List.infix_cons_iff, List.infix_cons_iff]
  exact or_or_or_comm

/-- **When the hidden dollars come out again**: exactly when the text has not
the sentinel in it, whole or up to a dollar. -/
theorem unhide_dollarsAs_iff (cs : List Char) :
    replaceFrom sentinel "$".toList 0 (dollarsAs sentinel cs) = cs ↔ ¬ CollidesWithSentinel cs := by
  induction cs with
  | nil => exact iff_of_true rfl (by simp [CollidesWithSentinel])
  | cons c cs ih =>
    rw [collidesWithSentinel_cons_iff, not_or, ← ih]
    by_cases h : c = '$'
    · subst h
      have hunhide : replaceFrom sentinel "$".toList 0 (sentinel ++ dollarsAs sentinel cs)
          = "$".toList ++ replaceFrom sentinel "$".toList 0 (dollarsAs sentinel cs) :=
        replaceFrom_append_self nul "DOLLAR\x00".toList "$".toList _
      have hnone : ¬ (nul :: sentinelBody ++ [nul] <+: '$' :: cs
          ∨ nul :: sentinelBody ++ ['$'] <+: '$' :: cs) := by
        simp [nul]
      rw [dollarsAs_dollar, hunhide, and_iff_right hnone]
      exact List.cons_inj_right '$'
    · rw [dollarsAs_cons h, ← sentinel_prefix_iff]
      by_cases hpre : sentinel <+: c :: dollarsAs sentinel cs
      · -- what is taken for the sentinel becomes a dollar, and was none
        rw [replaceFrom, if_pos (List.isPrefixOf_iff_prefix.mpr hpre)]
        refine iff_of_false (fun heq => ?_) (fun hand => hand.1 hpre)
        exact h (List.cons.inj heq).1.symm
      · have hpre' : ¬ sentinel.isPrefixOf (c :: dollarsAs sentinel cs) = true :=
          fun hp => hpre (List.isPrefixOf_iff_prefix.mp hp)
        rw [replaceFrom, if_neg hpre', and_iff_right hpre]
        exact List.cons_inj_right c

/-- A doubled text with its `$$` out of the way. -/
theorem protect_escapeDollars (s : String) :
    protect (escapeDollars s) = dollarsAs sentinel s.toList :=
  (congrArg hide String.toList_ofList).trans (hide_dollarsAs s.toList)

/-- No reference is left in it to resolve. -/
theorem resolveFrom_dollarsAs (environ : Environ) (cs : List Char) :
    resolveFrom environ 0 (dollarsAs sentinel cs) = dollarsAs sentinel cs := by
  have h := resolveFrom_append_of_notMem environ
    (dollar_notMem_dollarsAs (show '$' ∉ sentinel by decide) cs) []
  rw [List.append_nil] at h
  exact h.trans (List.append_nil _)

/-- So no reference is missed: behind a doubled dollar none begins. -/
theorem missingVars_escapeDollars (environ : Environ) (s : String) :
    missingVars environ (escapeDollars s) = [] := by
  have h := references_append_of_notMem
    (dollar_notMem_dollarsAs (show '$' ∉ sentinel by decide) s.toList) []
  rw [List.append_nil] at h
  rw [missingVars, protect_escapeDollars, h]
  rfl

/-- **Which texts can be written literally.** A text with its dollars doubled
comes out of `_substitute` as it was, and with no error, exactly when the
sentinel is not in it, whole or up to a dollar. -/
theorem substitute_escapeDollars_iff (environ : Environ) (sourcePath : PurePath) (s : String) :
    substitute environ sourcePath (.leaf (.str (escapeDollars s))) = (.leaf (.str s), [])
      ↔ ¬ CollidesWithSentinel s.toList := by
  have herrors : scalarErrors environ sourcePath (.str (escapeDollars s)) = [] := by
    rw [scalarErrors, missingVars_escapeDollars]
    rfl
  have hstr : substituteStr environ (escapeDollars s)
      = String.ofList (replaceFrom sentinel "$".toList 0 (dollarsAs sentinel s.toList)) := by
    rw [substituteStr, protect_escapeDollars, resolveFrom_dollarsAs]
  rw [← unhide_dollarsAs_iff, substitute, herrors, substituteScalar, hstr]
  constructor
  · intro h
    have hs := YamlScalar.str.inj (DocTree.leaf.inj (Prod.mk.inj h).1)
    rw [← String.toList_ofList (l := replaceFrom _ _ _ _), hs]
  · intro h
    rw [h, String.ofList_toList]

/-- **The sentinel is read as a dollar**, wherever it comes from. -/
theorem not_substitute_escapeDollars :
    substitute (fun _ => none) (PurePath.ofString "default.yaml")
        (.leaf (.str (escapeDollars "\x00DOLLAR\x00"))) = (.leaf (.str "$"), [])
      ∧ substitute (fun _ => none) (PurePath.ofString "default.yaml")
        (.leaf (.str (escapeDollars "\x00DOLLAR\x00"))) ≠ (.leaf (.str "\x00DOLLAR\x00"), []) := by
  decide

/-- Where no dollar comes out, no sentinel was found. -/
theorem replaceFrom_of_dollar_notMem {cs : List Char}
    (h : '$' ∉ replaceFrom sentinel "$".toList 0 cs) :
    replaceFrom sentinel "$".toList 0 cs = cs ∧ ¬ sentinel <:+: cs := by
  induction cs with
  | nil => exact ⟨rfl, by decide⟩
  | cons c cs ih =>
    rw [replaceFrom] at h ⊢
    by_cases hpre : sentinel.isPrefixOf (c :: cs) = true
    · rw [if_pos hpre] at h
      exact absurd List.mem_cons_self h
    · rw [if_neg hpre, List.mem_cons, not_or] at h
      obtain ⟨heq, hinfix⟩ := ih h.2
      rw [if_neg hpre, heq, List.infix_cons_iff, not_or]
      exact ⟨rfl, fun hp => hpre (List.isPrefixOf_iff_prefix.mpr hp), hinfix⟩

/-- **No text at all is read as the sentinel**, whatever the environment. -/
theorem substituteStr_ne_sentinel (environ : Environ) (s : String) :
    (substituteStr environ s).toList ≠ sentinel := by
  intro h
  rw [substituteStr, String.toList_ofList] at h
  obtain ⟨heq, hinfix⟩ := replaceFrom_of_dollar_notMem (by rw [h]; decide)
  rw [h] at heq
  rw [← heq] at hinfix
  exact hinfix List.infix_rfl
