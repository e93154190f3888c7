import Mathlib.Data.List.Basic

/-!
# The path of a URL

How a text is read as the path of a URL: it ends before the first `?` or `#`,
its segments are what is between slashes, segments `.` and `..` are resolved
and go, and in what is left `%` and two hexadecimal digits stand for a byte,
the bytes being UTF-8. A character that is none of the delimiters and begins no
escape stands for itself.

`decodeSegment_eq_self_iff` says which segments stand for themselves, and
`eq_of_decodeSegment` what follows of a segment that was cut out of a text and
stands for all of it: nothing was cut. An escape is shorter than what it stands
for, and a part is shorter than the whole, so it is the bytes that are counted.
-/

namespace UrlPath

/-! ## Bytes -/

/-- The UTF-8 bytes of a text. -/
def utf8Bytes (cs : List Char) : List UInt8 := cs.flatMap String.utf8EncodeChar

theorem utf8Bytes_cons (c : Char) (cs : List Char) :
    utf8Bytes (c :: cs) = String.utf8EncodeChar c ++ utf8Bytes cs := rfl

theorem toList_toUTF8 (s : String) : s.toUTF8.data.toList = utf8Bytes s.toList := by
  conv => lhs; rw [← String.ofList_toList (s := s)]
  show (utf8Bytes s.toList).toByteArray.data.toList = _
  rw [List.data_toByteArray]

theorem length_utf8EncodeChar_pos (c : Char) : 0 < (String.utf8EncodeChar c).length := by
  rw [String.length_utf8EncodeChar]
  exact c.utf8Size_pos

/-- A part has no more bytes than the whole. -/
theorem length_utf8Bytes_le {xs ys : List Char} (h : xs.Sublist ys) :
    (utf8Bytes xs).length ≤ (utf8Bytes ys).length := by
  induction h with
  | slnil => exact Nat.le_refl _
  | cons c _ ih =>
    rw [utf8Bytes_cons, List.length_append]
    omega
  | cons_cons c _ ih =>
    rw [utf8Bytes_cons, utf8Bytes_cons, List.length_append, List.length_append]
    omega

/-- **With as many bytes it is the whole**: a part of a text that leaves out a
character has fewer. -/
theorem eq_of_sublist_of_length_le {xs ys : List Char} (h : xs.Sublist ys)
    (hlength : (utf8Bytes ys).length ≤ (utf8Bytes xs).length) : xs = ys := by
  induction h with
  | slnil => rfl
  | cons c hsub _ =>
    have hle := length_utf8Bytes_le hsub
    have hpos := length_utf8EncodeChar_pos c
    rw [utf8Bytes_cons, List.length_append] at hlength
    omega
  | cons_cons c _ ih =>
    rw [utf8Bytes_cons, utf8Bytes_cons, List.length_append, List.length_append] at hlength
    rw [ih (by omega)]

/-! ## Escapes -/

/-- A hexadecimal digit, in either case. -/
def isHex (c : Char) : Bool :=
  c.isDigit || (97 ≤ c.toNat && c.toNat ≤ 102) || (65 ≤ c.toNat && c.toNat ≤ 70)

/-- Its value. -/
def hexValue (c : Char) : ℕ := if c.isDigit then c.toNat - 48 else c.toNat % 32 + 9

/-- **The bytes a segment stands for.** -/
def percentBytes : List Char → List UInt8
  | [] => []
  | c :: a :: b :: cs =>
    if c == '%' && isHex a && isHex b then
      UInt8.ofNat (16 * hexValue a + hexValue b) :: percentBytes cs
    else String.utf8EncodeChar c ++ percentBytes (a :: b :: cs)
  | c :: cs => String.utf8EncodeChar c ++ percentBytes cs

/-- Whether there is an escape in a segment. -/
def hasEscape : List Char → Bool
  | c :: a :: b :: cs => (c == '%' && isHex a && isHex b) || hasEscape (a :: b :: cs)
  | _ => false

/-- **What a segment stands for**, if its bytes are UTF-8. -/
def decodeSegment (cs : List Char) : Option String :=
  String.fromUTF8? ⟨(percentBytes cs).toArray⟩

/-- **Reading a segment is reading its bytes**: escapes stand for one byte each,
and the bytes for characters. -/
theorem decodeSegment_eq_some_iff (cs : List Char) (s : String) :
    decodeSegment cs = some s ↔ percentBytes cs = utf8Bytes s.toList := by
  rw [decodeSegment, ← toList_toUTF8]
  constructor
  · intro h
    unfold String.fromUTF8? at h
    split at h
    · obtain rfl := Option.some.inj h
      rfl
    · cases h
  · intro h
    have hbytes : (⟨(percentBytes cs).toArray⟩ : ByteArray) = s.toUTF8 := by
      rw [h, Array.toArray_toList]
    rw [hbytes]
    exact dif_pos s.isValidUTF8

/-- An escape has three bytes or more and stands for one. -/
theorem length_escape (c a b : Char) (cs : List Char) :
    (utf8Bytes cs).length + 3 ≤ (utf8Bytes (c :: a :: b :: cs)).length := by
  have hc := length_utf8EncodeChar_pos c
  have ha := length_utf8EncodeChar_pos a
  have hb := length_utf8EncodeChar_pos b
  simp only [utf8Bytes_cons, List.length_append]
  omega

/-- **Without escapes the bytes are those of the segment itself, and with one
they are fewer.** -/
theorem percentBytes_spec (cs : List Char) :
    (hasEscape cs = false → percentBytes cs = utf8Bytes cs)
      ∧ (percentBytes cs).length ≤ (utf8Bytes cs).length
      ∧ (hasEscape cs = true → (percentBytes cs).length < (utf8Bytes cs).length) := by
  fun_induction percentBytes cs with
  | case1 => exact ⟨fun _ => rfl, Nat.le_refl _, fun h => by cases h⟩
  | case2 c a b cs h ih =>
    have hlength := length_escape c a b cs
    have hesc : hasEscape (c :: a :: b :: cs) = true := by
      rw [hasEscape, h, Bool.true_or]
    simp only [List.length_cons]
    refine ⟨fun hnone => ?_, by omega, fun _ => by omega⟩
    rw [hesc] at hnone
    cases hnone
  | case3 c a b cs h ih =>
    have hesc : hasEscape (c :: a :: b :: cs) = hasEscape (a :: b :: cs) := by
      rw [hasEscape, Bool.eq_false_iff.mpr h, Bool.false_or]
    rw [hesc, utf8Bytes_cons, List.length_append, List.length_append]
    refine ⟨fun hnone => by rw [ih.1 hnone], by omega, fun hsome => ?_⟩
    have := ih.2.2 hsome
    omega
  | case4 c cs hshort ih =>
    have hnone : hasEscape cs = false ∧ hasEscape (c :: cs) = false := by
      cases cs with
      | nil => exact ⟨rfl, rfl⟩
      | cons a cs =>
        cases cs with
        | nil => exact ⟨rfl, rfl⟩
        | cons b cs => exact absurd rfl (hshort a b cs)
    have hbytes := ih.1 hnone.1
    rw [utf8Bytes_cons, hbytes]
    refine ⟨fun _ => rfl, Nat.le_refl _, fun h => ?_⟩
    rw [hnone.2] at h
    cases h

/-- **Which segments stand for themselves**: exactly those without escapes. -/
theorem decodeSegment_eq_self_iff (s : String) :
    decodeSegment s.toList = some s ↔ hasEscape s.toList = false := by
  rw [decodeSegment_eq_some_iff]
  obtain ⟨hnone, -, hsome⟩ := percentBytes_spec s.toList
  refine ⟨fun h => ?_, hnone⟩
  by_contra hesc
  have hlt := hsome (Bool.not_eq_false _ ▸ hesc)
  rw [h] at hlt
  exact Nat.lt_irrefl _ hlt

/-- **A part that stands for the whole is the whole.** -/
theorem eq_of_decodeSegment {cs : List Char} {s : String} (hsub : cs.Sublist s.toList)
    (h : decodeSegment cs = some s) : cs = s.toList := by
  refine eq_of_sublist_of_length_le hsub ?_
  rw [← (decodeSegment_eq_some_iff cs s).mp h]
  exact (percentBytes_spec cs).2.1

/-! ## Segments -/

/-- The path of a relative URL: what comes before a query and a fragment. -/
def pathPart (cs : List Char) : List Char := cs.takeWhile (fun c => c != '?' && c != '#')

/-- **Without `.` and `..`**: the first is left out, the second takes the segment
before it along. At the end either leaves a slash. -/
def removeDots (out : List (List Char)) : List (List Char) → List (List Char)
  | [] => out.reverse
  | s :: rest =>
    if s = ['.'] then
      if rest = [] then out.reverse ++ [[]] else removeDots out rest
    else if s = ['.', '.'] then
      if rest = [] then out.tail.reverse ++ [[]] else removeDots out.tail rest
    else removeDots (s :: out) rest

/-- **The segments of a URL that starts with a slash.** -/
def segments (cs : List Char) : List (List Char) :=
  removeDots [] ((pathPart cs).splitOn '/').tail

/-- A segment that is resolved. -/
def isDots (s : List Char) : Bool := s == ['.'] || s == ['.', '.']

/-- Segments that are no dots stay as they are. -/
theorem removeDots_of_forall {out rest : List (List Char)} (h : ∀ s ∈ rest, isDots s = false) :
    removeDots out rest = out.reverse ++ rest := by
  induction rest generalizing out with
  | nil => exact (List.append_nil _).symm
  | cons s rest ih =>
    have hs := h s List.mem_cons_self
    rw [isDots, Bool.or_eq_false_iff, beq_eq_false_iff_ne, beq_eq_false_iff_ne] at hs
    rw [removeDots, if_neg hs.1, if_neg hs.2, ih (fun t ht => h t (List.mem_cons_of_mem _ ht)),
      List.reverse_cons, List.append_assoc, List.singleton_append]

/-- **No segment is made up**, but for the empty one at the end. -/
theorem removeDots_sublist (out rest : List (List Char)) :
    (removeDots out rest).Sublist (out.reverse ++ rest ++ [[]]) := by
  induction rest generalizing out with
  | nil => exact List.sublist_append_of_sublist_left (List.sublist_append_left _ _)
  | cons s rest ih =>
    have hskip : (out.reverse ++ rest ++ [[]]).Sublist (out.reverse ++ s :: rest ++ [[]]) :=
      ((List.sublist_cons_self s rest).append_left _).append_right _
    have htail : (out.tail.reverse ++ rest ++ [[]]).Sublist (out.reverse ++ rest ++ [[]]) :=
      (((List.tail_sublist out).reverse).append_right _).append_right _
    rw [removeDots]
    split
    · split
      · next hrest =>
        subst hrest
        rw [List.append_nil] at hskip
        exact hskip
      · exact (ih out).trans hskip
    · split
      · split
        · next hrest =>
          subst hrest
          have h := htail.trans hskip
          rw [List.append_nil] at h
          exact h
        · exact (ih out.tail).trans (htail.trans hskip)
      · have h := ih (s :: out)
        rw [List.reverse_cons, List.append_assoc out.reverse, List.singleton_append] at h
        exact h

/-- No segment of dots is left once the path is resolved. -/
theorem isDots_of_mem_removeDots {out rest : List (List Char)}
    (hout : ∀ s ∈ out, isDots s = false) {s : List Char} (h : s ∈ removeDots out rest) :
    isDots s = false := by
  induction rest generalizing out with
  | nil => exact hout s (List.mem_reverse.mp h)
  | cons t rest ih =>
    have htail : ∀ s ∈ out.tail, isDots s = false := fun s hs => hout s (List.mem_of_mem_tail hs)
    have hend : ∀ out : List (List Char), (∀ s ∈ out, isDots s = false) →
        s ∈ out.reverse ++ [[]] → isDots s = false := by
      intro out hout h
      rcases List.mem_append.mp h with h | h
      · exact hout s (List.mem_reverse.mp h)
      · rw [List.mem_singleton.mp h]
        decide
    rw [removeDots] at h
    split at h
    · split at h
      · exact hend out hout h
      · exact ih hout h
    · next hdot =>
      split at h
      · split at h
        · exact hend out.tail htail h
        · exact ih htail h
      · next hdots =>
        refine ih (fun s hs => ?_) h
        rcases List.mem_cons.mp hs with rfl | hs
        · rw [isDots, beq_false_of_ne hdot, beq_false_of_ne hdots]
          rfl
        · exact hout s hs

/-- Where a part of a longer text comes from. -/
theorem mem_splitOn_cons {c x : Char} {xs s : List Char} (h : s ∈ (x :: xs).splitOn c) :
    s = [] ∨ s ∈ xs.splitOn c ∨ x ≠ c ∧ ∃ t ∈ xs.splitOn c, s = x :: t := by
  rw [List.splitOn_cons_eq_if_modifyHead] at h
  split at h
  · exact (List.mem_cons.mp h).imp_right .inl
  · next hx =>
    have hne : x ≠ c := fun heq => hx (by rw [heq]; exact beq_self_eq_true c)
    cases hsplit : xs.splitOn c with
    | nil => exact absurd hsplit (List.splitOn_ne_nil c xs)
    | cons t ts =>
      rw [hsplit, List.modifyHead_cons] at h
      rcases List.mem_cons.mp h with rfl | h
      · exact .inr (.inr ⟨hne, t, List.mem_cons_self, rfl⟩)
      · exact .inr (.inl (List.mem_cons_of_mem _ h))

/-- What is between separators is part of the text. -/
theorem sublist_of_mem_splitOn {c : Char} {xs s : List Char} (h : s ∈ xs.splitOn c) :
    s.Sublist xs := by
  induction xs generalizing s with
  | nil =>
    rw [show ([] : List Char).splitOn c = [[]] from rfl, List.mem_singleton] at h
    rw [h]
  | cons x xs ih =>
    rcases mem_splitOn_cons h with rfl | h | ⟨-, t, ht, rfl⟩
    · exact List.nil_sublist _
    · exact (ih h).trans (List.sublist_cons_self _ _)
    · exact (ih ht).cons_cons x

/-- And has no separator in it, as each of these ends a part. -/
theorem notMem_of_mem_splitOn {c : Char} {xs s : List Char} (h : s ∈ xs.splitOn c) : c ∉ s := by
  induction xs generalizing s with
  | nil =>
    rw [show ([] : List Char).splitOn c = [[]] from rfl, List.mem_singleton] at h
    rw [h]
    exact List.not_mem_nil
  | cons x xs ih =>
    rcases mem_splitOn_cons h with rfl | h | ⟨hx, t, ht, rfl⟩
    · exact List.not_mem_nil
    · exact ih h
    · rw [List.mem_cons, not_or]
      exact ⟨Ne.symm hx, ih ht⟩

end UrlPath
