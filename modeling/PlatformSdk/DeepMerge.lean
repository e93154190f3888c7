import PlatformSdk.ConfigLoader
import PlatformSdk.Heap

/-!
# What a merged configuration says at each path

`_deep_merge` walks the overlay and recurses where both sides have a mapping.
Read path by path (`leafAt_deepMerge`), a leaf of the result is a leaf of the
overlay, or one of the base at a path the overlay neither has a value at nor
cuts short with a leaf above it. The keys of a path are what a `dict` compares
by, so that an overlay's `true` and a base's `1` are one place.

The function returns a fresh mapping and writes to that one alone. On the tree
this says nothing, so it is modelled a second time on mappings with addresses:
`deepMergeAt` copies the base and writes into the copy, entry by entry, and
`deepMergeAt_spec` says that it computes the merged tree and leaves every
mapping that was there before as it was.
-/

/-- Whether a value is a mapping. -/
def Yaml.isMap : Yaml → Bool
  | .map _ => true
  | _ => false

mutual

/-- **No key twice**, in any mapping of a document, however it is spelled. -/
def Yaml.distinct : Yaml → Bool
  | .leaf _ => true
  | .list xs => Yaml.distinctList xs
  | .map d => decide (Dict.keys (Yaml.byValue d)).Nodup && Yaml.distinctMap d

/-- The members of a list. -/
def Yaml.distinctList : List Yaml → Bool
  | [] => true
  | x :: xs => Yaml.distinct x && Yaml.distinctList xs

/-- The values of a mapping. -/
def Yaml.distinctMap : List (YamlKey × Yaml) → Bool
  | [] => true
  | (_, x) :: d => Yaml.distinct x && Yaml.distinctMap d

end

/-- **A Python mapping**: its entries, no key of which comes twice at any
level. -/
structure YamlMapping where
  /-- The entries, in insertion order. -/
  entries : Dict YamlKey Yaml
  /-- A `dict` holds a key once. -/
  distinct : Yaml.distinct (.map entries) = true

/-- **The value at a path**, each of whose keys is what a mapping compares by. -/
def Yaml.valueAt : Yaml → List KeyValue → Option Yaml
  | t, [] => some t
  | .map d, k :: p => ((Yaml.byValue d).get? k).bind fun t => Yaml.valueAt t p
  | _, _ :: _ => none

/-- **A leaf at a path**: any value there but a mapping. -/
def Yaml.LeafAt (t : Yaml) (p : List KeyValue) (v : Yaml) : Prop :=
  t.valueAt p = some v ∧ v.isMap = false

/-- A leaf of the document stands at a proper prefix of the path. -/
def Yaml.CutAt (t : Yaml) (p : List KeyValue) : Prop :=
  ∃ q v, q <+: p ∧ q ≠ p ∧ t.LeafAt q v

namespace Yaml

@[simp] theorem valueAt_nil (t : Yaml) : t.valueAt [] = some t := by cases t <;> rfl

@[simp] theorem valueAt_map_cons (d : Dict YamlKey Yaml) (k : KeyValue) (p : List KeyValue) :
    valueAt (.map d) (k :: p) = ((byValue d).get? k).bind (fun t => t.valueAt p) := rfl

/-- A leaf has nothing below it: a path that goes on at a value that is no
mapping leads nowhere. -/
theorem valueAt_cons_of_isMap {t : Yaml} (h : t.isMap = false) (k : KeyValue) (p : List KeyValue) :
    t.valueAt (k :: p) = none := by
  cases t with
  | map d => cases h
  | _ => rfl

theorem leafAt_nil_iff {t v : Yaml} : t.LeafAt [] v ↔ t = v ∧ v.isMap = false := by
  rw [LeafAt, valueAt_nil, Option.some.injEq]

/-- A leaf below a key of a mapping is one of the value there. -/
theorem leafAt_cons_iff {d : Dict YamlKey Yaml} {k : KeyValue} {p : List KeyValue} {v : Yaml} :
    LeafAt (.map d) (k :: p) v ↔ ∃ t, (byValue d).get? k = some t ∧ t.LeafAt p v := by
  rw [LeafAt, valueAt_map_cons, Option.bind_eq_some_iff]
  exact ⟨fun ⟨⟨t, ht, hv⟩, hm⟩ => ⟨t, ht, hv, hm⟩, fun ⟨t, ht, hv, hm⟩ => ⟨⟨t, ht, hv⟩, hm⟩⟩

/-- A mapping is no leaf itself, so a path through it is cut below it. -/
theorem cutAt_cons_iff {d : Dict YamlKey Yaml} {k : KeyValue} {p : List KeyValue} :
    CutAt (.map d) (k :: p) ↔ ∃ t, (byValue d).get? k = some t ∧ t.CutAt p := by
  constructor
  · rintro ⟨q, v, hpre, hne, hleaf⟩
    cases q with
    | nil =>
      obtain ⟨rfl, hm⟩ := leafAt_nil_iff.mp hleaf
      cases hm
    | cons k' q =>
      obtain ⟨rfl, hq⟩ := List.cons_prefix_cons.mp hpre
      obtain ⟨t, ht, hleaf⟩ := leafAt_cons_iff.mp hleaf
      exact ⟨t, ht, q, v, hq, fun e => hne (e ▸ rfl), hleaf⟩
  · rintro ⟨t, ht, q, v, hpre, hne, hleaf⟩
    exact ⟨k :: q, v, List.cons_prefix_cons.mpr ⟨rfl, hpre⟩, fun e => hne (List.cons.inj e).2,
      leafAt_cons_iff.mpr ⟨t, ht, hleaf⟩⟩

/-- A leaf has a value at its own path only. -/
theorem leafAt_iff_of_isMap {t : Yaml} (h : t.isMap = false) {p : List KeyValue} {v : Yaml} :
    t.LeafAt p v ↔ p = [] ∧ t = v := by
  cases p with
  | nil =>
    rw [leafAt_nil_iff]
    exact ⟨fun ⟨e, _⟩ => ⟨rfl, e⟩, fun ⟨_, e⟩ => ⟨e, e ▸ h⟩⟩
  | cons k p =>
    rw [LeafAt, valueAt_cons_of_isMap h]
    exact iff_of_false (fun hv => nomatch hv.1) (fun hv => nomatch hv.1)

theorem nodup_of_distinct {d : Dict YamlKey Yaml} (h : distinct (.map d) = true) :
    (byValue d).keys.Nodup := by
  rw [distinct, Bool.and_eq_true] at h
  exact of_decide_eq_true h.1

/-- The values of a mapping without a key twice have no key twice. -/
theorem distinct_of_get? {d : Dict YamlKey Yaml} (h : distinct (.map d) = true) {k : KeyValue}
    {t : Yaml} (ht : (byValue d).get? k = some t) : t.distinct = true := by
  rw [distinct, Bool.and_eq_true] at h
  replace h := h.2
  induction d with
  | nil => cases ht
  | cons e d ih =>
    rw [distinctMap, Bool.and_eq_true] at h
    rw [byValue_cons, Dict.get?_cons] at ht
    split at ht
    · exact Option.some.inj ht ▸ h.1
    · exact ih ht h.2

end Yaml

/-! ## Path by path -/

/-- **One key of the merged mapping**: what the base has there, unless the
overlay has the key. -/
theorem get?_deepMerge {o : Dict YamlKey Yaml} (ho : (Yaml.byValue o).keys.Nodup)
    (b : Dict YamlKey Yaml) (k : KeyValue) :
    (Yaml.byValue (deepMerge b o)).get? k
      = match (Yaml.byValue o).get? k with
        | none => (Yaml.byValue b).get? k
        | some v => some (mergeValue ((Yaml.byValue b).get? k) v) := by
  induction o generalizing b with
  | nil => rw [deepMerge]; rfl
  | cons e o ih =>
    obtain ⟨k', v'⟩ := e
    rw [Yaml.byValue_cons, Dict.keys_cons, List.nodup_cons] at ho
    rw [deepMerge, ih ho.2, Yaml.byValue_put, Yaml.byValue_cons, Dict.get?_cons]
    by_cases hk : k'.value = k
    · subst hk
      rw [(Dict.get?_eq_none_iff _ k'.value).mpr ho.1, if_pos rfl]
      exact Dict.get?_set_self _ k'.value _
    · rw [if_neg hk, Dict.get?_set_of_ne _ _ (Ne.symm hk)]

/-- Anything but a mapping replaces what is there, a mapping included. -/
theorem mergeValue_of_isMap (old : Option Yaml) {v : Yaml} (h : v.isMap = false) :
    mergeValue old v = v := by
  rw [mergeValue.eq_2]
  rintro b o - rfl
  cases h

/-- A value of the overlay replaces anything but a mapping. -/
theorem mergeValue_of_forall {old : Option Yaml} (h : ∀ b, old ≠ some (.map b)) (v : Yaml) :
    mergeValue old v = v := by
  rw [mergeValue.eq_2]
  intro b o hb
  exact absurd hb (h b)

/-- **The leaves of a merged mapping** are those of the overlay, and those of
the base at which the overlay has no value and above which it has no leaf. -/
theorem leafAt_deepMerge {o : Dict YamlKey Yaml} (ho : Yaml.distinct (.map o) = true)
    (b : Dict YamlKey Yaml) (p : List KeyValue) (v : Yaml) :
    Yaml.LeafAt (.map (deepMerge b o)) p v
      ↔ Yaml.LeafAt (.map o) p v
        ∨ Yaml.LeafAt (.map b) p v ∧ Yaml.valueAt (.map o) p = none ∧ ¬ Yaml.CutAt (.map o) p := by
  induction p generalizing b o with
  | nil =>
    have hmap : ∀ d, ¬ Yaml.LeafAt (.map d) [] v := by
      intro d hd
      obtain ⟨rfl, hm⟩ := Yaml.leafAt_nil_iff.mp hd
      cases hm
    exact iff_of_false (hmap _) (fun h => h.elim (hmap o) (fun h' => hmap b h'.1))
  | cons k p ih =>
    have hkeys := Yaml.nodup_of_distinct ho
    rw [Yaml.leafAt_cons_iff, Yaml.leafAt_cons_iff, Yaml.leafAt_cons_iff, Yaml.cutAt_cons_iff,
      Yaml.valueAt_map_cons, get?_deepMerge hkeys]
    cases hok : (Yaml.byValue o).get? k with
    | none => simp
    | some w =>
      simp only [Option.some.injEq, exists_eq_left', Option.bind_some]
      cases hw : w.isMap with
      | false =>
        -- the overlay's leaf replaces, and cuts every longer path
        rw [mergeValue_of_isMap _ hw, Yaml.leafAt_iff_of_isMap hw]
        refine ⟨Or.inl, fun h => h.resolve_right ?_⟩
        rintro ⟨-, hnone, hcut⟩
        cases p with
        | nil => rw [Yaml.valueAt_nil] at hnone; cases hnone
        | cons k' p =>
          exact hcut ⟨[], w, List.nil_prefix, (List.cons_ne_nil k' p).symm,
            Yaml.leafAt_nil_iff.mpr ⟨rfl, hw⟩⟩
      | true =>
        obtain ⟨o', rfl⟩ : ∃ o', w = .map o' := by
          cases w with
          | map o' => exact ⟨o', rfl⟩
          | _ => cases hw
        by_cases hb : ∃ b', (Yaml.byValue b).get? k = some (.map b')
        · obtain ⟨b', hb'⟩ := hb
          rw [hb', mergeValue, ih (Yaml.distinct_of_get? ho hok)]
          simp
        · -- the overlay's mapping replaces, and the base has no leaf below the key
          rw [mergeValue_of_forall (fun b' h' => hb ⟨b', h'⟩)]
          refine ⟨Or.inl, fun h => h.resolve_right ?_⟩
          rintro ⟨⟨t, ht, hleaf⟩, hnone, -⟩
          have hmap : t.isMap = false := by
            cases t with
            | map b' => exact absurd ⟨b', ht⟩ hb
            | _ => rfl
          obtain ⟨rfl, -⟩ := (Yaml.leafAt_iff_of_isMap hmap).mp hleaf
          rw [Yaml.valueAt_nil] at hnone
          cases hnone

/-! ## On mappings with addresses -/

/-- The loop of `_deep_merge`: the overlay's entries, written one by one into
the copy at `out`. -/
def mergeEntries
    (merge : Heap YamlKey YamlScalar → ℕ → ℕ → Option (Heap YamlKey YamlScalar × ℕ))
    (out : ℕ) : Heap YamlKey YamlScalar → Dict YamlKey (Ref YamlKey YamlScalar) →
      Option (Heap YamlKey YamlScalar)
  | h, [] => some h
  | h, (k, v) :: entries =>
    match h[out]?.bind (fun cell => (Dict.rekey YamlKey.value cell).get? k.value), v with
    | some (.dict b), .dict o =>
      match merge h b o with
      | some (h', a) => mergeEntries merge out (h'.write YamlKey.value out k (.dict a)) entries
      | none => none
    | _, v => mergeEntries merge out (h.write YamlKey.value out k v) entries

/-- **`_deep_merge`** of the mappings at two addresses: the heap it leaves and
the address of the result, `none` when the recursion goes deeper than it may
or there is no mapping at an address. -/
def deepMergeAt : ℕ → Heap YamlKey YamlScalar → ℕ → ℕ → Option (Heap YamlKey YamlScalar × ℕ)
  | 0, _, _, _ => none
  | depth + 1, h, base, overlay =>
    match h[base]?, h[overlay]? with
    | some cell, some entries =>
      -- `out = dict(base)`
      (mergeEntries (deepMergeAt depth) h.length (h ++ [cell]) entries).map
        (fun h' => (h', h.length))
    | _, _ => none

/-- What a merge with an overlay has to do: return the merged tree, met by way
of no mapping of `S`, and leave every mapping that was there. -/
def MergesWith
    (merge : Heap YamlKey YamlScalar → ℕ → ℕ → Option (Heap YamlKey YamlScalar × ℕ))
    (o : Dict YamlKey Yaml) : Prop :=
  ∀ (h : Heap YamlKey YamlScalar) (S : Set ℕ) (base overlay : ℕ) (b : Dict YamlKey Yaml),
    (∀ a ∈ S, a < h.length) → h.Holds S (.map b) (.dict base) → h.Holds S (.map o) (.dict overlay) →
      ∃ h' a, merge h base overlay = some (h', a) ∧ h <+: h'
        ∧ h'.Holds S (.map (deepMerge b o)) (.dict a)

/-- A step of the loop, written out: both sides have a mapping, or the entry
is written as it is. -/
theorem mergeEntries_cons
    (merge : Heap YamlKey YamlScalar → ℕ → ℕ → Option (Heap YamlKey YamlScalar × ℕ))
    (out : ℕ) (h : Heap YamlKey YamlScalar) (k : YamlKey) (v : Ref YamlKey YamlScalar)
    (entries : Dict YamlKey (Ref YamlKey YamlScalar)) :
    (∃ b o, h[out]?.bind (fun cell => (Dict.rekey YamlKey.value cell).get? k.value)
          = some (.dict b)
        ∧ v = .dict o
        ∧ mergeEntries merge out h ((k, v) :: entries)
          = (merge h b o).bind (fun r =>
              mergeEntries merge out (r.1.write YamlKey.value out k (.dict r.2)) entries))
      ∨ (∀ b o, h[out]?.bind (fun cell => (Dict.rekey YamlKey.value cell).get? k.value)
          = some (.dict b) → v ≠ .dict o)
        ∧ mergeEntries merge out h ((k, v) :: entries)
          = mergeEntries merge out (h.write YamlKey.value out k v) entries := by
  by_cases hd : ∃ b o, h[out]?.bind (fun cell => (Dict.rekey YamlKey.value cell).get? k.value)
      = some (.dict b) ∧ v = .dict o
  · obtain ⟨b, o, hb, rfl⟩ := hd
    refine Or.inl ⟨b, o, hb, rfl, ?_⟩
    rw [mergeEntries.eq_2 merge out h k entries b o hb]
    cases merge h b o <;> rfl
  · refine Or.inr ⟨fun b o hb ho => hd ⟨b, o, hb, ho⟩, ?_⟩
    exact mergeEntries.eq_3 merge out h k entries v fun b o hb ho => hd ⟨b, o, hb, ho⟩

/-- Where a mapping is at an address, the value held there is a mapping. -/
theorem Heap.Holds.eq_map {h : Heap YamlKey YamlScalar} {S : Set ℕ} {t : Yaml} {a : ℕ}
    (ht : h.Holds S t (.dict a)) : ∃ d, t = .map d := by
  cases t with
  | map d => exact ⟨d, rfl⟩
  | _ => exact ht.elim

/-- What is at no address is no mapping. -/
theorem Heap.Holds.eq_dict {h : Heap YamlKey YamlScalar} {S : Set ℕ} {d : Dict YamlKey Yaml}
    {v : Ref YamlKey YamlScalar} (hv : h.Holds S (.map d) v) : ∃ a, v = .dict a := by
  cases v with
  | dict a => exact ⟨a, rfl⟩
  | _ => exact hv.elim

/-- **The loop writes the merged entries into the copy**, and touches no
mapping that was there before it. -/
theorem mergeEntries_spec
    {merge : Heap YamlKey YamlScalar → ℕ → ℕ → Option (Heap YamlKey YamlScalar × ℕ)}
    {g : Heap YamlKey YamlScalar} {S : Set ℕ} (hS : ∀ a ∈ S, a < g.length)
    {o : Dict YamlKey Yaml} (hmerge : ∀ e ∈ o, ∀ o', e.2 = .map o' → MergesWith merge o')
    {entries : Dict YamlKey (Ref YamlKey YamlScalar)} (ho : g.HoldsMap S o entries)
    {h : Heap YamlKey YamlScalar} (hgh : g <+: h) {acc : Dict YamlKey Yaml}
    {cell : Dict YamlKey (Ref YamlKey YamlScalar)} (hcell : h[g.length]? = some cell)
    (hacc : h.HoldsMap (insert g.length S) acc cell) :
    ∃ h' cell', mergeEntries merge g.length h entries = some h' ∧ g <+: h'
      ∧ h'[g.length]? = some cell' ∧ h'.HoldsMap (insert g.length S) (deepMerge acc o) cell' := by
  induction o generalizing h acc cell entries with
  | nil =>
    cases entries with
    | cons f entries => exact ho.elim
    | nil => exact ⟨h, cell, rfl, hgh, hcell, by rw [deepMerge]; exact hacc⟩
  | cons e o ih =>
    obtain ⟨k, t⟩ := e
    cases entries with
    | nil => exact ho.elim
    | cons f entries =>
      obtain ⟨l, v⟩ := f
      obtain ⟨rfl, hv, ho⟩ := ho
      have hout : g.length ∈ insert g.length S := Set.mem_insert _ _
      have hlt : g.length < h.length := (List.getElem?_eq_some_iff.mp hcell).1
      -- what the overlay holds is held after the loop has started
      have hv' : h.Holds (insert g.length S) t v :=
        hv.mono (Heap.keeps_of_prefix hgh fun a ha =>
          (Set.mem_insert_iff.mp ha).elim (fun e => Or.inr e.ge) Or.inl)
      have hrel : Option.Rel (h.Holds (insert g.length S)) ((Yaml.byValue acc).get? l.value)
          ((Dict.rekey YamlKey.value cell).get? l.value) := hacc.get? YamlKey.value l.value
      have hmerge' : ∀ e ∈ o, ∀ o', e.2 = .map o' → MergesWith merge o' :=
        fun e he => hmerge e (List.mem_cons_of_mem _ he)
      rw [deepMerge]
      obtain ⟨b, o', hb, rfl, hstep⟩ | ⟨hnot, hstep⟩ :=
        mergeEntries_cons merge g.length h l v entries
      · rw [hcell, Option.bind_some] at hb
        obtain ⟨u, rfl⟩ := hv'.eq_map
        rw [hb] at hrel
        cases hget : (Yaml.byValue acc).get? l.value with
        | none => rw [hget] at hrel; cases hrel
        | some tb =>
          rw [hget] at hrel
          obtain ⟨hrel⟩ | _ := hrel
          obtain ⟨tb, rfl⟩ := hrel.eq_map
          obtain ⟨h₁, a, h₁eq, hh₁, ha⟩ :=
            hmerge (l, .map u) List.mem_cons_self u rfl h (insert g.length S) b o' tb
              (fun a ha => (Set.mem_insert_iff.mp ha).elim (fun e => e ▸ hlt)
                (fun ha => (hS a ha).trans_le (hgh.length_le)))
              hrel hv'
          rw [hstep, h₁eq, Option.bind_some]
          have hkeep := Heap.keeps_write YamlKey.value (h := h₁) hout l (.dict a)
          have hgrow := Heap.keeps_of_prefix hh₁ (S := insert g.length S)
            (fun a ha => Or.inl ha)
          refine ih hmerge' ho (Heap.prefix_write YamlKey.value (hgh.trans hh₁) le_rfl l _) ?_
            (((hacc.mono hgrow).mono hkeep).setBy YamlKey.value l (ha.mono hkeep))
          rw [Heap.getElem?_write_self, Heap.getElem?_of_prefix hh₁ hcell, Option.map_some]
      · have hval : mergeValue ((Yaml.byValue acc).get? l.value) t = t := by
          refine mergeValue.eq_2 _ _ fun tb u htb hu => ?_
          subst hu
          obtain ⟨o', rfl⟩ := hv'.eq_dict
          rw [htb] at hrel
          cases hget : (Dict.rekey YamlKey.value cell).get? l.value with
          | none => rw [hget] at hrel; cases hrel
          | some w =>
            rw [hget] at hrel
            obtain ⟨hrel⟩ | _ := hrel
            obtain ⟨b, rfl⟩ := hrel.eq_dict
            exact hnot b o' (by rw [hcell, Option.bind_some, hget]) rfl
        have hkeep := Heap.keeps_write YamlKey.value (h := h) hout l v
        rw [hstep, hval]
        refine ih hmerge' ho (Heap.prefix_write YamlKey.value hgh le_rfl l v) ?_
          ((hacc.mono hkeep).setBy YamlKey.value l (hv'.mono hkeep))
        rw [Heap.getElem?_write_self, hcell, Option.map_some]

mutual

/-- How deep the mappings of a document are nested. -/
def Yaml.mapDepth : Yaml → ℕ
  | .map d => Yaml.mapDepthMap d + 1
  | _ => 0

/-- The deepest of the values of a mapping. -/
def Yaml.mapDepthMap : List (YamlKey × Yaml) → ℕ
  | [] => 0
  | (_, t) :: d => max (Yaml.mapDepth t) (Yaml.mapDepthMap d)

end

/-- A value of a mapping is nested less deep than the mapping. -/
theorem Yaml.mapDepth_le_of_mem {d : Dict YamlKey Yaml} {e : YamlKey × Yaml} (he : e ∈ d) :
    e.2.mapDepth ≤ Yaml.mapDepthMap d := by
  induction d with
  | nil => exact absurd he List.not_mem_nil
  | cons f d ih =>
    rw [Yaml.mapDepthMap]
    rcases List.mem_cons.mp he with rfl | he
    · exact le_max_left _ _
    · exact (ih he).trans (le_max_right _ _)

/-- **`_deep_merge` does what a merge has to**, whenever it may recurse as deep
as the overlay's mappings are nested. -/
theorem mergesWith_deepMergeAt (o : Dict YamlKey Yaml) :
    ∀ depth, Yaml.mapDepth (.map o) ≤ depth → MergesWith (deepMergeAt depth) o := by
  suffices h : ∀ t : Yaml, ∀ o, t = .map o → ∀ depth, t.mapDepth ≤ depth →
      MergesWith (deepMergeAt depth) o from h (.map o) o rfl
  intro t
  induction t using DocTree.induct with
  | leaf a => intro o ho; cases ho
  | list xs ih => intro o ho; cases ho
  | map d ih =>
    intro o ho depth hdepth
    obtain rfl := DocTree.map.inj ho
    rw [Yaml.mapDepth] at hdepth
    cases depth with
    | zero => exact absurd hdepth (Nat.not_succ_le_zero _)
    | succ depth =>
      have hsub : ∀ e ∈ d, ∀ o', e.2 = .map o' → MergesWith (deepMergeAt depth) o' :=
        fun e he o' ho' => ih e he o' ho' depth
          ((Yaml.mapDepth_le_of_mem he).trans (Nat.le_of_succ_le_succ hdepth))
      rintro h S base overlay b hS ⟨hbase, cell, hcell, hb⟩ ⟨-, entries, hentries, hd⟩
      have hpre : h <+: h ++ [cell] := List.prefix_append _ _
      have hlen : h.length ∉ S := fun hmem => (hS _ hmem).ne rfl
      have hcopy : (h ++ [cell])[h.length]? = some cell := by simp
      have hgrow : Heap.Keeps h S (h ++ [cell]) (insert h.length S) :=
        Heap.keeps_of_prefix hpre fun a ha =>
          (Set.mem_insert_iff.mp ha).elim (fun e => Or.inr e.ge) Or.inl
      obtain ⟨h', cell', heq, hh', hcell', hmap⟩ :=
        mergeEntries_spec hS hsub hd hpre hcopy (hb.mono hgrow)
      refine ⟨h', h.length, ?_, hh', hlen, cell', hcell', hmap.mono fun a c ha hc => ?_⟩
      · rw [deepMergeAt, hcell, hentries]
        show (mergeEntries _ _ _ _).map _ = _
        rw [heq]
        rfl
      · exact ⟨fun haS => ha (Set.mem_insert_of_mem _ haS), hc⟩

/-- **What a merge returns and what it leaves alone.** A leaf is at a path of
the merged mapping exactly when it is one of the overlay there, or one of the
base and the overlay has no value there and no leaf above; and the call on the
two objects returns an object that is this mapping, every object there was
before being as it was. -/
theorem deepMerge_spec (base overlay : YamlMapping) :
    (∀ p v, Yaml.LeafAt (.map (deepMerge base.entries overlay.entries)) p v
        ↔ Yaml.LeafAt (.map overlay.entries) p v
          ∨ Yaml.LeafAt (.map base.entries) p v
            ∧ Yaml.valueAt (.map overlay.entries) p = none
            ∧ ¬ Yaml.CutAt (.map overlay.entries) p)
      ∧ ∀ (h : Heap YamlKey YamlScalar) (a₁ a₂ : ℕ),
          h.Holds ∅ (.map base.entries) (.dict a₁) →
          h.Holds ∅ (.map overlay.entries) (.dict a₂) →
          ∀ depth, Yaml.mapDepth (.map overlay.entries) ≤ depth →
            ∃ h' a, deepMergeAt depth h a₁ a₂ = some (h', a)
              ∧ h'.Holds ∅ (.map (deepMerge base.entries overlay.entries)) (.dict a)
              ∧ ∀ (x : ℕ) cell, h[x]? = some cell → h'[x]? = some cell := by
  refine ⟨leafAt_deepMerge overlay.distinct base.entries, fun h a₁ a₂ h₁ h₂ depth hdepth => ?_⟩
  obtain ⟨h', a, heq, hpre, ha⟩ :=
    mergesWith_deepMergeAt overlay.entries depth hdepth h ∅ a₁ a₂ base.entries
      (fun a ha => ha.elim) h₁ h₂
  exact ⟨h', a, heq, ha, fun x cell hx => Heap.getElem?_of_prefix hpre hx⟩

/-- A base with a mapping, a list and a number for a key. -/
def sampleBase : YamlMapping where
  entries := [(.str "a", .map [(.str "x", .leaf (.int 1)), (.str "y", .leaf (.int 2))]),
    (.str "b", .list [.leaf (.int 1)]), (.int 1, .leaf (.str "one"))]
  distinct := by decide +kernel

/-- An overlay with a mapping over a scalar, a scalar over a list, and a truth
value for the number. -/
def sampleOverlay : YamlMapping where
  entries := [(.str "a", .map [(.str "y", .map [(.str "z", .leaf (.int 3))])]),
    (.str "b", .leaf (.int 4)), (.bool true, .leaf (.str "yes"))]
  distinct := by decide +kernel

/-- The two in memory, where the base holds a mapping of its own. -/
def sampleHeap : Heap YamlKey YamlScalar :=
  [[(.str "a", .dict 1), (.str "b", .list [.leaf (.int 1)]), (.int 1, .scalar (.str "one"))],
    [(.str "x", .scalar (.int 1)), (.str "y", .scalar (.int 2))],
    [(.str "a", .dict 3), (.str "b", .scalar (.int 4)), (.bool true, .scalar (.str "yes"))],
    [(.str "y", .dict 4)],
    [(.str "z", .scalar (.int 3))]]

theorem deepMerge_sample :
    ∃ h' a, deepMergeAt 3 sampleHeap 0 2 = some (h', a)
      ∧ h'.Holds ∅ (.map [(.str "a", .map [(.str "x", .leaf (.int 1)),
            (.str "y", .map [(.str "z", .leaf (.int 3))])]), (.str "b", .leaf (.int 4)),
            (.int 1, .leaf (.str "yes"))]) (.dict a)
      ∧ ∀ (x : ℕ) cell, sampleHeap[x]? = some cell → h'[x]? = some cell := by
  have hbase : sampleHeap.Holds ∅ (.map sampleBase.entries) (.dict 0) :=
    ⟨Set.notMem_empty _, _, rfl, rfl, ⟨Set.notMem_empty _, _, rfl, rfl, rfl, rfl, rfl, trivial⟩,
      rfl, rfl, rfl, rfl, trivial⟩
  have hoverlay : sampleHeap.Holds ∅ (.map sampleOverlay.entries) (.dict 2) :=
    ⟨Set.notMem_empty _, _, rfl, rfl, ⟨Set.notMem_empty _, _, rfl, rfl,
      ⟨Set.notMem_empty _, _, rfl, rfl, rfl, trivial⟩, trivial⟩, rfl, rfl, rfl, rfl, trivial⟩
  have h := (deepMerge_spec sampleBase sampleOverlay).2 sampleHeap 0 2 hbase hoverlay 3 (by decide)
  have hmerged : deepMerge sampleBase.entries sampleOverlay.entries
      = [(.str "a", .map [(.str "x", .leaf (.int 1)),
          (.str "y", .map [(.str "z", .leaf (.int 3))])]), (.str "b", .leaf (.int 4)),
          (.int 1, .leaf (.str "yes"))] := by decide +kernel
  rw [hmerged] at h
  exact h
