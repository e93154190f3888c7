import PlatformSdk.Registry

/-!
# What a tick of the refresh loop stores

The loop goes over the services of a reply, validates one and stores it, and
goes on to the next, all inside one `try`. An entry that does not validate
ends the tick: what stands before it is stored, and what stands behind it is
not, although the loop is there to repopulate the full cache.

`refresh_storesAll_iff` says of every reply when all its valid entries are in
the cache after the tick.
-/

namespace Registry

variable (c : EntryCoercions)

/-- A service of a reply that does not validate. -/
def Malformed (raw : Json) : Prop :=
  ∀ entry, RegistryEntry.modelValidate c raw.toYaml ≠ .ok entry

/-- **The valid entries** among the services of a reply. -/
def validEntries (raws : List Json) : List RegistryEntry :=
  raws.filterMap (fun raw => (RegistryEntry.modelValidate c raw.toYaml).toOption)

/-- **A tick stores all**: every valid entry is in the cache under its name,
with the time of the tick, and the cells of all other names are as before. -/
structure StoresAll (raws : List Json) (now : ℚ) (before after : Client) : Prop where
  stored : ∀ entry ∈ validEntries c raws,
    after.cache.get? entry.name = some { entry := entry, fetchedAt := now }
  kept : ∀ name, (∀ entry ∈ validEntries c raws, entry.name ≠ name) →
    after.cache.get? name = before.cache.get? name

/-- **When all entries of a reply can be stored.** -/
structure Storable (raws : List Json) (now : ℚ) (before : Client) : Prop where
  /-- A valid entry behind a malformed one stands before it too, or has been in
  the cache since the same instant. -/
  behind : ∀ pre bad post, raws = pre ++ bad :: post → Malformed c bad →
    ∀ entry ∈ validEntries c post, entry ∈ validEntries c pre
      ∨ before.cache.get? entry.name = some { entry := entry, fetchedAt := now }
  /-- There is one entry a name. -/
  unique : ∀ entry ∈ validEntries c raws, ∀ other ∈ validEntries c raws,
    entry.name = other.name → entry = other

variable {c}

/-! ## The entries before the first malformed one -/

theorem validEntries_append (raws rest : List Json) :
    validEntries c (raws ++ rest) = validEntries c raws ++ validEntries c rest :=
  List.filterMap_append

theorem validEntries_cons_of_malformed {raw : Json} (h : Malformed c raw) (raws : List Json) :
    validEntries c (raw :: raws) = validEntries c raws := by
  cases hraw : RegistryEntry.modelValidate c raw.toYaml with
  | ok entry => exact absurd hraw (h entry)
  | error errors =>
    rw [validEntries, List.filterMap_cons, hraw]
    rfl

/-- **What is stored is what stands before the first malformed service**, if
there is one. -/
theorem validPrefix_cases (raws : List Json) :
    validPrefix c raws = validEntries c raws
      ∨ ∃ pre bad post, raws = pre ++ bad :: post ∧ Malformed c bad
        ∧ validPrefix c raws = validEntries c pre := by
  induction raws with
  | nil => exact Or.inl rfl
  | cons raw raws ih =>
    cases hraw : RegistryEntry.modelValidate c raw.toYaml with
    | error errors =>
      have hbad : Malformed c raw := by
        intro entry h
        rw [hraw] at h
        cases h
      refine Or.inr ⟨[], raw, raws, rfl, hbad, ?_⟩
      simp only [validPrefix, hraw]
      rfl
    | ok entry =>
      have hhead : validPrefix c (raw :: raws) = entry :: validPrefix c raws := by
        simp only [validPrefix, hraw]
      have hentries : ∀ rest, validEntries c (raw :: rest) = entry :: validEntries c rest := by
        intro rest
        rw [validEntries, List.filterMap_cons, hraw]
        rfl
      rw [hhead, hentries]
      rcases ih with h | ⟨pre, bad, post, hsplit, hbad, h⟩
      · exact Or.inl (congrArg _ h)
      · refine Or.inr ⟨raw :: pre, bad, post, by rw [hsplit]; rfl, hbad, ?_⟩
        rw [h, hentries]

/-- Nothing else is stored: what stands before the first malformed service is
valid in the whole list too. -/
theorem mem_validEntries_of_mem_validPrefix {raws : List Json} {entry : RegistryEntry}
    (h : entry ∈ validPrefix c raws) : entry ∈ validEntries c raws := by
  rcases validPrefix_cases (c := c) raws with heq | ⟨pre, bad, post, rfl, -, heq⟩
  · exact heq ▸ h
  · rw [validEntries_append]
    exact List.mem_append_left _ (heq ▸ h)

/-- What is stored stands before every malformed service. -/
theorem mem_pre_of_mem_validPrefix {pre post : List Json} {bad : Json} (hbad : Malformed c bad)
    {entry : RegistryEntry} (h : entry ∈ validPrefix c (pre ++ bad :: post)) :
    entry ∈ validEntries c pre := by
  induction pre with
  | nil =>
    rw [List.nil_append, validPrefix] at h
    split at h
    · next e he => exact absurd he (hbad e)
    · cases h
  | cons raw pre ih =>
    rw [List.cons_append, validPrefix] at h
    split at h
    · next e he =>
      rw [validEntries, List.filterMap_cons, he]
      rcases List.mem_cons.mp h with rfl | h
      · exact List.mem_cons_self
      · exact List.mem_cons_of_mem _ (ih h)
    · cases h

/-- **The first malformed service is as good as every other**: to stand behind
none is to be stored. -/
theorem behind_iff {raws : List Json} {P : RegistryEntry → Prop} :
    (∀ entry ∈ validEntries c raws, entry ∈ validPrefix c raws ∨ P entry)
      ↔ ∀ pre bad post, raws = pre ++ bad :: post → Malformed c bad →
          ∀ entry ∈ validEntries c post, entry ∈ validEntries c pre ∨ P entry := by
  constructor
  · rintro h pre bad post rfl hbad entry hentry
    have hmem : entry ∈ validEntries c (pre ++ bad :: post) := by
      rw [validEntries_append, validEntries_cons_of_malformed hbad]
      exact List.mem_append_right _ hentry
    exact (h entry hmem).imp_left (mem_pre_of_mem_validPrefix hbad)
  · intro h entry hentry
    rcases validPrefix_cases (c := c) raws with heq | ⟨pre, bad, post, hsplit, hbad, heq⟩
    · exact Or.inl (heq ▸ hentry)
    · rw [hsplit, validEntries_append, validEntries_cons_of_malformed hbad] at hentry
      rw [heq]
      rcases List.mem_append.mp hentry with hpre | hpost
      · exact Or.inl hpre
      · exact h pre bad post hsplit hbad entry hpost

/-! ## The cache after a tick -/

/-- A name that no entry has keeps its cell. -/
theorem get?_storeAll_of_ne (client : Client) (now : ℚ) {entries : List RegistryEntry}
    {name : String} (h : ∀ entry ∈ entries, entry.name ≠ name) :
    (client.storeAll now entries).cache.get? name = client.cache.get? name := by
  induction entries generalizing client with
  | nil => rfl
  | cons e entries ih =>
    obtain ⟨he, hentries⟩ := List.forall_mem_cons.mp h
    exact (ih (client.store now e.name e) hentries).trans
      (get?_store_of_ne client now e (Ne.symm he))

/-- Under a name that an entry has there is such an entry after the tick. -/
theorem exists_get?_storeAll (client : Client) (now : ℚ) {entries : List RegistryEntry}
    {entry : RegistryEntry} (h : entry ∈ entries) :
    ∃ other ∈ entries, other.name = entry.name
      ∧ (client.storeAll now entries).cache.get? entry.name
        = some { entry := other, fetchedAt := now } := by
  induction entries generalizing client entry with
  | nil => cases h
  | cons e entries ih =>
    by_cases hlater : ∃ other ∈ entries, other.name = entry.name
    · obtain ⟨later, hmem, hname⟩ := hlater
      obtain ⟨other, hother, hother', hget⟩ := ih (client.store now e.name e) hmem
      refine ⟨other, List.mem_cons_of_mem _ hother, hother'.trans hname, ?_⟩
      rw [← hname]
      exact hget
    · -- nothing overwrites the first entry
      have hne : ∀ other ∈ entries, other.name ≠ entry.name :=
        fun other hmem hname => hlater ⟨other, hmem, hname⟩
      rcases List.mem_cons.mp h with rfl | hmem
      · refine ⟨entry, List.mem_cons_self, rfl, ?_⟩
        exact (get?_storeAll_of_ne _ now hne).trans (get?_store_self client now entry.name entry)
      · exact absurd rfl (hne entry hmem)

/-- **When the entries before the first malformed one are all there are to
store.** -/
theorem storesAll_iff (raws : List Json) (now : ℚ) (client : Client) :
    StoresAll c raws now client (client.storeAll now (validPrefix c raws))
      ↔ Storable c raws now client := by
  constructor
  · intro h
    refine ⟨behind_iff.mp fun entry hentry => ?_, fun entry hentry other hother hname => ?_⟩
    · rcases get?_storeAll (h.stored entry hentry) with ⟨-, hold⟩ | ⟨other, hmem, -, hcell⟩
      · exact Or.inr hold
      · exact Or.inl ((CacheEntry.mk.inj hcell).1 ▸ hmem)
    · have hcell := h.stored entry hentry
      rw [hname, h.stored other hother] at hcell
      exact (CacheEntry.mk.inj (Option.some.inj hcell)).1.symm
  · intro h
    refine ⟨fun entry hentry => ?_, fun name hname => ?_⟩
    · by_cases hnamed : ∃ other ∈ validPrefix c raws, other.name = entry.name
      · obtain ⟨named, hnamed, hname⟩ := hnamed
        obtain ⟨other, hmem, hother, hget⟩ := exists_get?_storeAll client now hnamed
        rw [hname] at hget hother
        rw [hget, h.unique other (mem_validEntries_of_mem_validPrefix hmem) entry hentry hother]
      · have hne : ∀ other ∈ validPrefix c raws, other.name ≠ entry.name :=
          fun other hmem hname => hnamed ⟨other, hmem, hname⟩
        rw [get?_storeAll_of_ne client now hne]
        rcases behind_iff.mpr h.behind entry hentry with hmem | hold
        · exact absurd rfl (hne entry hmem)
        · exact hold
    · exact get?_storeAll_of_ne client now fun entry hentry =>
        hname entry (mem_validEntries_of_mem_validPrefix hentry)

/-- **When a tick stores all valid entries of a reply**: exactly when none of
them stands only behind a malformed one, and there is one entry a name. -/
theorem refresh_storesAll_iff {cfg : Settings} {s s' : State} {body : Json}
    (h : step c cfg s (.refreshReply (.response 200 (some body))) = some s') :
    StoresAll c (servicesOf body) s.now s.client s'.client
      ↔ Storable c (servicesOf body) s.now s.client := by
  cases moves_of_step h with
  | refreshed => exact storesAll_iff (servicesOf body) s.now s.client

/-- A client whose refresh loop waits for its reply. -/
def awaitingList : State := { refresh := .fetching }

/-- A reply with two services, both of them valid. -/
def twoServices : Json :=
  Json.obj [("services", .list [RegistryEntry.sampleBody "data-mcp" "1",
    RegistryEntry.sampleBody "crm-mcp" "1"])]

theorem refresh_storesAll_two :
    ∃ s', step EntryCoercions.exact {} awaitingList
        (.refreshReply (.response 200 (some twoServices))) = some s'
      ∧ StoresAll EntryCoercions.exact (servicesOf twoServices) awaitingList.now
        awaitingList.client s'.client := by
  have hentries : validEntries EntryCoercions.exact (servicesOf twoServices)
      = [RegistryEntry.sample "data-mcp" "1", RegistryEntry.sample "crm-mcp" "1"] := rfl
  have hstep : step EntryCoercions.exact {} awaitingList
      (.refreshReply (.response 200 (some twoServices))) = some _ := rfl
  refine ⟨_, hstep, (refresh_storesAll_iff hstep).mpr ⟨fun pre bad post hsplit hbad => ?_, ?_⟩⟩
  · have hmem : bad ∈ servicesOf twoServices := by
      rw [hsplit]
      exact List.mem_append_right _ List.mem_cons_self
    have hvalid : ∃ name, bad = RegistryEntry.sampleBody name "1" := by
      rcases List.mem_cons.mp hmem with rfl | hmem
      · exact ⟨_, rfl⟩
      · exact ⟨_, List.mem_singleton.mp hmem⟩
    obtain ⟨name, rfl⟩ := hvalid
    exact absurd (RegistryEntry.modelValidate_sampleBody name "1") (hbad _)
  · rw [hentries]
    decide

/-- A reply whose first service is malformed. -/
def malformedFirst : Json :=
  Json.obj [("services", .list [Json.obj [("name", Json.str "crm-mcp")],
    RegistryEntry.sampleBody "data-mcp" "1"])]

/-- **A malformed service keeps the ones behind it out of the cache.** -/
theorem not_refresh_storesAll :
    ∃ s', step EntryCoercions.exact {} awaitingList
        (.refreshReply (.response 200 (some malformedFirst))) = some s'
      ∧ validEntries EntryCoercions.exact (servicesOf malformedFirst)
        = [RegistryEntry.sample "data-mcp" "1"]
      ∧ s'.client.cache = []
      ∧ ¬ StoresAll EntryCoercions.exact (servicesOf malformedFirst) awaitingList.now
        awaitingList.client s'.client := by
  refine ⟨_, rfl, rfl, rfl, fun h => ?_⟩
  cases h.stored (RegistryEntry.sample "data-mcp" "1") List.mem_cons_self

end Registry
