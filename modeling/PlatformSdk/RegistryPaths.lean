import Mathlib.Data.List.TakeWhile
import PlatformSdk.UrlPath

/-!
# Names of services in paths

A service registers under a name in the body of its request, which may be any
text. Whatever is asked of it later is asked at a path with the name spliced
in: `/api/services/{name}`, and with `/heartbeat` behind it. The name is not
escaped, so the path is read as the grammar of URLs has it, and a name with a
character that means something there is read as something else: as another
name, as a name and a query, or as no service at all.

`addresses_iff` says for which names all of it works out, and which names
therefore never meet. It takes for granted nothing of the HTTP client but
whether it sends a path at all.
-/

open UrlPath

/-! ## What is asked -/

/-- The operations that have the name in their path. -/
inductive RegistryOp where
  | lookup
  | deregister
  | heartbeat
  deriving DecidableEq

/-- The routes of the registry with a name in them. -/
inductive RegistryRoute where
  /-- `/api/services/{name}`. -/
  | service
  /-- `/api/services/{name}/heartbeat`. -/
  | heartbeat
  deriving DecidableEq

/-- The path of `_fetch`, for `lookup`. -/
def fetchPath (name : String) : String := "/api/services/" ++ name

/-- The path of `deregister`. -/
def deregisterPath (name : String) : String := "/api/services/" ++ name

/-- The path of the heartbeat loop. -/
def heartbeatPath (name : String) : String := "/api/services/" ++ name ++ "/heartbeat"

namespace RegistryOp

/-- The path an operation builds. -/
def path (name : String) : RegistryOp → String
  | lookup => fetchPath name
  | deregister => deregisterPath name
  | heartbeat => heartbeatPath name

/-- The route it is meant for. -/
def route : RegistryOp → RegistryRoute
  | lookup | deregister => .service
  | heartbeat => .heartbeat

end RegistryOp

/-! ## What is read -/

/-- The segments, each with its escapes resolved. -/
def decodeSegments : List (List Char) → Option (List String)
  | [] => some []
  | cs :: rest =>
    match decodeSegment cs, decodeSegments rest with
    | some s, some ss => some (s :: ss)
    | _, _ => none

/-- **The route patterns.** A name has at least one character. -/
def matchRoute : List String → Option (RegistryRoute × String)
  | [a, b, name] =>
    if a = "api" ∧ b = "services" ∧ name ≠ "" then some (.service, name) else none
  | [a, b, name, last] =>
    if a = "api" ∧ b = "services" ∧ name ≠ "" ∧ last = "heartbeat" then some (.heartbeat, name)
    else none
  | _ => none

/-- **The route and the name a path addresses.** -/
def addressed (url : String) : Option (RegistryRoute × String) :=
  (decodeSegments (segments url.toList)).bind matchRoute

/-- The entry a request to a URL is about, if it is about one. -/
def addressedEntry (url : String) : Option String := (addressed url).map Prod.snd

/-! ## Which names work -/

variable (sends : String → Bool)

/-- The HTTP client sends the paths of a name, and does not refuse them. -/
def IsSent (name : String) : Prop := ∀ op : RegistryOp, sends (op.path name) = true

/-- **A name that is addressed as it is**, by each of the operations. -/
structure Addresses (name : String) : Prop where
  sent : IsSent sends name
  addressed : ∀ op : RegistryOp, addressed (op.path name) = some (op.route, name)

/-- **A name that means nothing in a URL but itself.** -/
structure PlainName (name : String) : Prop where
  ne_empty : name ≠ ""
  slash : '/' ∉ name.toList
  query : '?' ∉ name.toList
  fragment : '#' ∉ name.toList
  escape : hasEscape name.toList = false
  dots : isDots name.toList = false

variable {sends} {name : String}

/-- Behind the fixed part of a path are the segments of the rest. -/
theorem splitOn_servicesPath (cs : List Char) :
    (pathPart ("/api/services/".toList ++ cs)).splitOn '/'
      = [] :: "api".toList :: "services".toList :: (pathPart cs).splitOn '/' := by
  have hpath : pathPart ("/api/services/".toList ++ cs) = "/api/services/".toList ++ pathPart cs :=
    rfl
  have hsplit : "/api/services/".toList ++ pathPart cs
      = [] ++ '/' :: ("api".toList ++ '/' :: ("services".toList ++ '/' :: pathPart cs)) := rfl
  rw [hpath, hsplit, List.splitOn_append_cons_self_of_not_mem List.not_mem_nil,
    List.splitOn_append_cons_self_of_not_mem (by decide),
    List.splitOn_append_cons_self_of_not_mem (by decide)]

/-- The segments of a path with a name. -/
theorem segments_servicesPath (cs : List Char) :
    segments ("/api/services/".toList ++ cs)
      = removeDots [] ("api".toList :: "services".toList :: (pathPart cs).splitOn '/') := by
  rw [segments, splitOn_servicesPath]
  rfl

/-- A path ends where a query or a fragment begins. -/
theorem pathPart_eq_self_iff (cs : List Char) : pathPart cs = cs ↔ '?' ∉ cs ∧ '#' ∉ cs := by
  rw [pathPart, List.takeWhile_eq_self_iff]
  constructor
  · intro h
    exact ⟨fun hmem => absurd (h _ hmem) (by decide), fun hmem => absurd (h _ hmem) (by decide)⟩
  · rintro ⟨hquery, hfragment⟩ c hc
    rw [Bool.and_eq_true, bne_iff_ne, bne_iff_ne]
    exact ⟨fun h => hquery (h ▸ hc), fun h => hfragment (h ▸ hc)⟩

/-- The first of the segments that are read. -/
theorem decodeSegments_eq_cons {segs : List (List Char)} {s : String} {ss : List String}
    (h : decodeSegments segs = some (s :: ss)) :
    ∃ cs rest, segs = cs :: rest ∧ decodeSegment cs = some s ∧ decodeSegments rest = some ss := by
  cases segs with
  | nil => cases h
  | cons cs rest =>
    rw [decodeSegments] at h
    split at h
    · next s' ss' hs hss =>
      obtain ⟨rfl, rfl⟩ := List.cons.inj (Option.some.inj h)
      exact ⟨cs, rest, rfl, hs, hss⟩
    · cases h

/-- **Segments without escapes are read as they are**, so a name that has none
is addressed by its own text. -/
theorem decodeSegments_map_toList {ss : List String}
    (h : ∀ s ∈ ss, hasEscape s.toList = false) :
    decodeSegments (ss.map String.toList) = some ss := by
  induction ss with
  | nil => rfl
  | cons s ss ih =>
    rw [List.map_cons, decodeSegments, (decodeSegment_eq_self_iff s).mpr (h s List.mem_cons_self),
      ih (fun t ht => h t (List.mem_cons_of_mem _ ht))]

/-- The route of a service has three segments. -/
theorem matchRoute_eq_service {ss : List String} (h : matchRoute ss = some (.service, name)) :
    ss = ["api", "services", name] ∧ name ≠ "" := by
  unfold matchRoute at h
  split at h
  · obtain ⟨⟨ha, hb, hne⟩, heq⟩ := Option.ite_none_right_eq_some.mp h
    obtain ⟨-, hname⟩ := Prod.mk.inj (Option.some.inj heq)
    subst ha hb hname
    exact ⟨rfl, hne⟩
  · obtain ⟨-, heq⟩ := Option.ite_none_right_eq_some.mp h
    cases heq
  · cases h

/-- **What is looked up as it is, is plain.** -/
theorem plainName_of_addressed (h : addressed (fetchPath name) = some (.service, name)) :
    PlainName name := by
  have hsegs : segments (fetchPath name).toList
      = removeDots []
        ("api".toList :: "services".toList :: (pathPart name.toList).splitOn '/') := by
    show segments ("/api/services/" ++ name).toList = _
    rw [String.toList_append, segments_servicesPath]
  obtain ⟨ss, hss, hmatch⟩ := Option.bind_eq_some_iff.mp h
  obtain ⟨rfl, hne⟩ := matchRoute_eq_service hmatch
  rw [hsegs] at hss
  -- there are three segments, and the third is cut out of the name
  obtain ⟨x, r, hx, -, hr⟩ := decodeSegments_eq_cons hss
  obtain ⟨y, r, rfl, -, hr⟩ := decodeSegments_eq_cons hr
  obtain ⟨z, r, rfl, hz, hr⟩ := decodeSegments_eq_cons hr
  have hsub := removeDots_sublist [] ("api".toList :: "services".toList
    :: (pathPart name.toList).splitOn '/')
  rw [hx] at hsub
  have hthird : z ∈ (pathPart name.toList).splitOn '/' ++ [[]] :=
    (hsub.drop 2).subset List.mem_cons_self
  have hsplit : z ∈ (pathPart name.toList).splitOn '/' := by
    refine (List.mem_append.mp hthird).resolve_right (fun hempty => hne ?_)
    rw [List.mem_singleton.mp hempty] at hz
    exact (Option.some.inj (hz.symm.trans ((decodeSegment_eq_self_iff "").mpr rfl)))
  have hpart : (pathPart name.toList).Sublist name.toList := List.takeWhile_sublist _
  have hself : z = name.toList :=
    eq_of_decodeSegment ((sublist_of_mem_splitOn hsplit).trans hpart) hz
  subst hself
  have hpath := (pathPart_eq_self_iff name.toList).mp
    (hpart.antisymm (sublist_of_mem_splitOn hsplit))
  have hmem : name.toList ∈ removeDots [] ("api".toList :: "services".toList
      :: (pathPart name.toList).splitOn '/') :=
    hx ▸ List.mem_cons_of_mem _ (List.mem_cons_of_mem _ List.mem_cons_self)
  exact
    { ne_empty := hne
      slash := notMem_of_mem_splitOn hsplit
      query := hpath.1
      fragment := hpath.2
      escape := (decodeSegment_eq_self_iff name).mp hz
      dots := isDots_of_mem_removeDots (fun s hs => absurd hs List.not_mem_nil) hmem }

/-- **What a path addresses whose segments stand for themselves.** -/
theorem addressed_of_splitOn {url : String} {cs : List Char} (ss : List String)
    (hurl : url.toList = "/api/services/".toList ++ cs) (hquery : '?' ∉ cs) (hfragment : '#' ∉ cs)
    (hsplit : cs.splitOn '/' = ss.map String.toList)
    (hss : ∀ s ∈ ss, hasEscape s.toList = false ∧ isDots s.toList = false) :
    addressed url = matchRoute ("api" :: "services" :: ss) := by
  have hall : ∀ s ∈ "api" :: "services" :: ss,
      hasEscape s.toList = false ∧ isDots s.toList = false :=
    List.forall_mem_cons.mpr ⟨by decide, List.forall_mem_cons.mpr ⟨by decide, hss⟩⟩
  have hdots : ∀ cs ∈ ("api" :: "services" :: ss).map String.toList, isDots cs = false :=
    List.forall_mem_map.mpr (fun s hs => (hall s hs).2)
  have hsegs : segments url.toList = ("api" :: "services" :: ss).map String.toList := by
    rw [hurl, segments_servicesPath, (pathPart_eq_self_iff cs).mpr ⟨hquery, hfragment⟩, hsplit]
    exact removeDots_of_forall hdots
  rw [addressed, hsegs, decodeSegments_map_toList (fun s hs => (hall s hs).1), Option.bind_some]

/-- **A plain name is addressed as it is**: the client sends its path unchanged,
and the route reads the name out of it. -/
theorem addressed_of_plainName (h : PlainName name) (op : RegistryOp) :
    addressed (op.path name) = some (op.route, name) := by
  have hservice : addressed ("/api/services/" ++ name) = some (.service, name) := by
    refine (addressed_of_splitOn [name] String.toList_append h.query h.fragment
      (List.splitOn_eq_singleton h.slash) ?_).trans ?_
    · exact List.forall_mem_singleton.mpr ⟨h.escape, h.dots⟩
    · exact if_pos ⟨rfl, rfl, h.ne_empty⟩
  cases op with
  | lookup => exact hservice
  | deregister => exact hservice
  | heartbeat =>
    have hurl : (heartbeatPath name).toList
        = "/api/services/".toList ++ (name.toList ++ '/' :: "heartbeat".toList) := by
      show ("/api/services/" ++ name ++ "/heartbeat").toList = _
      rw [String.toList_append, String.toList_append, List.append_assoc]
      rfl
    have hnew : ∀ c, c ∉ name.toList → c ∉ '/' :: "heartbeat".toList →
        c ∉ name.toList ++ '/' :: "heartbeat".toList := fun c h₁ h₂ hmem =>
      (List.mem_append.mp hmem).elim h₁ h₂
    refine (addressed_of_splitOn [name, "heartbeat"] hurl (hnew _ h.query (by decide))
      (hnew _ h.fragment (by decide)) ?_ ?_).trans ?_
    · rw [List.splitOn_append_cons_self_of_not_mem h.slash,
        List.splitOn_eq_singleton (by decide)]
      rfl
    · refine List.forall_mem_cons.mpr ⟨⟨h.escape, h.dots⟩, ?_⟩
      exact List.forall_mem_singleton.mpr (by decide)
    · exact if_pos ⟨rfl, rfl, h.ne_empty, rfl⟩

/-- **A name works exactly when it is sent and plain.** -/
theorem addresses_name_iff : Addresses sends name ↔ IsSent sends name ∧ PlainName name := by
  constructor
  · exact fun h => ⟨h.sent, plainName_of_addressed (h.addressed .lookup)⟩
  · exact fun h => ⟨h.1, addressed_of_plainName h.2⟩

/-- **Which names are addressed as they are, and apart from each other.** Of two
names each is, and neither addresses the entry of the other, exactly when the
client sends their paths and both are plain. -/
theorem addresses_iff (sends : String → Bool) (n m : String) :
    (Addresses sends n ∧ Addresses sends m
        ∧ (n ≠ m → ∀ (op op' : RegistryOp) (entry : String),
          addressedEntry (op.path n) = some entry → addressedEntry (op'.path m) ≠ some entry))
      ↔ (IsSent sends n ∧ PlainName n) ∧ IsSent sends m ∧ PlainName m := by
  rw [← addresses_name_iff, ← addresses_name_iff]
  refine ⟨fun h => ⟨h.1, h.2.1⟩, fun h => ⟨h.1, h.2, fun hne op op' entry hn hm => hne ?_⟩⟩
  rw [addressedEntry, h.1.addressed op, Option.map_some] at hn
  rw [addressedEntry, h.2.addressed op', Option.map_some] at hm
  exact Option.some.inj (hn.trans hm.symm)

/-- A client that sends whatever has no control character in it. -/
def sendsPrintable (url : String) : Bool := url.toList.all (fun c => 32 ≤ c.toNat && c.toNat ≠ 127)

/-- **An escape, a query and a slash in a name.** The first name addresses the
entry of another one, the second that of its beginning, and the third none. -/
theorem not_addresses_spliced :
    ¬ (Addresses sendsPrintable "a%20b" ∧ Addresses sendsPrintable "a b"
        ∧ ("a%20b" ≠ "a b" → ∀ (op op' : RegistryOp) (entry : String),
          addressedEntry (op.path "a%20b") = some entry →
            addressedEntry (op'.path "a b") ≠ some entry))
      ∧ addressed (fetchPath "a%20b") = some (.service, "a b")
      ∧ addressed (heartbeatPath "billing?v=2") = some (.service, "billing")
      ∧ addressed (fetchPath "team/billing") = none := by
  refine ⟨fun h => ?_, by decide +kernel, by decide +kernel, by decide +kernel⟩
  exact Bool.noConfusion (plainName_of_addressed (h.1.addressed .lookup)).escape
