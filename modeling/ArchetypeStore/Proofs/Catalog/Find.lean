import ArchetypeStore.Catalog.Find
import ArchetypeStore.Proofs.Catalog.Sound

/-! # Finding is exact

  A search for one type or several finds the nodes whose sets have all of them. The node of
  each single type is linked to exactly the larger sets with the type, so whatever node the
  search starts from, the links that all the single nodes share are those of the sets
  that have every type.
-/

namespace ArchetypeStore

variable {T V : Type}

/-! ### Types of a node -/

/-- The set of the node has the type. -/
def SetNode.Holds (registry : TypeRegistry T) (n : SetNode T) (t : T) : Prop :=
  ∃ index ∈ n.types.keys.toList, registry.type? index = some t

/-- The types of an archetype are those of its node. -/
theorem Archetype.mem_layoutOf {registry : TypeRegistry T} {types : DenseMap T} (h : types.Wf)
    (hidx : Indexes registry types) {t : T} :
    t ∈ layoutOf types ↔ ∃ index ∈ types.keys.toList, registry.type? index = some t := by
  rw [(layoutOf_perm h).mem_iff, List.mem_map, ← h.keys_toList]
  constructor
  · rintro ⟨entry, hentry, rfl⟩
    exact ⟨entry.1, List.mem_map_of_mem hentry, hidx entry hentry⟩
  · rintro ⟨index, hindex, htype⟩
    obtain ⟨entry, hentry, rfl⟩ := List.mem_map.mp hindex
    exact ⟨entry, hentry, Option.some.inj ((hidx entry hentry).symm.trans htype)⟩

namespace Catalog

variable [DecidableEq T] [ComponentType T] {c : Catalog T V}

/-! ### Single types -/

/-- The node of a single type has its index. -/
theorem single?_spec (h : c.Wf) {t : T} {m : SetNode T} (hm : c.single? t = some m) :
    m ∈ c.nodes.nodes ∧ ∃ index, c.registry.type? index = some t ∧
      m.key = UInt64.ofNat index ∧ m.types.keys.toList = [index] := by
  obtain ⟨index, hindex, hget⟩ := Option.bind_eq_some_iff.mp hm
  obtain ⟨hmem, hkey⟩ := h.nodes.get?_eq_some_iff.mp hget
  have htype := h.registry.index?_eq_some_iff.mp hindex
  have hbound := Nat.le_trans (TypeRegistry.type?_le htype).2 h.registry.size_le
  exact ⟨hmem, index, htype, hkey,
    (h.nodes.nodes m hmem).keys_of_indexKey h.registry hbound hkey⟩

/-- A type that a node has has a node of its own. -/
theorem single?_of_holds (h : c.Wf) {n : SetNode T} (hn : n ∈ c.nodes.nodes) {t : T}
    (hholds : n.Holds c.registry t) : ∃ m, c.single? t = some m := by
  obtain ⟨index, hindex, htype⟩ := hholds
  obtain ⟨m, hm, hkeys⟩ := h.nodes.singles n hn index hindex
  refine ⟨m, Option.bind_eq_some_iff.mpr
    ⟨index, h.registry.index?_eq_some_iff.mpr htype, ?_⟩⟩
  refine h.nodes.get?_eq_some_iff.mpr ⟨hm, ?_⟩
  rw [(h.nodes.nodes m hm).key, keyFor_of_single hkeys]

/-- A node is linked to from the node of a single type when it has the type among others. -/
theorem mem_links_iff (h : c.Wf) {t : T} {m n : SetNode T} (hm : c.single? t = some m)
    (hn : n ∈ c.nodes.nodes) :
    n.key ∈ m.links ↔ n.types.size ≠ 1 ∧ n.Holds c.registry t := by
  obtain ⟨hmem, index, htype, -, hkeys⟩ := single?_spec h hm
  rw [h.nodes.links_single m hmem index hkeys]
  constructor
  · rintro ⟨n', hn', hkey, hsize, hindex⟩
    -- Keys name nodes, so the linked node is the one in question.
    have heq : n' = n := Option.some.inj
      ((h.nodes.get?_eq_some_iff.mpr ⟨hn', hkey⟩).symm.trans
        (h.nodes.get?_eq_some_iff.mpr ⟨hn, rfl⟩))
    subst heq
    exact ⟨hsize, index, hindex, htype⟩
  · rintro ⟨hsize, index', hindex', htype'⟩
    rw [h.registry.index_inj htype htype']
    exact ⟨n, hn, rfl, hsize, hindex'⟩

/-- A node is the node of a single type, or linked to from it, when it has the type. -/
theorem mem_single_or_links_iff (h : c.Wf) {t : T} {m n : SetNode T}
    (hm : c.single? t = some m) (hn : n ∈ c.nodes.nodes) :
    n.key ∈ m.key :: m.links ↔ n.Holds c.registry t := by
  obtain ⟨hmem, index, htype, -, hkeys⟩ := single?_spec h hm
  rw [List.mem_cons, mem_links_iff h hm hn]
  constructor
  · rintro (hkey | ⟨-, hholds⟩)
    · have heq : n = m := Option.some.inj
        ((h.nodes.get?_eq_some_iff.mpr ⟨hn, rfl⟩).symm.trans
          (h.nodes.get?_eq_some_iff.mpr ⟨hmem, hkey.symm⟩))
      subst heq
      exact ⟨index, hkeys ▸ List.mem_singleton.mpr rfl, htype⟩
    · exact hholds
  · intro hholds
    -- A set of one with the type is the single node itself.
    rcases single_or_several n.types with ⟨index', hkeys'⟩ | hsize
    · left
      obtain ⟨index'', hindex, htype'⟩ := hholds
      rw [hkeys', List.mem_singleton] at hindex
      subst hindex
      have hsame := h.registry.index_inj htype htype'
      rw [(h.nodes.nodes n hn).key, (h.nodes.nodes m hmem).key, keyFor_of_single hkeys',
        keyFor_of_single hkeys, hsame]
    · exact .inr ⟨hsize, hholds⟩

/-! ### Several types -/

omit [DecidableEq T] [ComponentType T] in
/-- The links that the nodes share do not depend on which of them comes first. -/
theorem mem_commonLinks {nodes : List (SetNode T)} (hne : nodes ≠ []) {key : UInt64} :
    key ∈ commonLinks nodes ↔ ∀ m ∈ nodes, key ∈ m.links := by
  have hperm := List.mergeSort_perm nodes fun a b => a.links.length ≤ b.links.length
  unfold commonLinks
  cases hsorted : nodes.mergeSort fun a b => a.links.length ≤ b.links.length with
  | nil =>
    rw [hsorted] at hperm
    exact absurd hperm.nil_eq.symm hne
  | cons seed rest =>
    rw [hsorted] at hperm
    simp only [List.mem_filter, List.all_eq_true, SetNode.isLinked, List.contains_iff_mem]
    constructor
    · rintro ⟨hseed, hrest⟩ m hm
      rcases List.mem_cons.mp (hperm.mem_iff.mpr hm) with rfl | hmem
      · exact hseed
      · exact hrest m hmem
    · intro hall
      exact ⟨hall seed (hperm.mem_iff.mp (List.mem_cons_self ..)),
        fun m hm => hall m (hperm.mem_iff.mp (List.mem_cons_of_mem _ hm))⟩

omit [DecidableEq T] [ComponentType T] in
/-- Either every element has an image, or some element has none. -/
theorem mapM_single {α β : Type} (f : α → Option β) (as : List α) :
    match as.mapM f with
    | none => ∃ a ∈ as, f a = none
    | some bs => as.map f = bs.map some := by
  induction as with
  | nil => rfl
  | cons a as ih =>
    rw [List.mapM_cons]
    cases ha : f a with
    | none => exact ⟨a, List.mem_cons_self .., ha⟩
    | some b =>
      -- The list stops at the first element without an image.
      cases has : as.mapM f with
      | none =>
        rw [has] at ih
        obtain ⟨a', ha', hnone⟩ := ih
        exact ⟨a', List.mem_cons_of_mem _ ha', hnone⟩
      | some bs =>
        rw [has] at ih
        simp only [bind, Option.bind, pure, List.map_cons, ha]
        exact congrArg (some b :: ·) ih

/-- The links that the nodes of several types share are those of the sets with all types. -/
theorem mem_commonLinks_iff (h : c.Wf) {ts : List T} {nodes : List (SetNode T)}
    (hsingles : ts.map c.single? = nodes.map some) {t t' : T} (ht : t ∈ ts) (ht' : t' ∈ ts)
    (hne : t' ≠ t) {n : SetNode T} (hn : n ∈ c.nodes.nodes) :
    n.key ∈ commonLinks nodes ↔ ∀ t ∈ ts, n.Holds c.registry t := by
  have hto : ∀ t ∈ ts, ∃ m ∈ nodes, c.single? t = some m := by
    intro t ht
    have hmem : c.single? t ∈ nodes.map some := hsingles ▸ List.mem_map_of_mem ht
    obtain ⟨m, hm, heq⟩ := List.mem_map.mp hmem
    exact ⟨m, hm, heq.symm⟩
  have hfrom : ∀ m ∈ nodes, ∃ t ∈ ts, c.single? t = some m := by
    intro m hm
    have hmem : some m ∈ ts.map c.single? := hsingles ▸ List.mem_map_of_mem hm
    obtain ⟨t, ht, heq⟩ := List.mem_map.mp hmem
    exact ⟨t, ht, heq⟩
  have hnodes : nodes ≠ [] := by
    obtain ⟨m, hm, -⟩ := hto t ht
    exact List.ne_nil_of_mem hm
  rw [mem_commonLinks hnodes]
  constructor
  · intro hall t ht
    obtain ⟨m, hm, hsingle⟩ := hto t ht
    exact ((mem_links_iff h hsingle hn).mp (hall m hm)).2
  · intro hall m hm
    obtain ⟨t₁, ht₁, hsingle⟩ := hfrom m hm
    refine (mem_links_iff h hsingle hn).mpr ⟨fun hsize => ?_, hall t₁ ht₁⟩
    -- Two distinct types do not fit in a set of one.
    obtain ⟨index, hkeys⟩ := (single_or_several n.types).resolve_right fun hnot => hnot hsize
    obtain ⟨i, hi, htype⟩ := hall t ht
    obtain ⟨i', hi', htype'⟩ := hall t' ht'
    rw [hkeys, List.mem_singleton] at hi hi'
    subst hi hi'
    exact hne (Option.some.inj (htype'.symm.trans htype))

omit [ComponentType T] in
/-- A list without duplicates is empty, has one element, or has two that differ. -/
theorem eraseDups_cases (ts : List T) :
    ts = [] ∨ (∃ t, ts.eraseDups = [t]) ∨ ∃ t t' rest, ts.eraseDups = t :: t' :: rest ∧ t' ≠ t := by
  cases ts with
  | nil => exact .inl rfl
  | cons t ts =>
    right
    rw [List.eraseDups_cons]
    cases hrest : (ts.filter fun b => !b == t).eraseDups with
    | nil => exact .inl ⟨t, rfl⟩
    | cons t' rest =>
      refine .inr ⟨t, t', rest, rfl, ?_⟩
      have ht' : t' ∈ (ts.filter fun b => !b == t).eraseDups := by
        rw [hrest]
        exact List.mem_cons_self ..
      rw [List.mem_eraseDups, List.mem_filter] at ht'
      simpa using ht'.2

/-- A search finds the nodes that have every type asked for. -/
theorem mem_find_iff (h : c.Wf) {ts : List T} (hne : ts ≠ []) {n : SetNode T}
    (hn : n ∈ c.nodes.nodes) : n.key ∈ c.find ts ↔ ∀ t ∈ ts, n.Holds c.registry t := by
  have hmem : ∀ t, t ∈ ts.eraseDups ↔ t ∈ ts := fun t => List.mem_eraseDups
  have hsingles := mapM_single c.single? ts.eraseDups
  unfold find
  simp only [← hmem]
  cases hfound : ts.eraseDups.mapM c.single? with
  | none =>
    simp only [hfound] at hsingles
    -- A type that has no node is in no set.
    obtain ⟨t, ht, hnone⟩ := hsingles
    refine ⟨fun hkey => absurd hkey List.not_mem_nil, fun hall => ?_⟩
    obtain ⟨m, hm⟩ := single?_of_holds h hn (hall t ht)
    rw [hnone] at hm
    cases hm
  | some nodes =>
    simp only [hfound] at hsingles
    rcases eraseDups_cases ts with hnil | ⟨t, hone⟩ | ⟨t, t', rest, hmany, hdiffer⟩
    · exact absurd hnil hne
    · rw [hone] at hsingles ⊢
      cases nodes with
      | nil => cases hsingles
      | cons m nodes =>
        obtain ⟨hm, hlast⟩ := List.cons.inj hsingles
        cases List.map_eq_nil_iff.mp hlast.symm
        simp only [List.mem_singleton, forall_eq]
        exact mem_single_or_links_iff h hm hn
    -- Two types that differ decide that only links count.
    · have ht : t ∈ ts.eraseDups := hmany ▸ List.mem_cons_self ..
      have ht' : t' ∈ ts.eraseDups := hmany ▸ List.mem_cons_of_mem _ (List.mem_cons_self ..)
      have hcommon := mem_commonLinks_iff h hsingles ht ht' hdiffer hn
      have hlength := congrArg List.length hsingles
      rw [hmany, List.length_map, List.length_map] at hlength
      match nodes with
      | [] | [_] => cases hlength
      | _ :: _ :: _ => exact hcommon

/-! ### What is found -/

omit [DecidableEq T] [ComponentType T] in
/-- Whatever nodes are searched, what is found hangs on one of them. -/
theorem seed_of_commonLinks (nodes : List (SetNode T)) :
    commonLinks nodes = [] ∨ ∃ m ∈ nodes, (commonLinks nodes).Sublist m.links := by
  have hperm := List.mergeSort_perm nodes fun a b => a.links.length ≤ b.links.length
  unfold commonLinks
  cases hsorted : nodes.mergeSort fun a b => a.links.length ≤ b.links.length with
  | nil => exact .inl rfl
  | cons seed rest =>
    rw [hsorted] at hperm
    exact .inr ⟨seed, hperm.mem_iff.mp (List.mem_cons_self ..), List.filter_sublist⟩

/-- What is found hangs on the node of one of the types. -/
theorem find_sublist (ts : List T) :
    c.find ts = [] ∨ ∃ t m, c.single? t = some m ∧ (c.find ts).Sublist (m.key :: m.links) := by
  have hsingles := mapM_single c.single? ts.eraseDups
  unfold find
  cases hfound : ts.eraseDups.mapM c.single? with
  | none => exact .inl rfl
  | some nodes =>
    simp only [hfound] at hsingles
    have hfrom : ∀ m ∈ nodes, ∃ t, c.single? t = some m := by
      intro m hm
      have hmem : some m ∈ ts.eraseDups.map c.single? := hsingles ▸ List.mem_map_of_mem hm
      obtain ⟨t, -, heq⟩ := List.mem_map.mp hmem
      exact ⟨t, heq⟩
    match nodes, hfrom with
    | [], _ => exact .inl rfl
    | [m], hfrom =>
      obtain ⟨t, ht⟩ := hfrom m (List.mem_singleton.mpr rfl)
      exact .inr ⟨t, m, ht, List.Sublist.refl _⟩
    | m₁ :: m₂ :: rest, hfrom =>
      rcases seed_of_commonLinks (m₁ :: m₂ :: rest) with hnil | ⟨m, hm, hsub⟩
      · exact .inl hnil
      · obtain ⟨t, ht⟩ := hfrom m hm
        exact .inr ⟨t, m, ht, hsub.trans (List.sublist_cons_self ..)⟩

/-- The node of a single type and what it is linked to are distinct nodes. -/
theorem single_links (h : c.Wf) {t : T} {m : SetNode T} (hm : c.single? t = some m) :
    (m.key :: m.links).Nodup ∧
      ∀ key ∈ m.key :: m.links, ∃ n ∈ c.nodes.nodes, n.key = key := by
  obtain ⟨hmem, index, htype, -, hkeys⟩ := single?_spec h hm
  refine ⟨List.nodup_cons.mpr ⟨fun hkey => ?_, h.nodes.links_nodup m hmem⟩, ?_⟩
  · exact ((mem_links_iff h hm hmem).mp hkey).1 (size_of_single hkeys)
  · intro key hkey
    rcases List.mem_cons.mp hkey with rfl | hlink
    · exact ⟨m, hmem, rfl⟩
    · obtain ⟨n, hn, hnkey, -⟩ := (h.nodes.links_single m hmem index hkeys key).mp hlink
      exact ⟨n, hn, hnkey⟩

/-- What is found are keys of nodes. -/
theorem node_of_find (h : c.Wf) {ts : List T} {key : UInt64} (hkey : key ∈ c.find ts) :
    ∃ n ∈ c.nodes.nodes, n.key = key := by
  rcases find_sublist (c := c) ts with hnil | ⟨t, m, hm, hsub⟩
  · rw [hnil] at hkey
    cases hkey
  · exact (single_links h hm).2 key (hsub.subset hkey)

/-- The archetypes that are found are those that have every type asked for. -/
theorem mem_findArchetypes (h : c.Wf) {ts : List T} (hne : ts ≠ []) {a : Archetype T} :
    a ∈ c.findArchetypes ts ↔ c.archetype? a.key = some a ∧ ∀ t ∈ ts, t ∈ a.types := by
  -- A node with an archetype has the types of the archetype.
  have hnode : ∀ n ∈ c.nodes.nodes, c.archetype? n.key = some a →
      ∀ t, t ∈ a.types ↔ n.Holds c.registry t := by
    intro n hn ha t
    obtain ⟨n', hget, heq, -⟩ := h.archetypes n.key a ha
    have hroot : n.key ≠ rootKey := (h.nodes.nodes n hn).key_ne_rootKey h.registry
    rw [node?, if_neg hroot, h.nodes.get?_eq_some_iff.mpr ⟨hn, rfl⟩] at hget
    cases hget
    have htypes : a.types = Archetype.layoutOf n.types := congrArg Archetype.types heq
    rw [htypes]
    exact Archetype.mem_layoutOf (h.nodes.nodes n hn).types (h.nodes.nodes n hn).indexed
  rw [findArchetypes, List.mem_filterMap]
  constructor
  · rintro ⟨key, hkey, ha⟩
    obtain ⟨-, rfl, -⟩ := h.archetype_wf ha
    obtain ⟨n, hn, hnkey⟩ := node_of_find h hkey
    rw [← hnkey] at ha hkey
    refine ⟨hnkey ▸ ha, fun t ht => ?_⟩
    exact (hnode n hn ha t).mpr ((mem_find_iff h hne hn).mp hkey t ht)
  · rintro ⟨ha, hall⟩
    obtain ⟨n, hget, heq, -⟩ := h.archetypes a.key a ha
    have hroot : a.key ≠ rootKey := by
      intro hroot
      rw [node?, if_pos hroot] at hget
      cases hget
      -- The set without types has none of those asked for.
      obtain ⟨t, ht⟩ := List.exists_mem_of_ne_nil ts hne
      have hmem := hall t ht
      have htypes : a.types = Archetype.layoutOf c.root.types := congrArg Archetype.types heq
      have hget : c.node? rootKey = some c.root := if_pos rfl
      have hroot := h.node_types hget
      rw [htypes, Archetype.mem_layoutOf hroot.1 hroot.2, h.root_types] at hmem
      obtain ⟨index, hindex, -⟩ := hmem
      cases hindex
    rw [node?, if_neg hroot, h.nodes.get?_eq_some_iff] at hget
    obtain ⟨hn, hkey⟩ := hget
    refine ⟨a.key, ?_, ha⟩
    rw [← hkey] at ha ⊢
    exact (mem_find_iff h hne hn).mpr fun t ht => (hnode n hn ha t).mp (hall t ht)

/-- No node is found twice. -/
theorem find_nodup (h : c.Wf) (ts : List T) : (c.find ts).Nodup := by
  rcases find_sublist (c := c) ts with hnil | ⟨t, m, hm, hsub⟩
  · rw [hnil]
    exact List.nodup_nil
  · exact (single_links h hm).1.sublist hsub

/-- No archetype is found twice. -/
theorem findArchetypes_distinct (h : c.Wf) (ts : List T) :
    (c.findArchetypes ts).Pairwise fun a a' => a.partition ≠ a'.partition := by
  rw [findArchetypes, List.pairwise_filterMap]
  refine (find_nodup h ts).imp ?_
  intro key key' hne a ha a' ha' hpartition
  exact hne (h.partitions key key' a a' ha ha' hpartition)

end Catalog

end ArchetypeStore
