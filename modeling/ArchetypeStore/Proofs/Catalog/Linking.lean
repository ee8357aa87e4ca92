import ArchetypeStore.Proofs.Catalog.Nodes

/-! # Making nodes

  The node of a single type is made without links: no larger set has the type yet, or the
  node would be there. The node of a larger set is made last and then linked from the
  nodes of its types.
-/

namespace ArchetypeStore.NodeTable

variable {T : Type} {registry : TypeRegistry T} {table table' : NodeTable T}

/-- A key that no node has can be added. -/
theorem Wf.keys_nodup_append (h : table.Wf registry) {key : UInt64}
    (hnone : table.get? key = none) : (table.nodes.map (·.key) ++ [key]).Nodup := by
  rw [List.nodup_append]
  refine ⟨h.keys_nodup, List.pairwise_singleton .., fun a ha b hb => ?_⟩
  obtain ⟨n, hn, rfl⟩ := List.mem_map.mp ha
  rw [List.mem_singleton.mp hb]
  exact get?_eq_none_iff.mp hnone n hn

/-! ### Single types -/

/-- Adding the node of a single type that has none. -/
theorem Wf.addSingle (h : table.Wf registry) {types : DenseMap T} (hwf : types.Wf)
    (hidx : Archetype.Indexes registry types) {index : Nat}
    (hkeys : types.keys.toList = [index]) (hnone : table.get? (UInt64.ofNat index) = none) :
    Wf registry ⟨table.nodes ++ [SetNode.create (UInt64.ofNat index) types]⟩ := by
  have hnode : (SetNode.create (UInt64.ofNat index) types).Wf registry := by
    refine ⟨hwf, hidx, fun hnil => ?_, (keyFor_of_single hkeys).symm⟩
    rw [SetNode.create, hkeys] at hnil
    cases hnil
  have hmem : ∀ n, n ∈ table.nodes ++ [SetNode.create (UInt64.ofNat index) types] ↔
      n ∈ table.nodes ∨ n = SetNode.create (UInt64.ofNat index) types := by simp
  -- A larger set with the type would have brought the node along.
  have habsent : ∀ m ∈ table.nodes, index ∉ m.types.keys.toList := by
    intro m hm hindex
    obtain ⟨n, hn, hnkeys⟩ := h.singles m hm index hindex
    refine get?_eq_none_iff.mp hnone n hn ?_
    rw [(h.nodes n hn).key, keyFor_of_single hnkeys]
  refine ⟨?_, ?_, ?_, ?_, ?_, ?_⟩
  · intro n hn
    rcases (hmem n).mp hn with hn | rfl
    · exact h.nodes n hn
    · exact hnode
  · rw [List.map_append]
    exact h.keys_nodup_append hnone
  · intro n hn i hi
    rcases (hmem n).mp hn with hn | rfl
    · obtain ⟨m, hm, hmkeys⟩ := h.singles n hn i hi
      exact ⟨m, (hmem m).mpr (.inl hm), hmkeys⟩
    · rw [SetNode.create, hkeys] at hi
      rw [List.mem_singleton.mp hi]
      exact ⟨_, (hmem _).mpr (.inr rfl), hkeys⟩
  · intro n hn
    rcases (hmem n).mp hn with hn | rfl
    · exact h.links_nodup n hn
    · exact List.nodup_nil
  · intro n hn i hi key
    rcases (hmem n).mp hn with hn | rfl
    · rw [h.links_single n hn i hi key]
      constructor
      · rintro ⟨m, hm, hrest⟩
        exact ⟨m, (hmem m).mpr (.inl hm), hrest⟩
      · rintro ⟨m, hm, hkey, hsize, hi'⟩
        rcases (hmem m).mp hm with hm | rfl
        · exact ⟨m, hm, hkey, hsize, hi'⟩
        · exact absurd (size_of_single hkeys) hsize
    · rw [SetNode.create, hkeys] at hi
      cases hi
      constructor
      · intro hkey
        cases hkey
      · rintro ⟨m, hm, -, hsize, hi'⟩
        rcases (hmem m).mp hm with hm | rfl
        · exact absurd hi' (habsent m hm)
        · exact absurd (size_of_single hkeys) hsize
  · intro n hn hsize
    rcases (hmem n).mp hn with hn | rfl
    · exact h.links_several n hn hsize
    · exact absurd (size_of_single hkeys) hsize

theorem Grows.append (table : NodeTable T) (key : UInt64) (types : DenseMap T) :
    table.Grows ⟨table.nodes ++ [SetNode.create key types]⟩ := by
  refine ⟨fun n hn => ⟨n, List.mem_append_left _ hn, rfl, rfl, rfl⟩, fun n hn => ?_⟩
  rcases List.mem_append.mp hn with hn | hn
  · exact .inr ⟨n, hn, rfl, rfl, rfl⟩
  · rw [List.mem_singleton.mp hn]
    exact .inl rfl

/-- Making the node of a single type, unless it is there. -/
theorem ensure_single (h : table.Wf registry) {types : DenseMap T} (hwf : types.Wf)
    (hidx : Archetype.Indexes registry types) {index : Nat}
    (hkeys : types.keys.toList = [index])
    (hensure : table.ensure (UInt64.ofNat index) types = (.ok (), table')) :
    table'.Wf registry ∧ table.Grows table' ∧
      (∃ n ∈ table'.nodes, n.types.keys.toList = [index]) ∧
        ∀ n ∈ table'.nodes, n.types.size = 1 ∨ n ∈ table.nodes := by
  unfold ensure at hensure
  split at hensure
  · cases hensure
  · rename_i hhas
    cases hensure
    obtain ⟨n, hget, hsame⟩ := has_true hhas
    obtain ⟨hn, -⟩ := h.get?_eq_some_iff.mp hget
    have hperm := SetNode.hasTypes_perm (h.nodes n hn).types hwf hsame
    -- The node that is there has the same single index.
    rw [hkeys, List.perm_singleton] at hperm
    exact ⟨h, .refl _, ⟨n, hn, hperm⟩, fun m hm => .inr hm⟩
  · rename_i hhas
    cases hensure
    refine ⟨h.addSingle hwf hidx hkeys (has_false hhas), .append .., ?_, fun m hm => ?_⟩
    · exact ⟨_, List.mem_append_right _ (List.mem_singleton.mpr rfl), hkeys⟩
    · rcases List.mem_append.mp hm with hm | hm
      · exact .inr hm
      · rw [List.mem_singleton.mp hm]
        exact .inl (size_of_single hkeys)

theorem ensure_error {key : UInt64} {types : DenseMap T} {e : StoreError}
    (hensure : table.ensure key types = (.error e, table')) :
    table' = table ∧ e.StopsGrowth := by
  unfold ensure at hensure
  split at hensure
  · rename_i hhas
    cases hensure
    exact ⟨rfl, has_error hhas⟩
  · cases hensure
  · cases hensure

/-- The map with one entry. -/
theorem insert_single (index : Nat) (t : T) :
    ((DenseMap.withCapacity (index + 1)).insert index t).2.Wf ∧
      ((DenseMap.withCapacity (index + 1)).insert index t).2.keys.toList = [index] ∧
        ∀ registry : TypeRegistry T, registry.type? index = some t →
          Archetype.Indexes registry ((DenseMap.withCapacity (index + 1)).insert index t).2 := by
  have hwf := DenseMap.withCapacity_wf (V := T) (index + 1)
  have hnew := DenseMap.contains_withCapacity (V := T) (index + 1) index
  have hroom := DenseMap.room_withCapacity (V := T) (index + 1)
  obtain ⟨-, hwf', hkeys, -⟩ := DenseMap.insert_of_new hwf hnew hroom t
  refine ⟨hwf', ?_, fun registry ht => ?_⟩
  · rw [hkeys]
    rfl
  · exact (Archetype.indexes_withCapacity registry _).insert hwf hnew hroom ht

theorem ensureSingles_ok (h : table.Wf registry) {entries : List (Nat × T)}
    (hentries : ∀ entry ∈ entries, registry.type? entry.1 = some entry.2)
    (hensure : table.ensureSingles entries = (.ok (), table')) :
    table'.Wf registry ∧ table.Grows table' ∧
      (∀ entry ∈ entries, ∃ n ∈ table'.nodes, n.types.keys.toList = [entry.1]) ∧
        ∀ n ∈ table'.nodes, n.types.size = 1 ∨ n ∈ table.nodes := by
  induction entries generalizing table with
  | nil =>
    cases hensure
    exact ⟨h, .refl _, fun entry hentry => (nomatch hentry), fun n hn => .inr hn⟩
  | cons entry rest ih =>
    obtain ⟨index, t⟩ := entry
    unfold ensureSingles at hensure
    split at hensure
    · cases hensure
    · rename_i table₁ hfirst
      obtain ⟨hwf, hkeys, hidx⟩ := insert_single index t
      obtain ⟨h₁, hgrows₁, hnode₁, honly₁⟩ := ensure_single h hwf
        (hidx registry (hentries _ (List.mem_cons_self ..))) hkeys hfirst
      obtain ⟨h', hgrows, hnodes, honly⟩ := ih h₁
        (fun e he => hentries e (List.mem_cons_of_mem _ he)) hensure
      refine ⟨h', hgrows₁.trans hgrows, fun e he => ?_, fun n hn => ?_⟩
      · rcases List.mem_cons.mp he with rfl | he
        · obtain ⟨n, hn, hnkeys⟩ := hnode₁
          obtain ⟨n', hn', -, htypes, -⟩ := hgrows.keeps n hn
          exact ⟨n', hn', by rw [htypes, hnkeys]⟩
        · exact hnodes e he
      · rcases honly n hn with hsize | hn
        · exact .inl hsize
        · exact honly₁ n hn

theorem ensureSingles_error (h : table.Wf registry) {entries : List (Nat × T)}
    (hentries : ∀ entry ∈ entries, registry.type? entry.1 = some entry.2)
    {e : StoreError} (hensure : table.ensureSingles entries = (.error e, table')) :
    table'.Wf registry ∧ table.Grows table' ∧ e.StopsGrowth := by
  induction entries generalizing table with
  | nil => cases hensure
  | cons entry rest ih =>
    obtain ⟨index, t⟩ := entry
    unfold ensureSingles at hensure
    split at hensure
    · rename_i hfirst
      cases hensure
      obtain ⟨rfl, hstops⟩ := ensure_error hfirst
      exact ⟨h, .refl _, hstops⟩
    · rename_i table₁ hfirst
      obtain ⟨hwf, hkeys, hidx⟩ := insert_single index t
      obtain ⟨h₁, hgrows₁, -⟩ := ensure_single h hwf
        (hidx registry (hentries _ (List.mem_cons_self ..))) hkeys hfirst
      obtain ⟨h', hgrows, hstops⟩ := ih h₁
        (fun e he => hentries e (List.mem_cons_of_mem _ he)) hensure
      exact ⟨h', hgrows₁.trans hgrows, hstops⟩

/-! ### Larger sets -/

/-- The link that a node gets when a larger set with these indices is made. -/
def linkIf (key : UInt64) (indices : List Nat) (n : SetNode T) : SetNode T :=
  if n.key ∈ indices.map UInt64.ofNat then n.link key else n

@[simp] theorem key_linkIf (key : UInt64) (indices : List Nat) (n : SetNode T) :
    (linkIf key indices n).key = n.key := by
  unfold linkIf
  split
  · exact SetNode.key_link n key
  · rfl

@[simp] theorem types_linkIf (key : UInt64) (indices : List Nat) (n : SetNode T) :
    (linkIf key indices n).types = n.types := by
  unfold linkIf
  split
  · exact SetNode.types_link n key
  · rfl

@[simp] theorem archetype_linkIf (key : UInt64) (indices : List Nat) (n : SetNode T) :
    (linkIf key indices n).archetype = n.archetype := by
  unfold linkIf
  split
  · exact SetNode.archetype_link n key
  · rfl

/-- Linking the single types one after the other is linking each of them once. -/
theorem linkSingles_nodes (table : NodeTable T) (key : UInt64) (indices : List Nat) :
    (table.linkSingles key indices).nodes = table.nodes.map (linkIf key indices) := by
  induction indices generalizing table with
  | nil =>
    have hid : ∀ n : SetNode T, linkIf key [] n = n := fun n => if_neg List.not_mem_nil
    rw [funext hid, List.map_id']
    rfl
  | cons index rest ih =>
    have hstep : (table.linkSingles key (index :: rest)).nodes =
        ((table.modify (UInt64.ofNat index) (·.link key)).linkSingles key rest).nodes := rfl
    rw [hstep, ih, modify, List.map_map]
    refine List.map_congr_left fun n _ => ?_
    simp only [Function.comp_apply, linkIf, List.map_cons, List.mem_cons, beq_iff_eq]
    by_cases hindex : n.key = UInt64.ofNat index
    · simp [hindex, SetNode.link_link]
    · simp [hindex]

variable [ComponentType T]

/-- The node of a single type gets the link if its type is in the larger set. -/
theorem mem_links_linkIf_single (h : table.Wf registry) (hreg : registry.Wf) {n : SetNode T}
    (hn : n ∈ table.nodes) {index : Nat} (hkeys : n.types.keys.toList = [index])
    {indices : List Nat} (hbound : ∀ i ∈ indices, i ≤ 1 <<< TypeRegistry.maxBits)
    (key key' : UInt64) :
    key' ∈ (linkIf key indices n).links ↔
      key' ∈ n.links ∨ index ∈ indices ∧ key' = key := by
  have hnkey : n.key = UInt64.ofNat index := by
    rw [(h.nodes n hn).key, keyFor_of_single hkeys]
  have hindex := ((h.nodes n hn).index_bounds hreg (hkeys ▸ List.mem_singleton.mpr rfl)).2
  have hiff : n.key ∈ indices.map UInt64.ofNat ↔ index ∈ indices := by
    rw [hnkey, List.mem_map]
    constructor
    · rintro ⟨i, hi, heq⟩
      rw [← indexKey_inj (hbound i hi) hindex heq]
      exact hi
    · exact fun hmem => ⟨index, hmem, rfl⟩
  unfold linkIf
  by_cases hmem : index ∈ indices
  · rw [if_pos (hiff.mpr hmem), SetNode.mem_links_link]
    simp [hmem]
  · rw [if_neg (fun hkey => hmem (hiff.mp hkey))]
    simp [hmem]

omit [ComponentType T] in
/-- The node of a larger set gets no link. -/
theorem linkIf_several {n : SetNode T} {types : DenseMap T} (hkey : n.key = keyFor types)
    (hsize : types.size ≠ 1) {indices : List Nat}
    (hbound : ∀ i ∈ indices, i ≤ 1 <<< TypeRegistry.maxBits) (key : UInt64) :
    linkIf key indices n = n := by
  refine if_neg fun hmem => ?_
  obtain ⟨i, hi, heq⟩ := List.mem_map.mp hmem
  rw [hkey, keyFor_of_size_ne_one hsize] at heq
  exact multiKey_ne_indexKey _ (hbound i hi) heq.symm

/-- Adding the node of a larger set whose types have their nodes, and linking it. -/
theorem Wf.addSeveral (h : table.Wf registry) (hreg : registry.Wf) {types : DenseMap T}
    (hwf : types.Wf) (hidx : Archetype.Indexes registry types)
    (hne : types.keys.toList ≠ []) (hsize : types.size ≠ 1)
    (hsingles : ∀ index ∈ types.keys.toList,
      ∃ n ∈ table.nodes, n.types.keys.toList = [index])
    (hnone : table.get? (keyFor types) = none) :
    Wf registry (linkSingles ⟨table.nodes ++ [SetNode.create (keyFor types) types]⟩
      (keyFor types) types.keys.toList) := by
  have hnode : (SetNode.create (keyFor types) types).Wf registry := ⟨hwf, hidx, hne, rfl⟩
  have hbound : ∀ i ∈ types.keys.toList, i ≤ 1 <<< TypeRegistry.maxBits :=
    fun i hi => (hnode.index_bounds hreg hi).2
  have hnew : linkIf (keyFor types) types.keys.toList (SetNode.create (keyFor types) types) =
      SetNode.create (keyFor types) types := linkIf_several rfl hsize hbound _
  have hmem : ∀ n', n' ∈ (linkSingles ⟨table.nodes ++ [SetNode.create (keyFor types) types]⟩
      (keyFor types) types.keys.toList).nodes ↔
        (∃ n ∈ table.nodes, n' = linkIf (keyFor types) types.keys.toList n) ∨
          n' = SetNode.create (keyFor types) types := by
    intro n'
    rw [linkSingles_nodes, List.map_append, List.map_singleton, hnew, List.mem_append,
      List.mem_singleton, List.mem_map]
    simp only [eq_comm]
  refine ⟨?_, ?_, ?_, ?_, ?_, ?_⟩
  · intro n' hn'
    rcases (hmem n').mp hn' with ⟨n, hn, rfl⟩ | rfl
    · have hold := h.nodes n hn
      refine ⟨?_, ?_, ?_, ?_⟩
      · rw [types_linkIf]
        exact hold.types
      · rw [types_linkIf]
        exact hold.indexed
      · rw [types_linkIf]
        exact hold.nonempty
      · rw [types_linkIf, key_linkIf]
        exact hold.key
    · exact hnode
  · have hkeys : (linkSingles ⟨table.nodes ++ [SetNode.create (keyFor types) types]⟩
        (keyFor types) types.keys.toList).nodes.map (·.key) =
          table.nodes.map (·.key) ++ [keyFor types] := by
      rw [linkSingles_nodes, List.map_map, List.map_append]
      simp [Function.comp_def, SetNode.create]
    rw [hkeys]
    exact h.keys_nodup_append hnone
  · -- The nodes of single types are those there were.
    have hsingle : ∀ index, (∃ n ∈ table.nodes, n.types.keys.toList = [index]) →
        ∃ m ∈ (linkSingles ⟨table.nodes ++ [SetNode.create (keyFor types) types]⟩
          (keyFor types) types.keys.toList).nodes, m.types.keys.toList = [index] := by
      rintro index ⟨n, hn, hkeys⟩
      refine ⟨_, (hmem _).mpr (.inl ⟨n, hn, rfl⟩), ?_⟩
      rw [types_linkIf]
      exact hkeys
    intro n' hn' index hindex
    refine hsingle index ?_
    rcases (hmem n').mp hn' with ⟨n, hn, rfl⟩ | rfl
    · rw [types_linkIf] at hindex
      exact h.singles n hn index hindex
    · exact hsingles index hindex
  · intro n' hn'
    rcases (hmem n').mp hn' with ⟨n, hn, rfl⟩ | rfl
    · unfold linkIf
      split
      · exact SetNode.links_link_nodup (h.links_nodup n hn) _
      · exact h.links_nodup n hn
    · exact List.nodup_nil
  · intro n' hn' index hkeys key
    rcases (hmem n').mp hn' with ⟨n, hn, rfl⟩ | rfl
    · rw [types_linkIf] at hkeys
      rw [mem_links_linkIf_single h hreg hn hkeys hbound, h.links_single n hn index hkeys]
      constructor
      · rintro (⟨m, hm, hkey, hmsize, hindex⟩ | ⟨hindex, rfl⟩)
        · refine ⟨_, (hmem _).mpr (.inl ⟨m, hm, rfl⟩), ?_⟩
          rw [key_linkIf, types_linkIf]
          exact ⟨hkey, hmsize, hindex⟩
        · exact ⟨_, (hmem _).mpr (.inr rfl), rfl, hsize, hindex⟩
      · rintro ⟨m', hm', hkey, hmsize, hindex⟩
        rcases (hmem m').mp hm' with ⟨m, hm, rfl⟩ | rfl
        · rw [key_linkIf] at hkey
          rw [types_linkIf] at hmsize hindex
          exact .inl ⟨m, hm, hkey, hmsize, hindex⟩
        · exact .inr ⟨hindex, hkey.symm⟩
    · exact absurd (size_of_single hkeys) hsize
  · intro n' hn' hn'size
    rcases (hmem n').mp hn' with ⟨n, hn, rfl⟩ | rfl
    · rw [types_linkIf] at hn'size
      rw [linkIf_several (h.nodes n hn).key hn'size hbound]
      exact h.links_several n hn hn'size
    · rfl

omit [ComponentType T] in
theorem Grows.linkSingles (table : NodeTable T) (key : UInt64) (indices : List Nat) :
    table.Grows (table.linkSingles key indices) := by
  refine ⟨fun n hn => ?_, fun n' hn' => ?_⟩
  · refine ⟨linkIf key indices n, ?_, key_linkIf .., types_linkIf .., archetype_linkIf ..⟩
    rw [linkSingles_nodes]
    exact List.mem_map_of_mem hn
  · rw [linkSingles_nodes] at hn'
    obtain ⟨n, hn, rfl⟩ := List.mem_map.mp hn'
    exact .inr ⟨n, hn, key_linkIf .., types_linkIf .., archetype_linkIf ..⟩

end ArchetypeStore.NodeTable
