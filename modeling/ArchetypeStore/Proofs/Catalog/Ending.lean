import ArchetypeStore.Catalog.Ending
import ArchetypeStore.Proofs.Catalog.Sound

/-! # The end of a catalog

  Links lead from single types to larger sets and nowhere else, so they never run in a
  circle. The first round takes every node of a single type, and the second one all the
  others. No archetype is left, and all that is stored is dropped.
-/

namespace ArchetypeStore

namespace SetNode

variable {T : Type}

theorem mem_held {nodes : List (SetNode T)} {n : SetNode T} :
    n ∈ held nodes ↔ n ∈ nodes ∧ ∃ m ∈ nodes, n.key ∈ m.links := by
  unfold held isLinked
  rw [List.mem_filter, List.any_eq_true]
  simp only [List.contains_iff_mem]

theorem heldAfter_nil (rounds : Nat) : heldAfter ([] : List (SetNode T)) rounds = [] := by
  induction rounds with
  | zero => rfl
  | succ rounds ih => exact ih

/-- Where no node that is held has links, two rounds take all nodes. -/
theorem held_held {nodes : List (SetNode T)} (h : ∀ n ∈ held nodes, n.links = []) :
    held (held nodes) = [] := by
  rw [List.eq_nil_iff_forall_not_mem]
  intro n hn
  obtain ⟨-, m, hm, hlink⟩ := mem_held.mp hn
  rw [h m hm] at hlink
  cases hlink

end SetNode

namespace Catalog

variable {T V : Type} [ComponentType T] {c : Catalog T V}

/-- A node that another one is linked to has no links. -/
theorem links_of_held (h : c.Wf) {n : SetNode T}
    (hn : n ∈ SetNode.held (c.root :: c.nodes.nodes)) : n.links = [] := by
  obtain ⟨hmem, m, hm, hlink⟩ := SetNode.mem_held.mp hn
  rcases List.mem_cons.mp hmem with rfl | hmem
  · exact h.root_links
  · rcases List.mem_cons.mp hm with rfl | hm
    · rw [h.root_links] at hlink
      cases hlink
    · rcases single_or_several m.types with ⟨index, hkeys⟩ | hsize
      · obtain ⟨n', hn', hkey, hseveral, -⟩ :=
          (h.nodes.links_single m hm index hkeys n.key).mp hlink
        rw [h.nodes.eq_of_key hn' hmem hkey] at hseveral
        exact h.nodes.links_several n hmem hseveral
      · rw [h.nodes.links_several m hm hsize] at hlink
        cases hlink

/-- No node outlives the catalog. -/
theorem lasting_eq_nil (h : c.Wf) : c.lasting = [] := by
  have hrounds := SetNode.held_held fun n hn => links_of_held h hn
  unfold lasting nodeCount NodeTable.size
  cases hnodes : c.nodes.nodes with
  | nil =>
    -- The root alone holds nothing, and one round is enough.
    rw [List.length_nil]
    refine List.eq_nil_iff_forall_not_mem.mpr fun n hn => ?_
    obtain ⟨-, m, hm, hlink⟩ := SetNode.mem_held.mp hn
    rw [List.mem_singleton.mp hm, h.root_links] at hlink
    cases hlink
  | cons n rest =>
    rw [hnodes] at hrounds
    simp only [List.length_cons, SetNode.heldAfter]
    rw [hrounds, SetNode.heldAfter_nil]

/-- The end of a catalog drops all that is stored, and nothing is stored then. -/
theorem close_spec (h : c.Wf) :
    c.close.1 = c.store.storedValues ∧ c.close.2.store.storedValues = [] := by
  unfold close
  rw [lasting_eq_nil h, List.any_nil, if_neg Bool.false_ne_true]
  exact ⟨rfl, rfl⟩

/-- A catalog that has ended has no archetype. The id words of the items stay. -/
theorem close_bare (h : c.Wf) :
    (∀ key, c.close.2.archetype? key = none) ∧ c.close.2.store.ids = c.store.ids := by
  unfold close
  rw [lasting_eq_nil h, List.any_nil, if_neg Bool.false_ne_true]
  refine ⟨fun key => ?_, rfl⟩
  unfold archetype? node? keepOnly
  simp only
  split <;> rfl

end Catalog

end ArchetypeStore
