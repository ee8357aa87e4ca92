import ArchetypeStore.View.Shape

/-! # Replacing the elements of a shape

  A replacement succeeds when every element has one, and two replacements in turn are one
  replacement by both. Each law goes along with its like for lists of shapes.
-/

namespace ArchetypeStore.Shape

variable {α β γ : Type}

mutual

theorem traverse?_isSome (f : α → Option β) : ∀ q : Shape α,
    (q.traverse? f).isSome = true ↔ ∀ a ∈ q.leaves, (f a).isSome = true
  | leaf a => by simp [traverse?, leaves]
  | tuple parts => by
    have hparts := traverseOf?_isSome f parts
    simpa [traverse?, leaves] using hparts

theorem traverseOf?_isSome (f : α → Option β) : ∀ parts : List (Shape α),
    (traverseOf? f parts).isSome = true ↔ ∀ a ∈ leavesOf parts, (f a).isSome = true
  | [] => by simp [traverseOf?, leavesOf]
  | part :: rest => by
    have hpart := traverse?_isSome f part
    have hrest := traverseOf?_isSome f rest
    have hboth : (traverseOf? f (part :: rest)).isSome = true ↔
        (part.traverse? f).isSome = true ∧ (traverseOf? f rest).isSome = true := by
      rw [traverseOf?]
      cases part.traverse? f <;> cases traverseOf? f rest <;> simp
    rw [hboth, hpart, hrest]
    simp only [leavesOf, List.mem_append]
    constructor
    · rintro ⟨h, h'⟩ a (ha | ha)
      · exact h a ha
      · exact h' a ha
    · exact fun h => ⟨fun a ha => h a (.inl ha), fun a ha => h a (.inr ha)⟩

end

mutual

theorem traverse?_bind (f : α → Option β) (g : β → Option γ) : ∀ q : Shape α,
    (q.traverse? f).bind (·.traverse? g) = q.traverse? fun a => (f a).bind g
  | leaf a => by
    unfold traverse?
    cases f a <;> rfl
  | tuple parts => by
    have hparts := traverseOf?_bind f g parts
    unfold traverse?
    rw [← hparts]
    cases traverseOf? f parts <;> rfl

theorem traverseOf?_bind (f : α → Option β) (g : β → Option γ) : ∀ parts : List (Shape α),
    (traverseOf? f parts).bind (traverseOf? g) = traverseOf? (fun a => (f a).bind g) parts
  | [] => rfl
  | part :: rest => by
    have hpart := traverse?_bind f g part
    have hrest := traverseOf?_bind f g rest
    rw [traverseOf?, traverseOf?, ← hpart, ← hrest]
    cases hp : part.traverse? f with
    | none => rfl
    | some part' =>
      cases hr : traverseOf? f rest with
      | none =>
        simp only [Option.bind_some, Option.bind_none]
        split
        · rename_i hnone
          cases hnone
        · rfl
      | some rest' =>
        simp only [Option.bind_some]
        rw [traverseOf?]

end

mutual

theorem traverse?_congr {f g : α → Option β} : ∀ q : Shape α,
    (∀ a ∈ q.leaves, f a = g a) → q.traverse? f = q.traverse? g
  | leaf a, h => by
    rw [traverse?, traverse?, h a (by simp [leaves])]
  | tuple parts, h => by
    rw [traverse?, traverse?, traverseOf?_congr parts (by simpa [leaves] using h)]

theorem traverseOf?_congr {f g : α → Option β} : ∀ parts : List (Shape α),
    (∀ a ∈ leavesOf parts, f a = g a) → traverseOf? f parts = traverseOf? g parts
  | [], _ => rfl
  | part :: rest, h => by
    have hpart := traverse?_congr part fun a ha => h a (by simp [leavesOf, ha])
    have hrest := traverseOf?_congr rest fun a ha => h a (by simp [leavesOf, ha])
    rw [traverseOf?, traverseOf?, hpart, hrest]

end

mutual

/-- The elements of a shape that was replaced are replacements. -/
theorem of_mem_leaves {f : α → Option β} : ∀ {q : Shape α} {q' : Shape β},
    q.traverse? f = some q' → ∀ b ∈ q'.leaves, ∃ a ∈ q.leaves, f a = some b
  | leaf a, q', h, b, hb => by
    rw [traverse?] at h
    obtain ⟨b', hb', rfl⟩ := Option.map_eq_some_iff.mp h
    rw [leaves, List.mem_singleton] at hb
    exact ⟨a, by simp [leaves], hb ▸ hb'⟩
  | tuple parts, q', h, b, hb => by
    rw [traverse?] at h
    obtain ⟨parts', hparts, rfl⟩ := Option.map_eq_some_iff.mp h
    rw [leaves] at hb ⊢
    exact of_mem_leavesOf hparts b hb

theorem of_mem_leavesOf {f : α → Option β} : ∀ {parts : List (Shape α)} {parts' : List (Shape β)},
    traverseOf? f parts = some parts' →
      ∀ b ∈ leavesOf parts', ∃ a ∈ leavesOf parts, f a = some b
  | [], parts', h, b, hb => by
    cases h
    cases hb
  | part :: rest, parts', h, b, hb => by
    rw [traverseOf?] at h
    split at h
    · rename_i part' rest' hpart hrest
      cases h
      rw [leavesOf, List.mem_append] at hb
      rcases hb with hb | hb
      · obtain ⟨a, ha, hf⟩ := of_mem_leaves hpart b hb
        exact ⟨a, by simp [leavesOf, ha], hf⟩
      · obtain ⟨a, ha, hf⟩ := of_mem_leavesOf hrest b hb
        exact ⟨a, by simp [leavesOf, ha], hf⟩
    · cases h

end

end ArchetypeStore.Shape
