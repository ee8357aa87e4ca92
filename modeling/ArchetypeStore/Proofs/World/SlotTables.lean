import ArchetypeStore.Proofs.Sample
import ArchetypeStore.Proofs.World.Shared

/-! # Slot tables stay right

  The slot table of an archetype is written once, from the indices that its types have by
  then. It is read for as long as the world is in use, through the indices that types have
  at that time. In between types are registered, registrations are refused, and the table
  of the registry is built again. An index is given once and for good, so the slot of a type
  stays the number of its column, and a type that came later leads to no slot. What the rows
  hold makes no difference to this, nor does it matter how they were called.
-/

namespace ArchetypeStore

variable {T V : Type} [DecidableEq T] [ComponentType T]

/-! ### Indices -/

namespace Archetype.Wf

variable {registry registry' : TypeRegistry T} {a : Archetype T} (h : a.Wf registry)

include h

/-- The type of a column is registered under the index of the column. -/
theorem index?_of_column (hreg : registry.Wf) {slot : Nat} {t : T}
    (ht : a.types[slot]? = some t) : registry.index? t = a.indices[slot]? := by
  have hlt := (List.getElem?_eq_some_iff.mp ht).1
  rw [← h.lists.length] at hlt
  have hindex := List.getElem?_eq_getElem hlt
  obtain ⟨t', ht', htype⟩ := h.lists.getElem? hindex
  rw [ht] at ht'
  cases ht'
  rw [hindex, hreg.index?_eq_some_iff]
  exact htype

/-- A type without an index is none of the columns, and never will be. -/
theorem slot?_of_unknown (hreg : registry.Wf) (h' : a.Wf registry') (hreg' : registry'.Wf) {t : T}
    (ht : registry.index? t = none) : a.slot? registry' t = none := by
  rw [h'.slot?_eq_none_iff hreg']
  intro hmem
  obtain ⟨index, -, htype⟩ := h.lists.index_of_mem hmem
  rw [hreg.index?_eq_some_iff.mpr htype] at ht
  cases ht

end Archetype.Wf

/-! ### Slots for good -/

namespace World

variable {w w' : World T V} {key : UInt64} {a : Archetype T}

/-- The archetype was there in the first world, and its slots are right in the second one. -/
structure SlotsHold (w w' : World T V) (key : UInt64) (a : Archetype T) : Prop where
  archetype : w'.catalog.archetype? key = some a
  /-- A type leads to the slot with its column, and to no other. -/
  slot?_iff : ∀ t slot, a.slot? w'.registry t = some slot ↔ a.types[slot]? = some t
  contains_iff : ∀ t, a.contains w'.registry t = true ↔ t ∈ a.types
  types_nodup : a.types.Nodup
  ascending : a.indices.Pairwise (· < ·)
  length : a.indices.length = a.types.length
  index? : ∀ (slot : Nat) (t : T), a.types[slot]? = some t → w'.registry.index? t = a.indices[slot]?
  /-- The partition and its chunks have the types as columns. -/
  columns : w'.store.layout? a.partition = some a.types
  chunks : ∀ chunk ∈ w'.store.chain a.partition, ∀ c, w'.store.chunks[chunk]? = some c →
    c.layout = a.types
  /-- A type that had no index in the first world has no slot, whether it has one now or not. -/
  late : ∀ t, w.registry.index? t = none → a.slot? w'.registry t = none
  unknown : ∀ t, w'.registry.index? t = none → a.slot? w'.registry t = none

theorem Upheld.slotsHold (hup : Upheld RowStore.Wired w w') (h : w.Founded RowStore.Wired)
    (ha : w.catalog.archetype? key = some a) : SlotsHold w w' key a := by
  have hwf := h.catalog.archetype_wf ha
  obtain ⟨hwf', hlayout⟩ := hup.houses a (h.houses ha)
  have hregistry' := hup.founded.catalog.registry
  constructor
  case archetype => exact hup.archetypes key a ha
  case slot?_iff => exact fun t slot => hwf'.slot?_eq_some_iff hregistry'
  case contains_iff => exact fun t => hwf'.contains_iff hregistry'
  case types_nodup => exact hwf'.types_nodup hregistry'
  case ascending => exact hwf'.ascending
  case length => exact hwf'.lists.length
  case index? => exact fun slot t ht => hwf'.index?_of_column hregistry' ht
  case columns => exact hlayout
  case chunks =>
    intro chunk hc c hchunk
    have hcolumns := hup.founded.store.layout_of_chunk hc hchunk
    rw [hlayout] at hcolumns
    exact (Option.some.inj hcolumns).symm
  case late => exact fun t ht => hwf.slot?_of_unknown h.catalog.registry hwf' hregistry' ht
  case unknown => exact fun t ht => hwf'.slot?_of_unknown hregistry' hwf' hregistry' ht

end World

namespace SharedWorld

/-- The slots of an archetype stay right, whatever is done before and after it was made. -/
theorem slots_hold {number : Nat} {settings : Settings} {w : World T V}
    (made : World.create number settings = .ok w) (uses later : List (Use T V)) {key : UInt64}
    {a : Archetype T} (ha : ((ofWorld w).after uses).world.catalog.archetype? key = some a) :
    World.SlotsHold ((ofWorld w).after uses).world
      (((ofWorld w).after uses).after later).world key a := by
  have hcreated : (ofWorld w).world.Founded RowStore.Wired :=
    create_founded RowStore.wired_lasting (fun _ => RowStore.empty_wired) made
  have hfounded := (after_wired hcreated uses).founded
  exact (after_wired hfounded later).slotsHold hfounded ha

/-- Four component types. The table of a registry needs two bits to tell the first three
apart, and never tells the last one from the first. -/
inductive Terrain where
  | grass
  | water
  | sand
  | moss
  deriving DecidableEq

instance : ComponentType Terrain where
  name
    | .grass => "Grass"
    | .water => "Water"
    | .sand => "Sand"
    | .moss => "Moss"
  size _ := 8
  align _ := 8
  hash
    | .grass => 0
    | .water => UInt64.ofNat (1 <<< 63)
    | .sand => UInt64.ofNat (1 <<< 62)
    | .moss => 1

/-- A table of one bit, or of two when types collide. -/
def coarse : Settings := { Settings.default with indexBits := 1, maxIndexBits := 2 }

/-- The archetype of the first type is asked for. -/
def seeding : List (Use Terrain Nat) := [.event (.archetype [.grass])]

/-- The other types are registered; the last one is refused. -/
def spreading : List (Use Terrain Nat) :=
  [.register (.register .water), .register (.registerAll [.sand, .moss])]

/-- The table is built again behind the archetype, which keeps its slot and gets no other. -/
theorem slots_hold_spreading : ∃ (w : World Terrain Nat) (a : Archetype Terrain),
    World.create 0 coarse = .ok w ∧
      ((ofWorld w).after seeding).world.catalog.archetype? 1 = some a ∧
      ((ofWorld w).after seeding).world.registry.width = 1 ∧
      (((ofWorld w).after seeding).after spreading).world.registry.width = 2 ∧
      (((ofWorld w).after seeding).after spreading).world.registry.index? .sand = some 3 ∧
      (((ofWorld w).after seeding).after spreading).world.registry.index? .moss = none ∧
      World.SlotsHold ((ofWorld w).after seeding).world
        (((ofWorld w).after seeding).after spreading).world 1 a := by
  have hmade : ((World.create 0 coarse : Except StoreError (World Terrain Nat)).map fun w =>
      (((ofWorld w).after seeding).world.catalog.archetype? 1 |>.isSome,
        ((ofWorld w).after seeding).world.registry.width,
        (((ofWorld w).after seeding).after spreading).world.registry.width,
        (((ofWorld w).after seeding).after spreading).world.registry.index? .sand,
        (((ofWorld w).after seeding).after spreading).world.registry.index? .moss)) =
          .ok (true, 1, 2, some 3, none) := by decide +kernel
  obtain ⟨w, hcreate, hseen⟩ := exists_of_map hmade
  simp only [Prod.mk.injEq] at hseen
  obtain ⟨hsome, hbefore, hafter, hsand, hmoss⟩ := hseen
  obtain ⟨a, ha⟩ := Option.isSome_iff_exists.mp hsome
  exact ⟨w, a, hcreate, ha, hbefore, hafter, hsand, hmoss,
    slots_hold hcreate seeding spreading ha⟩

end SharedWorld

end ArchetypeStore
