import ArchetypeStore.Proofs.Catalog.Key
import ArchetypeStore.Proofs.TypeRegistry.Width

/-! # Refused types

  A type is refused because it is listed twice, because another type has its slot in the
  widest table, or because the memory refuses a wider table. Even the widest table has a
  layout, so no refusal is reported as a setting.
-/

namespace ArchetypeStore

/-- The error is about types: one is listed twice, two have one slot in the widest table, or the
memory refuses a table for them. -/
inductive StoreError.OfTypes : StoreError → Prop where
  | twice (name : String) : OfTypes (.duplicateComponentType name)
  | collision (hashBits : Nat) (first second : String) :
      OfTypes (.classIndexCollision hashBits first second)
  | table (bytes : Nat) : OfTypes (.allocationFailed bytes)

namespace TypeRegistry

variable {T : Type} [ComponentType T] [DecidableEq T] {ix ix' : TypeRegistry T} {e : StoreError}

theorem register_refused (h : ix.Wf) {t : T} (hreg : ix.register t = (.error e, ix')) :
    e.OfTypes := by
  unfold register at hreg
  split at hreg
  · cases hreg
  · split at hreg
    · cases hreg
    · split at hreg
      · rename_i hwiden
        cases hreg
        have hbits : ix.width + (ix.maxWidth - ix.width) ≤ maxBits := by
          have hwidth := h.width_le
          have hmax := h.maxWidth_le
          omega
        rcases ix.widen_cases t hbits with ⟨-, bytes, hstarved⟩ | ⟨width', table, hok, -⟩ |
          ⟨herror, -⟩
        · rw [hstarved] at hwiden
          cases hwiden
          exact .table bytes
        · rw [hok] at hwiden
          cases hwiden
        · rw [herror] at hwiden
          cases hwiden
          exact .collision ..
      · cases hreg

theorem registerAll_refused (h : ix.Wf) {ts : List T}
    (hreg : ix.registerAll ts = (.error e, ix')) : e.OfTypes := by
  induction ts generalizing ix with
  | nil => cases hreg
  | cons t rest ih =>
    unfold registerAll at hreg
    split at hreg
    · rename_i hfirst
      cases hreg
      exact register_refused h hfirst
    · rename_i hfirst
      split at hreg
      · rename_i hrest
        cases hreg
        exact ih (register_ok h hfirst).1 hrest
      · cases hreg

theorem hashOf_refused (h : ix.Wf) {ts : List T} (hhash : ix.hashOf ts = (.error e, ix')) :
    e.OfTypes := by
  have hwhy := (hashOf_error h hhash).2.2
  unfold hashOf at hhash
  split at hhash
  · rename_i hall
    cases hhash
    exact registerAll_refused h hall
  · split at hhash
    · rename_i hsort
      cases hhash
      rcases CountingSort.sort_error hsort with ⟨v, -, -, rfl⟩ | ⟨v, -, rfl, -⟩
      · -- An index is never out of the range that is sorted.
        rcases hwhy with ⟨t, -, hname⟩ | hfatal | hlayout
        · cases hname
        · cases hfatal
        · cases hlayout
      · exact .twice _
    · cases hhash

theorem collect_refused (h : ix.Wf) {types : DenseMap T} {ts : List T}
    (hcollect : ix.collect types ts = (.error e, ix')) : e.OfTypes := by
  induction ts generalizing ix types with
  | nil => cases hcollect
  | cons t rest ih =>
    unfold collect at hcollect
    split at hcollect
    · rename_i hreg
      cases hcollect
      exact register_refused h hreg
    · rename_i hreg
      split at hcollect
      · cases hcollect
        exact .twice _
      · exact ih (register_ok h hreg).1 hcollect

theorem keyOf_refused (h : ix.Wf) {ts : List T} (hne : ts ≠ [])
    (hkey : ix.keyOf ts = (.error e, ix')) : e.OfTypes := by
  match ts, hne, hkey with
  | [t], _, hkey =>
    rw [keyOf_single] at hkey
    split at hkey
    · rename_i hreg
      cases hkey
      exact register_refused h hreg
    · cases hkey
  | t :: t' :: rest, _, hkey =>
    rw [keyOf_several] at hkey
    split at hkey
    · rename_i hhash
      cases hkey
      exact hashOf_refused h hhash
    · rename_i hhash
      split at hkey
      · rename_i hcollect
        cases hkey
        exact collect_refused (hashOf_ok h hhash).1 hcollect
      · cases hkey

end TypeRegistry

end ArchetypeStore
