/-! # Hash of a set of indices

  The hash of a set is the value at 31 of the polynomial whose coefficients are the
  ascending members, modulo 2 ^ 64.
-/

namespace ArchetypeStore

/-- `31 * h + index` folded over the indices, modulo 2 ^ 64. -/
def setHash (indices : List Nat) : UInt64 :=
  indices.foldl (fun h index => 31 * h + UInt64.ofNat index) 0

end ArchetypeStore
