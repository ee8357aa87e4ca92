import ArchetypeStore.Proofs.TypeRegistry

/-! # Indices are stable

  Types are registered one by one, in groups and on the way to a hash; some registrations
  are refused, for a collision or for want of memory, and the table is built again and
  again. Whatever the hash of the types is,
  the types that were accepted, each counted when it was accepted first, have the indices
  1, 2, 3 and so on, and no other type has one.
-/

namespace ArchetypeStore.TypeRegistry

variable {T : Type} [ComponentType T] [DecidableEq T]

/-! ### Runs -/

/-- One call that may register types, or a turn in how memory answers. -/
inductive Call (T : Type) where
  /-- A type is added, or looked up and added if it is new. -/
  | register (t : T)
  | registerAll (ts : List T)
  | hashOf (ts : List T)
  /-- From now on memory answers in this way. -/
  | memory (m : Memory)

/-- What a call leaves. -/
def perform (ix : TypeRegistry T) : Call T → TypeRegistry T
  | .register t => (ix.register t).2
  | .registerAll ts => (ix.registerAll ts).2
  | .hashOf ts => (ix.hashOf ts).2
  | .memory m => ix.withMemory m

/-- What is left after calls, the first one first. -/
def after (ix : TypeRegistry T) (calls : List (Call T)) : TypeRegistry T :=
  calls.foldl perform ix

/-- The types of a list that are accepted, up to the first refusal. -/
def accepted (ix : TypeRegistry T) : List T → List T
  | [] => []
  | t :: rest =>
    match ix.register t with
    | (.error _, _) => []
    | (.ok _, ix) => t :: ix.accepted rest

/-- The types that a call asks for. -/
def Call.types : Call T → List T
  | .register t => [t]
  | .registerAll ts => ts
  | .hashOf ts => ts
  | .memory _ => []

/-- The types that calls had accepted, in order and as often as they were accepted. -/
def log (ix : TypeRegistry T) : List (Call T) → List T
  | [] => []
  | call :: rest => ix.accepted call.types ++ (ix.perform call).log rest

/-- The types that calls had accepted, each where it was accepted first. -/
def registered (ix : TypeRegistry T) (calls : List (Call T)) : List T := (ix.log calls).eraseDups

/-! ### One registration -/

/-- An accepted type was known, or it is the last one now. -/
theorem register_cases {ix ix' : TypeRegistry T} {t : T} {index : Nat}
    (hreg : ix.register t = (.ok index, ix')) :
    ix.index? t = some index ∧ ix' = ix ∨
      ix.index? t = none ∧ index = ix.size + 1 ∧ ix'.types = ix.types.push t := by
  unfold register at hreg
  split at hreg
  · rename_i hknown
    cases hreg
    exact .inl ⟨hknown, rfl⟩
  · rename_i hnew
    right
    split at hreg
    · cases hreg
      exact ⟨hnew, rfl, rfl⟩
    · split at hreg
      · cases hreg
      · cases hreg
        exact ⟨hnew, rfl, rfl⟩

omit [ComponentType T] [DecidableEq T] in
theorem mem_types_iff {ix : TypeRegistry T} {t : T} :
    t ∈ ix.types.toList ↔ ∃ index, ix.type? index = some t := by
  simp only [type?_eq_some_iff, List.mem_iff_getElem?, Array.getElem?_toList]
  constructor
  · rintro ⟨i, hi⟩
    exact ⟨i + 1, i, rfl, hi⟩
  · rintro ⟨_, i, -, hi⟩
    exact ⟨i, hi⟩

/-- The registry holds the types of a log, each where it occurs first. -/
structure Records (ix : TypeRegistry T) (log : List T) : Prop extends Wf ix where
  types : ix.types.toList = log.eraseDups

namespace Records

variable {ix ix' : TypeRegistry T} {log : List T} (h : ix.Records log)

include h

theorem mem_iff {t : T} : t ∈ log ↔ ∃ index, ix.index? t = some index := by
  rw [← List.mem_eraseDups, ← h.types, mem_types_iff]
  simp only [h.index?_eq_some_iff]

theorem register {t : T} {index : Nat} (hreg : ix.register t = (.ok index, ix')) :
    ix'.Records (log ++ [t]) := by
  refine ⟨(register_ok h.toWf hreg).1, ?_⟩
  rw [List.eraseDups_append, ← h.types]
  rcases register_cases hreg with ⟨hknown, rfl⟩ | ⟨hnew, -, htypes⟩
  · -- A type that occurred before adds nothing.
    have hold : t ∈ log := h.mem_iff.mpr ⟨index, hknown⟩
    simp [List.removeAll, hold]
  · have hold : t ∉ log := by
      rw [h.mem_iff, hnew]
      rintro ⟨_, ⟨⟩⟩
    simp [List.removeAll, hold, htypes, List.eraseDups_cons]

theorem withMemory (m : Memory) : (ix.withMemory m).Records log :=
  ⟨h.toWf.withMemory m, h.types⟩

/-- A list is registered up to the first refusal. -/
theorem registerAll (ts : List T) :
    (ix.registerAll ts).2.Records (log ++ ix.accepted ts) := by
  induction ts generalizing ix log with
  | nil => simpa [TypeRegistry.registerAll, accepted] using h
  | cons t rest ih =>
    unfold TypeRegistry.registerAll accepted
    cases hreg : ix.register t with
    | mk answer ix₁ =>
      cases answer with
      | error e =>
        obtain ⟨rfl, -⟩ := register_error hreg
        simpa using h
      | ok index =>
        have hrest := ih (h.register hreg)
        simp only
        rw [List.append_assoc, List.singleton_append] at hrest
        cases hall : ix₁.registerAll rest with
        | mk answers ix₂ =>
          rw [hall] at hrest
          cases answers <;> exact hrest

end Records

/-! ### Runs of calls -/

/-- A hash registers what its types register, also when it is refused. -/
theorem hashOf_registry (ix : TypeRegistry T) (ts : List T) :
    (ix.hashOf ts).2 = (ix.registerAll ts).2 := by
  unfold hashOf
  cases hall : ix.registerAll ts with
  | mk answers ix' =>
    cases answers with
    | error e => rfl
    | ok indices =>
      simp only
      split <;> rfl

theorem registerAll_single (ix : TypeRegistry T) (t : T) :
    (ix.registerAll [t]).2 = (ix.register t).2 := by
  unfold registerAll
  cases hreg : ix.register t with
  | mk answer ix' => cases answer <;> rfl

/-- A call registers its types, or memory takes a turn. -/
theorem perform_cases (ix : TypeRegistry T) (call : Call T) :
    ix.perform call = (ix.registerAll call.types).2 ∨
      call.types = [] ∧ ∃ m, ix.perform call = ix.withMemory m := by
  cases call with
  | register t => exact .inl (registerAll_single ix t).symm
  | registerAll ts => exact .inl rfl
  | hashOf ts => exact .inl (hashOf_registry ix ts)
  | memory m => exact .inr ⟨rfl, m, rfl⟩

theorem perform_wf {ix : TypeRegistry T} (h : ix.Wf) (call : Call T) :
    (ix.perform call).Wf ∧ ix.Extends (ix.perform call) := by
  rcases ix.perform_cases call with heq | ⟨-, m, heq⟩
  case inr =>
    rw [heq]
    exact ⟨h.withMemory m, .withMemory ix m⟩
  rw [heq]
  cases hall : ix.registerAll call.types with
  | mk answer ix' =>
    cases answer with
    | error e =>
      obtain ⟨h', hext, -⟩ := registerAll_error h hall
      exact ⟨h', hext⟩
    | ok indices =>
      obtain ⟨h', hext, -⟩ := registerAll_ok h hall
      exact ⟨h', hext⟩

theorem after_wf {ix : TypeRegistry T} (h : ix.Wf) (calls : List (Call T)) :
    (ix.after calls).Wf ∧ ix.Extends (ix.after calls) := by
  induction calls generalizing ix with
  | nil => exact ⟨h, .refl ix⟩
  | cons call rest ih =>
    obtain ⟨h', hext⟩ := perform_wf h call
    obtain ⟨hafter, hext'⟩ := ih h'
    exact ⟨hafter, hext.trans hext'⟩

theorem Records.after {ix : TypeRegistry T} {log : List T} (h : ix.Records log)
    (calls : List (Call T)) : (ix.after calls).Records (log ++ ix.log calls) := by
  induction calls generalizing ix log with
  | nil => simpa [TypeRegistry.after, TypeRegistry.log] using h
  | cons call rest ih =>
    have hstep : (ix.perform call).Records (log ++ ix.accepted call.types) := by
      rcases ix.perform_cases call with heq | ⟨hnone, m, heq⟩
      · rw [heq]
        exact h.registerAll call.types
      · rw [heq, hnone, accepted, List.append_nil]
        exact h.withMemory m
    have hrest := ih hstep
    rw [List.append_assoc] at hrest
    exact hrest

theorem create_records {width maxWidth : Nat} {ix : TypeRegistry T}
    (h : create width maxWidth = .ok ix) : ix.Records [] := by
  refine ⟨create_wf h, ?_⟩
  unfold create at h
  split at h
  · cases h
  · cases halloc : allocateTable .ample width with
    | error e =>
      rw [halloc] at h
      cases h
    | ok block =>
      rw [halloc] at h
      cases h
      rfl

theorem log_append (ix : TypeRegistry T) (calls more : List (Call T)) :
    ix.log (calls ++ more) = ix.log calls ++ (ix.after calls).log more := by
  induction calls generalizing ix with
  | nil => rfl
  | cons call rest ih =>
    simp only [List.cons_append, log, ih, List.append_assoc]
    rfl

/-! ### Indices -/

/-- The types in the list have the indices 1, 2, 3 and so on, and no other type has one. -/
structure Indexed (ix : TypeRegistry T) (registered : List T) : Prop where
  index : ∀ t index, ix.index? t = some index ↔ ∃ i, index = i + 1 ∧ registered[i]? = some t
  unknown : ∀ t, ix.index? t = none ↔ t ∉ registered
  size : ix.size = registered.length
  name : ∀ i t, registered[i]? = some t → ix.typeName? (i + 1) = some (ComponentType.name t)
  no_name : ∀ index, index = 0 ∨ ix.size < index → ix.typeName? index = none
  /-- A type that has an index is answered with it, and nothing changes. -/
  again : ∀ t index, ix.index? t = some index → ix.register t = (.ok index, ix)
  /-- A new type is accepted under the next index, or it is refused and nothing changes. -/
  new : ∀ t, t ∉ registered →
    (∃ ix', ix.register t = (.ok (ix.size + 1), ix') ∧ ix'.index? t = some (ix.size + 1)) ∨
      ∃ e, ix.register t = (.error e, ix)
  /-- The answers for a list are the indices of its types. -/
  all : ∀ ts indices ix', ix.registerAll ts = (.ok indices, ix') →
    ts.map ix'.index? = indices.map some

/-- The types that indices stand for are found under them. -/
theorem Lists.map_index? {ix : TypeRegistry T} (h : ix.Wf) {indices : List Nat} {ts : List T}
    (hlists : ix.Lists indices ts) : ts.map ix.index? = indices.map some := by
  induction indices generalizing ts with
  | nil =>
    cases List.map_eq_nil_iff.mp hlists.symm
    rfl
  | cons index rest ih =>
    cases ts with
    | nil => cases hlists
    | cons t ts =>
      obtain ⟨ht, hrest⟩ := List.cons.inj hlists
      rw [List.map_cons, List.map_cons, h.index?_eq_some_iff.mpr ht, ih hrest]

theorem Records.indexed {ix : TypeRegistry T} {log : List T} (h : ix.Records log) :
    ix.Indexed log.eraseDups := by
  have htype : ∀ {index t}, ix.type? index = some t ↔
      ∃ i, index = i + 1 ∧ log.eraseDups[i]? = some t := by
    intro index t
    rw [type?_eq_some_iff, ← h.types]
    simp only [Array.getElem?_toList]
  have hunknown : ∀ t, ix.index? t = none ↔ t ∉ log.eraseDups := by
    intro t
    rw [List.mem_eraseDups, h.mem_iff, ← Option.isSome_iff_exists, Option.not_isSome_iff_eq_none]
  refine ⟨fun t index => h.index?_eq_some_iff.trans htype, hunknown, ?_, ?_, ?_, ?_, ?_, ?_⟩
  · rw [size, ← h.types, Array.length_toList]
  · intro i t hi
    rw [typeName?, htype.mpr ⟨i, rfl, hi⟩]
    rfl
  · intro index hout
    have hnone : ix.type? index = none := by
      rw [Option.eq_none_iff_forall_not_mem]
      intro t ht
      have := type?_le ht
      omega
    rw [typeName?, hnone]
    rfl
  · intro t index hindex
    exact register_known h.toWf (h.index?_eq_some_iff.mp hindex)
  · intro t hnew
    cases hreg : ix.register t with
    | mk answer ix' =>
      cases answer with
      | error e =>
        obtain ⟨rfl, -⟩ := register_error hreg
        exact .inr ⟨e, rfl⟩
      | ok index =>
        rcases register_cases hreg with ⟨hknown, -⟩ | ⟨-, rfl, -⟩
        · rw [(hunknown t).mpr hnew] at hknown
          cases hknown
        · obtain ⟨hwf, -, ht⟩ := register_ok h.toWf hreg
          exact .inl ⟨ix', rfl, hwf.index?_eq_some_iff.mpr ht⟩
  · intro ts indices ix' hall
    obtain ⟨hwf, -, hlists⟩ := registerAll_ok h.toWf hall
    exact hlists.map_index? hwf

theorem registered_prefix (ix : TypeRegistry T) (calls more : List (Call T)) :
    ix.registered calls <+: ix.registered (calls ++ more) := by
  unfold registered
  rw [log_append, List.eraseDups_append]
  exact List.prefix_append ..

/-- Whatever is registered, and whatever is refused on the way, the types that were accepted
are numbered in the order in which they were accepted first, and later calls keep their
numbers. -/
theorem create_indexed {width maxWidth : Nat} {ix : TypeRegistry T}
    (hcreate : create width maxWidth = .ok ix) (calls more : List (Call T)) :
    (ix.after calls).Indexed (ix.registered calls) ∧
      ix.registered calls <+: ix.registered (calls ++ more) ∧
        ∀ t index, (ix.after calls).index? t = some index →
          (ix.after (calls ++ more)).index? t = some index := by
  have hindexed : ∀ calls, (ix.after calls).Indexed (ix.registered calls) :=
    fun calls => ((create_records hcreate).after calls).indexed
  refine ⟨hindexed calls, registered_prefix ix calls more, fun t index hindex => ?_⟩
  obtain ⟨i, rfl, hi⟩ := ((hindexed calls).index t index).mp hindex
  obtain ⟨rest, hrest⟩ := registered_prefix ix calls more
  refine ((hindexed (calls ++ more)).index t (i + 1)).mpr ⟨i, rfl, ?_⟩
  rw [← hrest, List.getElem?_append_left (List.getElem?_eq_some_iff.mp hi).1, hi]

/-- Types that get in each other's way. -/
inductive Crowd where
  | first
  /-- Meets the first one in a table of two slots. -/
  | near
  /-- Meets the first one in every table. -/
  | twin
  deriving DecidableEq

instance : ComponentType Crowd where
  name
    | .first => "First"
    | .near => "Near"
    | .twin => "Twin"
  size _ := 4
  align _ := 4
  hash
    | .near => UInt64.ofNat (1 <<< 62)
    | _ => 0

/-- The second call has the table made wider, the third one is refused after a type it
knows, and the last one is refused as a whole. -/
def crowded : List (Call Crowd) :=
  [.register .first, .registerAll [.near, .first], .registerAll [.near, .twin],
    .hashOf [.near, .near]]

theorem create_indexed_crowded : ∃ ix : TypeRegistry Crowd, create 1 2 = .ok ix ∧
    (ix.after crowded).width = 2 ∧ ix.registered crowded = [.first, .near] ∧
      (ix.after crowded).Indexed [.first, .near] := by
  have hcreate : create 1 2 = .ok (⟨#[], 1, 2, [], .ample⟩ : TypeRegistry Crowd) := rfl
  have hregistered : registered ⟨#[], 1, 2, [], .ample⟩ crowded = [.first, .near] := by
    decide +kernel
  have hindexed := (create_indexed hcreate crowded []).1
  rw [hregistered] at hindexed
  exact ⟨_, hcreate, by decide +kernel, hregistered, hindexed⟩

end ArchetypeStore.TypeRegistry
