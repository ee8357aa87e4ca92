import ArchetypeStore.Proofs.Json.Reading
import ArchetypeStore.Settings.Json

/-! # Settings survive their text

  Settings that are written are read back as they were, whatever the numbers are and whether
  there is a limit on chunks or none. What is read is checked, so settings that are out of
  range come back as the error of the check. This is so for every codec that writes and reads
  standard JSON.
-/

namespace ArchetypeStore

open Json

namespace Settings

/-! ### What is written -/

/-- The text of settings spells them. -/
theorem spells_fields (c : Settings) : Spells c.fields (pretty c.fields) := by
  refine spells_pretty fun field hfield => ?_
  simp only [List.mem_cons, List.not_mem_nil, or_false] at hfield
  rcases hfield with rfl | rfl | rfl | rfl | rfl <;> simp [Plain, IsPlain]

theorem holds_fields (c : Settings) : c.Holds c.fields := by
  refine ⟨by simp [fields], fun field hfield => .inl ?_⟩
  simp only [fields, List.mem_cons, List.not_mem_nil, or_false] at hfield
  rcases hfield with rfl | rfl | rfl | rfl | rfl <;> simp [fields, List.lookup_cons]

/-! ### A codec that is standard -/

theorem word32?_toNat (n : UInt32) : word32? (valueScalar (some n.toNat)) = some n := by
  have hlt : n.toNat < 1 <<< 32 := n.toNat_lt
  rw [valueScalar, word32?, naturalBelow, if_pos hlt, Option.map_some, UInt32.ofNat_toNat]

theorem word64?_toNat (n : UInt64) : word64? (valueScalar (some n.toNat)) = some n := by
  have hlt : n.toNat < 1 <<< 64 := n.toNat_lt
  rw [valueScalar, word64?, naturalBelow, if_pos hlt, Option.map_some, UInt64.ofNat_toNat]

theorem optionalWord64?_toNat (limit : Option UInt64) :
    optionalWord64? (valueScalar (limit.map UInt64.toNat)) = some limit := by
  cases limit with
  | none => rfl
  | some n =>
    show (word64? (valueScalar (some n.toNat))).map some = some (some n)
    rw [word64?_toNat]
    rfl

theorem filter_name_of_lookup {members : List (String × Value)}
    (honce : (members.map (·.1)).Nodup) (name : String) :
    (members.map memberScalar).filter (·.1 == name) =
      ((members.lookup name).map fun value => (name, valueScalar value)).toList := by
  induction members with
  | nil => rfl
  | cons m rest ih =>
    obtain ⟨hnew, hrest⟩ := List.nodup_cons.mp honce
    rw [List.map_cons, List.filter_cons, ih hrest, List.lookup_cons]
    by_cases hname : name = m.1
    · subst hname
      -- The name does not come again.
      have hnone : rest.lookup m.1 = none := by
        rw [List.lookup_eq_none_iff]
        intro m' hm'
        rw [bne_iff_ne]
        rintro heq
        exact hnew (List.mem_map.mpr ⟨m', hm', heq.symm⟩)
      simp [memberScalar, hnone]
    · have hname' : (m.1 == name) = false := by simpa using Ne.symm hname
      have hname'' : (name == m.1) = false := by simpa using hname
      simp [memberScalar, hname', hname'']

theorem field?_of_once {members : List (String × Value)}
    (honce : (members.map (·.1)).Nodup) (position : Nat) (name : String) :
    (Document.object (members.map memberScalar)).field? position name =
      some ((members.lookup name).map valueScalar) := by
  simp only [Document.field?, filter_name_of_lookup honce]
  cases members.lookup name <;> rfl

/-- A setting is what its member says, or its default. -/
theorem Holds.setting? {c : Settings} {members : List (String × Value)} (h : c.Holds members)
    {α : Type} {read : Scalar → Option α} {toValue : α → Value}
    (hread : ∀ a, read (valueScalar (toValue a)) = some a) (position : Nat) {name : String}
    {setting fallback : α} (hfield : (name, toValue setting) ∈ c.fields)
    (hdefault : (name, toValue setting) ∈ default.fields → toValue setting = toValue fallback) :
    setting? (.object (members.map memberScalar)) position name read fallback = some setting := by
  unfold Settings.setting?
  rw [field?_of_once h.once]
  rcases h.value _ hfield with hsome | ⟨hnone, hmem⟩
  · rw [hsome]
    exact hread setting
  · rw [hnone]
    exact (hread fallback).symm.trans (hdefault hmem ▸ hread setting)

/-- Members that are settings are read as these settings. -/
theorem ofDocument?_of_holds {c : Settings} {members : List (String × Value)}
    (h : c.Holds members) : ofDocument? (.object (members.map memberScalar)) = some c := by
  -- Names tell the settings apart, so where a default is used it is that of the same setting.
  have hrowBits : Settings.setting? (.object (members.map memberScalar)) 0 "chunk_bit"
      word32? default.rowBits = some c.rowBits :=
    h.setting? word32?_toNat _ (by simp [fields]) (by simp [fields])
  have hmaxChunks : Settings.setting? (.object (members.map memberScalar)) 1 "max_chunks"
      optionalWord64? default.maxChunks = some c.maxChunks :=
    h.setting? optionalWord64?_toNat _ (by simp [fields]) (by simp [fields])
  have hindexBits : Settings.setting? (.object (members.map memberScalar)) 2 "class_index_bit"
      word32? default.indexBits = some c.indexBits :=
    h.setting? word32?_toNat _ (by simp [fields]) (by simp [fields])
  have hmaxIndexBits : Settings.setting? (.object (members.map memberScalar)) 3
      "class_index_max_bit" word32? default.maxIndexBits = some c.maxIndexBits :=
    h.setting? word32?_toNat _ (by simp [fields]) (by simp [fields])
  have htimeoutMs : Settings.setting? (.object (members.map memberScalar)) 4 "system_timeout_ms"
      word64? default.timeoutMs = some c.timeoutMs :=
    h.setting? word64?_toNat _ (by simp [fields]) (by simp [fields])
  have hfits : fits (.object (members.map memberScalar)) = true := rfl
  rw [ofDocument?, if_pos hfits, hrowBits, hmaxChunks, hindexBits, hmaxIndexBits, htimeoutMs]
  rfl

/-- The codec that is used is standard. -/
theorem codec_standard : codec.Standard := by
  refine ⟨fun _ => rfl, fun c members text hspells hholds => ?_⟩
  show (Document.parse? text).bind ofDocument? = some c
  rw [Document.parse?_of_spells hspells, Option.bind_some, ofDocument?_of_holds hholds]

end Settings

/-! ### There and back -/

/-- Settings that were written are read back if they pass the check, and else its error is
answered. -/
theorem Codec.Standard.ofJson_toJson {codec : Codec} (h : codec.Standard) (c : Settings) :
    ∃ text, codec.toJson c = some text ∧ codec.ofJson text =
      match c.validate with
      | .ok () => .ok c
      | .error e => .error (.rejected e) := by
  have hread : codec.read (Json.pretty c.fields) = some c :=
    h.reads c c.fields _ c.spells_fields c.holds_fields
  refine ⟨_, h.pretty c, ?_⟩
  cases hvalid : c.validate with
  | ok _ => simp only [Codec.ofJson, hread, hvalid]
  | error e => simp only [Codec.ofJson, hread, hvalid]

/-- The greatest numbers come back, and so does the error for settings out of range. -/
theorem Codec.ofJson_toJson_greatest : Settings.codec.Standard ∧
    (∃ text, Settings.codec.toJson ⟨24, some 18446744073709551615, 1, 30, 18446744073709551615⟩ =
        some text ∧
      Settings.codec.ofJson text =
        .ok ⟨24, some 18446744073709551615, 1, 30, 18446744073709551615⟩) ∧
    ∃ text, Settings.codec.toJson ⟨4294967295, none, 0, 4294967295, 0⟩ = some text ∧
      Settings.codec.ofJson text =
        .error (.rejected (.invalidConfig "chunk_bit 4294967295 outside 2..=24")) := by
  exact ⟨Settings.codec_standard, Settings.codec_standard.ofJson_toJson _,
    Settings.codec_standard.ofJson_toJson _⟩

end ArchetypeStore
