import ArchetypeStore.Proofs.World.Operations

/-! # Making entities

  A bundle makes the next entity, or it drops its values and the world has the entities it
  had. Whichever way the archetype was found, by the types of the bundle, by a remembered
  key or by types listed apart, the making ends in one of these two ways.
-/

namespace ArchetypeStore

variable {T V : Type}

namespace World

variable [ComponentType T] {w w' : World T V} [DecidableEq T]

/-! ### Ways to end -/

/-- What the making of an entity does: the next item is made, and has the components of the
bundle. -/
structure Made (w w' : World T V) (bundle : Bundle T V) : Prop where
  sound : w'.Sound
  keeps : w.Keeps w' [w.store.ids.size]
  items : w'.store.ids.size = w.store.ids.size + 1
  number : w'.number = w.number
  dropped : w'.dropped = w.dropped
  has : ∃ a values, w'.Has w.store.ids.size a values ∧ (a.types.zip values).Perm bundle

/-- How the making of an entity may end: it is made, or the bundle drops its values for one
of the reasons given. -/
inductive Spawned (w : World T V) (bundle : Bundle T V) (why : StoreError → Prop) :
    Except StoreError Entity → World T V → Prop where
  | made {w' : World T V} (made : w.Made w' bundle) :
      Spawned w bundle why (.ok ⟨w.number, w.store.ids.size⟩) w'
  | refused {error : StoreError} {w' : World T V} (effect : w.Effect w' [] [] bundle.values)
      (because : why error) : Spawned w bundle why (.error error) w'

section ends

omit [DecidableEq T]

/-- What was made after a move that touches nothing. -/
theorem Made.after {w₁ : World T V} {bundle : Bundle T V} (h : w₁.Made w' bundle)
    (heffect : w.Effect w₁ [] [] []) : w.Made w' bundle := by
  obtain ⟨hsound, hkeeps, hitems, hnumber, hdropped, hhas⟩ := h
  rw [heffect.items] at hkeeps hitems hhas
  exact ⟨hsound, (heffect.keeps.mono (List.nil_subset _)).trans hkeeps, hitems,
    hnumber.trans heffect.number, hdropped.trans heffect.dropped, hhas⟩

variable {bundle : Bundle T V} {why why' : StoreError → Prop}
  {answer : Except StoreError Entity}

theorem Spawned.sound (h : w.Spawned bundle why answer w') : w'.Sound := by
  cases h with
  | made made => exact made.sound
  | refused effect _ => exact effect.sound

/-- The archetype was made ready first. -/
theorem Spawned.after {w₁ : World T V} (h : w₁.Spawned bundle why answer w')
    (heffect : w.Effect w₁ [] [] []) (hwhy : ∀ error, why error → why' error) :
    w.Spawned bundle why' answer w' := by
  cases h with
  | made made =>
    rw [heffect.number, heffect.items]
    exact .made (made.after heffect)
  | refused effect because =>
    have hall := heffect.trans effect
    rw [List.append_nil] at hall
    exact .refused hall (hwhy _ because)

end ends

/-! ### Making in an archetype -/

omit [DecidableEq T] in
/-- A new entity takes no room. -/
theorem noRoom_newEntity {home : UInt64} {a : Archetype T} {error : StoreError} :
    (w.newEntity home).2.NoRoom a error ↔ w.NoRoom a error :=
  Eq.congr_left (RowStore.issue_withIds w.store _ a.partition)

theorem Declines.of_newEntity {home : UInt64} {a : Archetype T} {bundle : Bundle T V}
    {error : StoreError} (h : (w.newEntity home).2.Declines a bundle error) :
    w.Declines a bundle error := by
  cases h with
  | unfit refused => exact .unfit refused
  | full fits full => exact .full fits (noRoom_newEntity.mp full)

/-- A bundle that fits the archetype is made an entity, unless the archetype declines it. -/
theorem spawnIn_spawned (h : w.Sound) {a : Archetype T}
    (ha : w.catalog.archetype? a.key = some a) (bundle : Bundle T V) :
    ∃ answer w', w.spawnIn a bundle = (answer, w') ∧
      w.Spawned bundle (w.Declines a bundle) answer w' ∧
        (answer.isOk = true → bundle.types.Perm a.types) := by
  obtain ⟨hnew, hkeeps⟩ := newEntity_effect h a.key
  have hsize : (w.newEntity a.key).2.store.ids.size = w.store.ids.size + 1 := Array.size_push ..
  have hfirst : (w.newEntity a.key).1 = ⟨w.number, w.store.ids.size⟩ := rfl
  unfold spawnIn
  simp only [hfirst]
  cases hmove : (w.newEntity a.key).2.moveIn a w.store.ids.size bundle with
  | mk answer moved =>
    cases answer with
    | ok id =>
      obtain ⟨heffect, values, hhas, hperm⟩ :=
        moveIn_ok hnew (by rw [hsize]; exact Nat.lt_succ_self _) ha hmove
      have hfits := Bundle.types_perm hperm
      rw [Bundle.types_zip (heffect.sound.archetype_of_has hhas).2.2.2.2] at hfits
      refine ⟨_, moved.drop [], rfl,
        .made ⟨heffect.sound.drop [], ?_, ?_, ?_, ?_, a, values, ?_, hperm⟩,
        fun _ => hfits.symm⟩
      · exact (hkeeps.trans heffect.keeps).trans (keeps_drop moved [] _)
      · exact heffect.items.trans hsize
      · exact heffect.number
      · exact heffect.dropped
      · exact ((heffect.sound.drop_effect []).has hhas)
    | error error =>
      obtain ⟨heffect, hdeclines, -⟩ := moveIn_error hnew ha hmove
      -- The item that was made for the bundle is taken back.
      obtain ⟨hsound, hback⟩ := dropLastEntity_effect heffect.sound (heffect.items.trans hsize)
      have hitems : moved.dropLastEntity.store.ids.size = w.store.ids.size := by
        have hpop : moved.dropLastEntity.store.ids.size = moved.store.ids.size - 1 :=
          Array.size_pop ..
        rw [hpop, heffect.items, hsize, Nat.add_sub_cancel]
      -- The item that was taken back is none of the old ones.
      have hold : w.Keeps moved.dropLastEntity [] :=
        .of_absent h hsound (fun hlives => Nat.lt_irrefl _ hlives.1)
          (fun hlives => Nat.lt_irrefl _ (hitems ▸ hlives.1))
          ((hkeeps.trans heffect.keeps).trans hback)
      refine ⟨_, moved.dropLastEntity.drop bundle.values, rfl, .refused
        ⟨hsound.drop _, hold.trans (keeps_drop _ _ _), ?_, hitems, heffect.number, ?_⟩
        hdeclines.of_newEntity, fun hok => absurd hok Bool.false_ne_true⟩
      · exact fun key a' ha' => heffect.archetypes key a' ha'
      · exact congrArg (bundle.values ++ ·) heffect.dropped

/-! ### Finding the archetype -/

omit [DecidableEq T] in
/-- Remembering the key of an archetype touches nothing. -/
theorem remember_effect (h : w.Sound) {ts : List T} {a : Archetype T}
    (ha : w.catalog.archetype? a.key = some a) (hperm : a.types.Perm ts) :
    w.Effect { w with bundles := (ts, a.key) :: w.bundles } [] [] [] := by
  have hsound : Sound { w with bundles := (ts, a.key) :: w.bundles } := by
    refine h.congr rfl rfl fun ts' key hmem => ?_
    rcases List.mem_cons.mp hmem with heq | hmem
    · cases heq
      exact ⟨a, ha, hperm⟩
    · exact h.bundles ts' key hmem
  have hcatalog : catalog { w with bundles := (ts, a.key) :: w.bundles } = w.catalog := rfl
  have hhomes : homes { w with bundles := (ts, a.key) :: w.bundles } = w.homes := rfl
  exact ⟨hsound, fun item _ a' values => has_congr hcatalog hhomes item a' values,
    fun _ _ ha' => ha', rfl, rfl, rfl⟩

/-- A key that is remembered leads to the archetype of the set. -/
theorem archetype_of_remembered (h : w.Sound) {ts : List T} {a : Archetype T}
    (hcached : (w.bundles.lookup ts).bind w.catalog.archetype? = some a) :
    w.catalog.archetype? a.key = some a ∧ a.types.Perm ts := by
  obtain ⟨key, hkey, ha⟩ := Option.bind_eq_some_iff.mp hcached
  obtain ⟨_, _, hsplit, -⟩ := List.lookup_eq_some_iff.mp hkey
  obtain ⟨a', ha', hperm⟩ := h.bundles ts key (by simp [hsplit])
  obtain ⟨-, rfl, -⟩ := h.catalog.archetype_wf ha
  rw [ha] at ha'
  cases ha'
  exact ⟨ha, hperm⟩

/-- The archetype of a bundle type is that of its set, or the set is refused. -/
theorem archetypeOfBundle_cases (h : w.Sound) (ts : List T) :
    (∃ a w', w.archetypeOfBundle ts = (.ok a, w') ∧ w.Effect w' [] [] [] ∧
        w'.catalog.archetype? a.key = some a ∧ a.types.Perm ts) ∨
      ∃ error w', w.archetypeOfBundle ts = (.error error, w') ∧ w.Effect w' [] [] [] ∧
        TypeRegistry.RefusesSet ts error := by
  unfold archetypeOfBundle
  cases hcached : (w.bundles.lookup ts).bind w.catalog.archetype? with
  | some a =>
    obtain ⟨ha, hperm⟩ := archetype_of_remembered h hcached
    exact .inl ⟨a, w, rfl, Effect.refl h, ha, hperm⟩
  | none =>
    simp only
    cases hensure : w.catalog.ensure ts with
    | mk answer catalog =>
      cases answer with
      | error error =>
        obtain ⟨hwf, hstore, hgrows, hwhy⟩ := Catalog.ensure_error h.catalog h.store hensure
        exact .inr ⟨error, _, rfl, h.grow hwf hstore hgrows, hwhy⟩
      | ok a =>
        obtain ⟨hwf, hstore, hgrows, ha, hperm⟩ := Catalog.ensure_ok h.catalog h.store hensure
        have hgrown := h.grow hwf hstore hgrows
        have hall := hgrown.trans (remember_effect hgrown.sound ha hperm)
        rw [List.append_nil] at hall
        exact .inl ⟨a, _, rfl, hall, ha, hperm⟩

/-! ### Making -/

/-- Why a bundle whose type states the component set is refused: the set has no archetype
and gets none, or its archetype declines the components. -/
inductive RefusesBundle (w : World T V) (stated : List T) (bundle : Bundle T V)
    (error : StoreError) : Prop where
  | unready {w₁ : World T V} (refused : w.archetypeOfBundle stated = (.error error, w₁))
  | declined {a : Archetype T} {w₁ : World T V}
      (found : w.archetypeOfBundle stated = (.ok a, w₁))
      (declines : w₁.Declines a bundle error)

/-- A bundle of the components it states is refused when a type is listed twice, or the store
cannot grow. -/
theorem RefusesBundle.refusesSet (h : w.Sound) {stated : List T} {bundle : Bundle T V}
    {error : StoreError} (hrefuses : w.RefusesBundle stated bundle error)
    (hfits : bundle.types.Perm stated) : TypeRegistry.RefusesSet stated error := by
  rcases archetypeOfBundle_cases h stated with
    ⟨a, w₁, hfound, heffect, ha, hperm⟩ | ⟨error', w₁, hfound, -, hwhy⟩
  · cases hrefuses with
    | unready refused =>
      rw [hfound] at refused
      cases refused
    | declined found declines =>
      rw [hfound] at found
      cases found
      have hfull := declines.noRoom heffect.sound ha (hfits.trans hperm.symm)
      exact .inr (hfull.cannotGrow heffect.sound ha).stopsGrowth
  · cases hrefuses with
    | unready refused =>
      rw [hfound] at refused
      cases refused
      exact hwhy
    | declined found _ =>
      rw [hfound] at found
      cases found

theorem spawnStated_spawned (h : w.Sound) (stated : List T) (bundle : Bundle T V) :
    ∃ answer w', w.spawnStated stated bundle = (answer, w') ∧
      w.Spawned bundle (w.RefusesBundle stated bundle) answer w' ∧
        (answer.isOk = true → bundle.types.Perm stated) := by
  unfold spawnStated
  rcases archetypeOfBundle_cases h stated with
    ⟨a, w₁, hfound, heffect, ha, hperm⟩ | ⟨error, w₁, hfound, heffect, -⟩
  · rw [hfound]
    obtain ⟨answer, w₂, hspawn, hspawned, hfits⟩ := spawnIn_spawned heffect.sound ha bundle
    exact ⟨answer, w₂, hspawn, hspawned.after heffect fun _ => .declined hfound,
      fun hok => (hfits hok).trans hperm⟩
  · rw [hfound]
    refine ⟨.error error, w₁.drop bundle.values, rfl, .refused ?_ (.unready hfound),
      fun hok => absurd hok Bool.false_ne_true⟩
    simpa only [List.append_nil] using heffect.trans (heffect.sound.drop_effect bundle.values)

theorem spawn_spawned (h : w.Sound) (bundle : Bundle T V) :
    ∃ answer w', w.spawn bundle = (answer, w') ∧
      w.Spawned bundle (w.RefusesBundle bundle.types bundle) answer w' := by
  obtain ⟨answer, w', hspawn, hspawned, -⟩ := spawnStated_spawned h bundle.types bundle
  exact ⟨answer, w', hspawn, hspawned⟩

/-- A bundle for an archetype that was asked for by its types. -/
theorem spawnAs_spawned (h : w.Sound) (ts : List T) (bundle : Bundle T V) :
    ∃ answer w', w.spawnAs ts bundle = (answer, w') ∧
      w.Spawned bundle (fun _ => True) answer w' := by
  unfold spawnAs
  cases hensure : w.catalog.ensure ts with
  | mk answer catalog =>
    cases answer with
    | error error =>
      obtain ⟨hwf, hstore, hgrows, -⟩ := Catalog.ensure_error h.catalog h.store hensure
      have hgrown := h.grow hwf hstore hgrows
      refine ⟨.error error, _, rfl, .refused ?_ trivial⟩
      simpa only [List.append_nil] using hgrown.trans (hgrown.sound.drop_effect bundle.values)
    | ok a =>
      obtain ⟨hwf, hstore, hgrows, ha, -⟩ := Catalog.ensure_ok h.catalog h.store hensure
      have hgrown := h.grow hwf hstore hgrows
      obtain ⟨answer, w₂, hspawn, hspawned, -⟩ := spawnIn_spawned hgrown.sound ha bundle
      exact ⟨answer, w₂, hspawn, hspawned.after hgrown fun _ _ => trivial⟩

end World

end ArchetypeStore
