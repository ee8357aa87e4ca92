import ArchetypeStore.World.Access

/-! # Making and destroying entities

  A bundle makes an entity in the archetype of the component set that its type states. If
  that is refused, or the components are not of that set, the bundle drops its values and
  there is no entity. Destroying an entity drops its values
  and sets the detached flag for good.
-/

namespace ArchetypeStore.World

variable {T V : Type}

/-- A new entity whose home is the given archetype. -/
def newEntity (w : World T V) (home : UInt64) : Entity × World T V :=
  let (item, store) := w.store.newItem
  (⟨w.number, item⟩, { w.withStore store with homes := w.homes.push home })

/-- Take back the entity that was made last. -/
def dropLastEntity (w : World T V) : World T V :=
  { w.withStore w.store.dropLastItem with homes := w.homes.pop }

variable [DecidableEq T] [ComponentType T]

/-- Move components into a new row of an archetype that becomes the home of the item. -/
def moveIn (w : World T V) (a : Archetype T) (item : Nat) (components : Bundle T V) :
    Except StoreError SlotId × World T V :=
  match a.reorder w.registry components with
  | (.error e, _) => (.error e, w)
  | (.ok (), ordered) =>
    match w.store.insert a.partition item (Bundle.values ordered) with
    | (answer, store) => (answer, (w.setHome item a.key).withStore store)

/-- Make an entity in an archetype. -/
def spawnIn (w : World T V) (a : Archetype T) (bundle : Bundle T V) :
    Except StoreError Entity × World T V :=
  let (e, made) := w.newEntity a.key
  let (answer, moved) := made.moveIn a e.item bundle
  match bundle.offer fun _ => answer with
  | (.ok _, dropped) => (.ok e, moved.drop dropped)
  | (.error error, dropped) => (.error error, moved.dropLastEntity.drop dropped)

/-- The archetype of a bundle type. Its key is remembered, so that the component set is
looked up once. -/
def archetypeOfBundle (w : World T V) (types : List T) :
    Except StoreError (Archetype T) × World T V :=
  match (w.bundles.lookup types).bind w.catalog.archetype? with
  | some a => (.ok a, w)
  | none =>
    match w.catalog.ensure types with
    | (.error e, catalog) => (.error e, { w with catalog })
    | (.ok a, catalog) => (.ok a, { w with catalog, bundles := (types, a.key) :: w.bundles })

/-- Make an entity with the components of a bundle, whose type states the component set. -/
def spawnStated (w : World T V) (stated : List T) (bundle : Bundle T V) :
    Except StoreError Entity × World T V :=
  match w.archetypeOfBundle stated with
  | (.error e, w) => (.error e, w.drop bundle.values)
  | (.ok a, w) => w.spawnIn a bundle

/-- Make an entity with the components of a bundle that states just their types. -/
def spawn (w : World T V) (bundle : Bundle T V) : Except StoreError Entity × World T V :=
  w.spawnStated bundle.types bundle

/-- Make an entity in the archetype of the listed types, which the bundle has to fit. -/
def spawnAs (w : World T V) (types : List T) (bundle : Bundle T V) :
    Except StoreError Entity × World T V :=
  match w.catalog.ensure types with
  | (.error e, catalog) => (.error e, { w with catalog }.drop bundle.values)
  | (.ok a, catalog) => { w with catalog }.spawnIn a bundle

omit [DecidableEq T] [ComponentType T] in
/-- May the flags of an entity be set now? Its id word has to be the plain id of the row. -/
def isAtRest (w : World T V) (e : Entity) (v : RowView V) : Bool :=
  v.id.isPlain && w.idOf e == v.id

omit [DecidableEq T] [ComponentType T] in
/-- Destroy an entity. The answer is false if it is destroyed already or of another
world. -/
def destroy (w : World T V) (e : Entity) : Bool × World T V :=
  match w.access e fun w a id =>
    match w.store.evict a.partition id fun v =>
      if holds e v && w.isAtRest e v then .ok () else .error .entityNotFound with
    | (.error error, store) => (.error error, w.withStore store)
    | (.ok evicted, store) =>
      (.ok (), ((w.withStore store).flag e SlotId.detach).drop evicted.values) with
  | (.ok (), w) => (true, w)
  | (.error _, w) => (false, w)

end ArchetypeStore.World
