import ArchetypeStore.Settings.Json
import ArchetypeStore.Ledger
import ArchetypeStore.World.Universe
import ArchetypeStore.Text.Record
import ArchetypeStore.Proofs.RowStore.Conservation
import ArchetypeStore.Proofs.World.Custody
import ArchetypeStore.Proofs.World.Query
import ArchetypeStore.Proofs.World.Placement
import ArchetypeStore.Proofs.World.Atomic
import ArchetypeStore.Proofs.RowStore.Isolation
import ArchetypeStore.Proofs.RowStore.Reuse
import ArchetypeStore.Proofs.RowStore.Frame
import ArchetypeStore.Proofs.TypeRegistry.Stability
import ArchetypeStore.Proofs.RowStore.Capacity
import ArchetypeStore.Proofs.RowStore.Registration
import ArchetypeStore.Proofs.World.Retry
import ArchetypeStore.Proofs.World.Several
import ArchetypeStore.Proofs.World.Foreign
import ArchetypeStore.Proofs.Catalog.Evolved
import ArchetypeStore.Proofs.TypeRegistry.Width
import ArchetypeStore.Proofs.Catalog.Canonical
import ArchetypeStore.Proofs.SetHash.Digits
import ArchetypeStore.Proofs.SetHash.Search
import ArchetypeStore.Proofs.Catalog.Apart
import ArchetypeStore.Proofs.TypeRegistry.Hashing
import ArchetypeStore.Proofs.RowStore.Regular
import ArchetypeStore.Proofs.World.Shared
import ArchetypeStore.Proofs.RowStore.Scan
import ArchetypeStore.Proofs.World.Walks
import ArchetypeStore.Proofs.RowStore.Named
import ArchetypeStore.Proofs.RowStore.Bounds
import ArchetypeStore.Proofs.World.Bounds
import ArchetypeStore.Proofs.World.Exhaustion
import ArchetypeStore.Proofs.DenseSet.Refinement
import ArchetypeStore.Proofs.CountingSort.Exact
import ArchetypeStore.Proofs.DenseMap.Refinement
import ArchetypeStore.Proofs.Settings
import ArchetypeStore.Proofs.SlotId.Packing
import ArchetypeStore.Proofs.RowStore.FreeStack
import ArchetypeStore.Proofs.World.SlotTables
import ArchetypeStore.Proofs.Settings.Json
import ArchetypeStore.Proofs.BoundedStack.Refinement
