import PackedStore.Arithmetic.PowerOfTwo
import PackedStore.Bytes.Basic
import PackedStore.Bytes.Codec
import PackedStore.Decimal.FloatText
import PackedStore.Decimal.Shortest
import PackedStore.Edit
import PackedStore.Element.Basic
import PackedStore.Element.DataType
import PackedStore.Failure
import PackedStore.Hash.WordHash
import PackedStore.Host.BlockBuffer
import PackedStore.Host.Event
import PackedStore.Host.Store
import PackedStore.IndexedMap.Basic
import PackedStore.IndexedMap.Image
import PackedStore.IndexedMap.Layout
import PackedStore.IndexedMap.Query
import PackedStore.Layout.Placement
import PackedStore.Proofs.Arithmetic.Rounding
import PackedStore.Proofs.Blocks
import PackedStore.Proofs.Blueprints
import PackedStore.Proofs.Bytes.Records
import PackedStore.Proofs.Concerts
import PackedStore.Proofs.Containers
import PackedStore.Proofs.Creations
import PackedStore.Proofs.Element.Types
import PackedStore.Proofs.Failures
import PackedStore.Proofs.Footprints
import PackedStore.Proofs.Host.Accesses
import PackedStore.Proofs.Host.Blames
import PackedStore.Proofs.Host.BlockBuffer
import PackedStore.Proofs.Host.Concurrence
import PackedStore.Proofs.Host.Limits
import PackedStore.Proofs.Host.Outcomes
import PackedStore.Proofs.Host.Relocation
import PackedStore.Proofs.Host.Requests
import PackedStore.Proofs.Host.Runs
import PackedStore.Proofs.Host.Scripts
import PackedStore.Proofs.Host.Stores
import PackedStore.Proofs.IndexedMap.Atomicity
import PackedStore.Proofs.IndexedMap.Contents
import PackedStore.Proofs.IndexedMap.Flattening
import PackedStore.Proofs.IndexedMap.Growing
import PackedStore.Proofs.IndexedMap.Images
import PackedStore.Proofs.IndexedMap.Independence
import PackedStore.Proofs.IndexedMap.Layouts
import PackedStore.Proofs.IndexedMap.Operations
import PackedStore.Proofs.IndexedMap.OrderedTables
import PackedStore.Proofs.IndexedMap.Projections
import PackedStore.Proofs.IndexedMap.Queries
import PackedStore.Proofs.IndexedMap.RangeRemoval
import PackedStore.Proofs.IndexedMap.Reachable
import PackedStore.Proofs.IndexedMap.Reading
import PackedStore.Proofs.IndexedMap.Replies
import PackedStore.Proofs.IndexedMap.Representation
import PackedStore.Proofs.IndexedMap.Resemblance
import PackedStore.Proofs.IndexedMap.Reserves
import PackedStore.Proofs.IndexedMap.Resizing
import PackedStore.Proofs.IndexedMap.RowChanges
import PackedStore.Proofs.IndexedMap.Safety
import PackedStore.Proofs.IndexedMap.Simulation
import PackedStore.Proofs.IndexedMap.SlotTables
import PackedStore.Proofs.IndexedMap.Tracking
import PackedStore.Proofs.IndexedMap.TwinOperations
import PackedStore.Proofs.IndexedMap.Twins
import PackedStore.Proofs.IndexedMap.WholeChanges
import PackedStore.Proofs.Layout.Carving
import PackedStore.Proofs.Layout.ClosedForms
import PackedStore.Proofs.Layout.Exactness
import PackedStore.Proofs.Layout.Growth
import PackedStore.Proofs.Layout.Headers
import PackedStore.Proofs.Layout.Peaks
import PackedStore.Proofs.Layout.Refusals
import PackedStore.Proofs.Layout.Segments
import PackedStore.Proofs.Layout.Shrinking
import PackedStore.Proofs.Misuses
import PackedStore.Proofs.Overflows
import PackedStore.Proofs.Renewals
import PackedStore.Proofs.Replies
import PackedStore.Proofs.Reserves
import PackedStore.Proofs.Sessions
import PackedStore.Proofs.Slots.Allocations
import PackedStore.Proofs.Slots.Chain
import PackedStore.Proofs.Slots.FreeSlots
import PackedStore.Proofs.Slots.HashChains
import PackedStore.Proofs.Slots.Histories
import PackedStore.Proofs.Slots.KeyTables
import PackedStore.Proofs.Slots.Linking
import PackedStore.Proofs.Slots.Rebuilding
import PackedStore.Proofs.Slots.Rehashing
import PackedStore.Proofs.Slots.Resemblance
import PackedStore.Proofs.Slots.ValueCells
import PackedStore.Proofs.Slots.ValueTables
import PackedStore.Proofs.Sparing
import PackedStore.Proofs.UntypedMap.Arena
import PackedStore.Proofs.UntypedMap.ArenaAccounts
import PackedStore.Proofs.UntypedMap.ArenaGrades
import PackedStore.Proofs.UntypedMap.ArenaLeaks
import PackedStore.Proofs.UntypedMap.ArenaReserves
import PackedStore.Proofs.UntypedMap.Contents
import PackedStore.Proofs.UntypedMap.Copying
import PackedStore.Proofs.UntypedMap.EntryLists
import PackedStore.Proofs.UntypedMap.Failing
import PackedStore.Proofs.UntypedMap.ForeignHandles
import PackedStore.Proofs.UntypedMap.Images
import PackedStore.Proofs.UntypedMap.Layouts
import PackedStore.Proofs.UntypedMap.LedgerGrowth
import PackedStore.Proofs.UntypedMap.LedgerOperations
import PackedStore.Proofs.UntypedMap.LedgerReplacing
import PackedStore.Proofs.UntypedMap.LedgerReplies
import PackedStore.Proofs.UntypedMap.LedgerStoring
import PackedStore.Proofs.UntypedMap.LedgerUsage
import PackedStore.Proofs.UntypedMap.Ledgers
import PackedStore.Proofs.UntypedMap.Operations
import PackedStore.Proofs.UntypedMap.Outcomes
import PackedStore.Proofs.UntypedMap.Overflows
import PackedStore.Proofs.UntypedMap.Reachable
import PackedStore.Proofs.UntypedMap.Representation
import PackedStore.Proofs.UntypedMap.Reserves
import PackedStore.Proofs.UntypedMap.Resizing
import PackedStore.Proofs.UntypedMap.Safety
import PackedStore.Proofs.UntypedMap.Simulation
import PackedStore.Proofs.UntypedMap.Storing
import PackedStore.Proofs.UntypedMap.WholeChanges
import PackedStore.Proofs.UntypedSequence.Contents
import PackedStore.Proofs.UntypedSequence.ElementLists
import PackedStore.Proofs.UntypedSequence.Failing
import PackedStore.Proofs.UntypedSequence.Images
import PackedStore.Proofs.UntypedSequence.Layouts
import PackedStore.Proofs.UntypedSequence.LedgerOperations
import PackedStore.Proofs.UntypedSequence.LedgerReplies
import PackedStore.Proofs.UntypedSequence.LedgerUsage
import PackedStore.Proofs.UntypedSequence.Ledgers
import PackedStore.Proofs.UntypedSequence.Operations
import PackedStore.Proofs.UntypedSequence.Overflows
import PackedStore.Proofs.UntypedSequence.Packing
import PackedStore.Proofs.UntypedSequence.Reachable
import PackedStore.Proofs.UntypedSequence.Removal
import PackedStore.Proofs.UntypedSequence.Representation
import PackedStore.Proofs.UntypedSequence.Reserves
import PackedStore.Proofs.UntypedSequence.Resizing
import PackedStore.Proofs.UntypedSequence.Safety
import PackedStore.Proofs.UntypedSequence.Simulation
import PackedStore.Sizing
import PackedStore.Slots.FreeSlots
import PackedStore.Slots.HashChains
import PackedStore.Slots.ValueCells
import PackedStore.UntypedMap.Basic
import PackedStore.UntypedMap.Image
import PackedStore.UntypedMap.Layout
import PackedStore.UntypedSequence.Basic
import PackedStore.UntypedSequence.Image
import PackedStore.UntypedSequence.Layout
