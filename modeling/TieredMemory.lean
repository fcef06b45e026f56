import TieredMemory.Main
import TieredMemory.Proofs.HotCache.Eviction
import TieredMemory.Proofs.HotCache.Sweep
import TieredMemory.Proofs.Memory.Deletion
import TieredMemory.Proofs.Memory.Forgetting
import TieredMemory.Proofs.Memory.Reading
import TieredMemory.Proofs.Pattern.Conservation
import TieredMemory.Proofs.Pattern.Threshold
import TieredMemory.Scheduler.Scripted
import TieredMemory.Proofs.Memory.Record
import TieredMemory.Proofs.FactStore.Merging
import TieredMemory.Proofs.Extraction
import TieredMemory.Proofs.Memory.Learning
import TieredMemory.Proofs.Isolation.Facts
import TieredMemory.Proofs.Isolation.Archive
import TieredMemory.Proofs.Isolation.Guards
import TieredMemory.Proofs.Isolation.Patterns
import TieredMemory.Proofs.Isolation.Run
import TieredMemory.Proofs.Archive.Agreement
import TieredMemory.Proofs.Archive.Interruption
import TieredMemory.Proofs.Memory.Refusal
import TieredMemory.Proofs.Memory.ReadEffect
import TieredMemory.Proofs.FactStore.Gathering
import TieredMemory.Proofs.FactStore.Pruning
import TieredMemory.Proofs.Scheduler.Spacing
import TieredMemory.Proofs.Scheduler.Interleaving
import TieredMemory.Proofs.Confidence
import TieredMemory.Proofs.Archive.Shelves
import TieredMemory.Proofs.Pattern.Matching
import TieredMemory.Proofs.FactStore.Search
import TieredMemory.Proofs.Pattern.Capacity
import TieredMemory.Proofs.Pattern.Absorption
import TieredMemory.Proofs.Pattern.NameTest
import TieredMemory.Proofs.Text.EditScript
import TieredMemory.Proofs.Pattern.Reliability
import TieredMemory.Proofs.Pattern.Learning
import TieredMemory.Proofs.Fence
import TieredMemory.Proofs.Substance
import TieredMemory.Proofs.Archive.Search
import TieredMemory.Proofs.Latest
import TieredMemory.Proofs.Archive.Chronology
import TieredMemory.Proofs.FullText.Expression
import TieredMemory.Proofs.Importance
import TieredMemory.Proofs.Keywords.Rescan
import TieredMemory.Proofs.Novelty
import TieredMemory.Proofs.Rating
import TieredMemory.Proofs.FactStore.Filing
