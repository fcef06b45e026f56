import TieredMemory.Proofs.FactStore.Merging
import TieredMemory.Proofs.Memory.Reading
import TieredMemory.Proofs.Pattern.Addresses

/-!
# One thing at an address

A fact and a pattern have an address each, made of the user and the identifier. No step puts a
second one at an address: what comes in takes the place of what was there, and everything else keeps
its address or goes (`Step.addressed`). So in every reachable memory an address tells which fact or
which pattern is meant (`Reachable.addressed`).
-/

namespace TieredMemory

namespace FactStore

variable {s : FactStore} {user : String}

theorem map_address_recordUses (now : Time) (user : String) (ids : List String) (s : FactStore) :
    (s.recordUses now user ids).facts.map address = s.facts.map address := by
  unfold recordUses
  rw [List.map_map]
  refine List.map_congr_left fun f _ => ?_
  simp only [Function.comp]
  split <;> rfl

theorem nodup_insert (h : (s.facts.map address).Nodup) (f : Fact) :
    ((s.insert user f).2.facts.map address).Nodup := by
  unfold insert
  split
  · exact (map_address_raise _ _).symm ▸ h
  · exact Keyed.nodup_put address h _

theorem nodup_insertAll (h : (s.facts.map address).Nodup) (fs : List Fact) :
    ((s.insertAll user fs).2.facts.map address).Nodup := by
  induction fs generalizing s with
  | nil => exact h
  | cons f fs ih => exact ih (nodup_insert h f)

end FactStore

namespace Memory

variable {L : Licence} {m m' : Memory}

/-- No two facts and no two patterns are at one address. -/
structure Addressed (m : Memory) : Prop where
  facts : (m.facts.facts.map FactStore.address).Nodup
  patterns : (m.patterns.patterns.map PatternStore.address).Nodup

theorem Step.addressed (hs : Step L m m') (h : m.Addressed) : m'.Addressed := by
  cases hs with
  | prune now user => exact ⟨h.facts.sublist (List.filter_sublist.map _), h.patterns⟩
  | findFacts now user query embedding n =>
    refine ⟨?_, h.patterns⟩
    exact (FactStore.map_address_recordUses now user _ m.facts).symm ▸ h.facts
  | consolidate user =>
    exact ⟨h.facts, h.patterns.sublist (PatternStore.map_address_consolidate user m.patterns)⟩
  | applyPattern now user query embedding =>
    refine ⟨h.facts, ?_⟩
    exact (PatternStore.map_address_apply now user query embedding m.patterns).symm ▸ h.patterns
  | remove p id isCached =>
    obtain ⟨archive, -, hm'⟩ := removeTurn_inv p id isCached m
    rw [hm']
    exact ⟨h.facts, h.patterns⟩
  | erase user =>
    obtain ⟨archive, -, hm'⟩ := deleteFromTiers_inv user m
    rw [hm']
    exact ⟨h.facts.sublist (List.filter_sublist.map _),
      h.patterns.sublist (List.filter_sublist.map _)⟩
  | place p t =>
    obtain ⟨embedding, archive, world, -, hm'⟩ := place_inv p t m
    rw [hm']
    exact ⟨h.facts, h.patterns⟩
  | storeFacts user fs => exact ⟨FactStore.nodup_insertAll h.facts fs, h.patterns⟩
  | storePattern mergeAlike p =>
    exact ⟨h.facts, PatternStore.nodup_insert h.patterns mergeAlike p⟩
  | _ => exact ⟨h.facts, h.patterns⟩

theorem Reach.addressed (hr : Reach L m m') (h : m.Addressed) : m'.Addressed :=
  hr.induction (fun _ _ => Step.addressed) h

theorem Reachable.addressed (h : m.Reachable) : m.Addressed := by
  obtain ⟨m₀, hnew, hr⟩ := h
  refine hr.addressed ⟨?_, ?_⟩
  · simp [hnew.facts]
  · simp [hnew.patterns]

end Memory

end TieredMemory
