import TieredMemory.Settings

/-!
# Settings that are accepted

A setting is its default or a value that was read for it, so it has every property that the default
and all readable values have (`take_holds`). The numbers of accepted settings are within the bounds
under which they are read.
-/

namespace TieredMemory.Settings

/-- What holds of the default and of everything that can be read holds of a setting. -/
theorem take_holds {α : Type} {P : α → Prop} {default : α} {read : Json.Value → Option α}
    (hd : P default) (hread : ∀ v a, read v = some a → P a) (values : Values) (name : String)
    (bad : List String) : P ((take values name default read).run bad).1 := by
  unfold take
  cases Json.lookup? name values with
  | none => exact hd
  | some v =>
    simp only
    cases h : read v with
    | none => exact hd
    | some a => exact hread v a h

theorem takeWhole_holds {least default : Int} (hd : least ≤ default) (values : Values)
    (name : String) (bad : List String) :
    least ≤ ((takeWhole values name least default).run bad).1 :=
  take_holds hd (fun _ _ h => by simpa using (Option.filter_eq_some_iff.1 h).2) values name bad

theorem takeNumber_holds {p : Float → Bool} {default : Float} (hd : p default = true)
    (values : Values) (name : String) (bad : List String) :
    p ((takeNumber values name p default).run bad).1 = true :=
  take_holds (P := (p · = true)) hd (fun _ _ h => (Option.filter_eq_some_iff.1 h).2) values name bad

/-- Accepted settings are those that are read. -/
theorem ofValues_eq_ok {v : Values} {s : Settings} (h : ofValues v = .ok s) :
    ∃ unknown, ((readAll v).run unknown).1 = s := by
  refine ⟨(v.map (·.1)).filter fun n => !names.contains n, ?_⟩
  unfold ofValues at h
  generalize (v.map (·.1)).filter (fun n => !names.contains n) = unknown at h ⊢
  obtain ⟨⟨settings, bad⟩, hrun⟩ : ∃ r, (readAll v).run unknown = r := ⟨_, rfl⟩
  simp only [hrun] at h ⊢
  split at h
  · exact Except.ok.inj h
  · cases h

/-- Each tier of accepted settings gives something of what it has. -/
theorem limits_of_ofValues {v : Values} {s : Settings} (h : ofValues v = .ok s) :
    1 ≤ s.hotCacheCapacity ∧ 1 ≤ s.factSearchLimit ∧ 1 ≤ s.archiveSearchLimit := by
  obtain ⟨unknown, rfl⟩ := ofValues_eq_ok h
  refine ⟨?_, ?_, ?_⟩
  · exact takeWhole_holds (by decide) v _ _
  · exact takeWhole_holds (by decide) v _ _
  · exact takeWhole_holds (by decide) v _ _

end TieredMemory.Settings
