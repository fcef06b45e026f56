import TieredMemory.Proofs.FactStore.Run

/-!
# What pruning takes away

The record of uses of a stored fact is the history of a run: its count is the count with which it was
offered and one for every search that found it and every use that was recorded, and it was last used
when the latest of these was. So pruning takes away the facts of a user that have been used too
rarely and for too long not at all, and a fact that has once been used often enough is never taken
away by it, whatever comes in between, as long as the user is not forgotten (`run_prunes`).
Nothing is assumed of the clock but that every request finds one.
-/

namespace TieredMemory

/-- The second fact is the first one with another importance. -/
def Fact.Raised (f g : Fact) : Prop := g = { f with importance := g.importance }

/-- The second fact is what the first one becomes when the facts with the identifiers are used. Its
importance may have been raised. -/
def Fact.Continued (now : Time) (used : List String) (f g : Fact) : Prop :=
  g = { f with
    importance := g.importance
    lastAccessed := if f.id ∈ used then now else f.lastAccessed
    accessCount := if f.id ∈ used then f.accessCount + 1 else f.accessCount }

namespace FactStore

variable {s : FactStore} {user : String} {f g h : Fact} {ids : List String} {e : Event}

theorem raised_trans (hfg : f.Raised g) (hgh : g.Raised h) : f.Raised h := by
  unfold Fact.Raised at *
  rw [hgh, hfg]

theorem raised_raisedAt (a : String × String) (x : Float) (f : Fact) : f.Raised (raisedAt a x f) := by
  unfold raisedAt
  split <;> rfl

theorem continued_nil {now : Time} : f.Continued now [] g ↔ f.Raised g := by
  simp [Fact.Continued, Fact.Raised]

theorem continued_of_used {now : Time} {used : List String} (f : Fact) :
    f.Continued now used (if f.id ∈ used then f.recordAccess now else f) := by
  unfold Fact.Continued
  split <;> rfl

/-! ### One request -/

/-- Storing a fact leaves those that are there, and brings in no other. -/
theorem insert_facts (user : String) (hnew : f.id ∉ s.facts.map Fact.id) :
    (∀ g ∈ s.facts, ∃ h ∈ (s.insert user f).2.facts, g.Raised h) ∧
      ∀ h ∈ (s.insert user f).2.facts,
        (∃ g ∈ s.facts, g.Raised h) ∨ Fact.Raised { f with user } h := by
  rcases insert_cases user hnew with ⟨g, -, -, hinsert⟩ | ⟨-, -, hfacts⟩
  · have hraise : (s.insert user f).2.facts = s.facts.map (raisedAt (address g) f.importance) := by
      rw [hinsert]
      rfl
    rw [hraise]
    refine ⟨fun g hg => ⟨_, List.mem_map_of_mem hg, raised_raisedAt _ _ g⟩, fun h hh => ?_⟩
    obtain ⟨g, hg, rfl⟩ := List.mem_map.1 hh
    exact .inl ⟨g, hg, raised_raisedAt _ _ g⟩
  · rw [hfacts]
    refine ⟨fun g hg => ⟨g, List.mem_append_left _ hg, rfl⟩, fun h hh => ?_⟩
    rcases List.mem_append.1 hh with hh | hh
    · exact .inl ⟨h, hh, rfl⟩
    · rw [List.mem_singleton.1 hh]
      exact .inr rfl

theorem insertAll_facts {fs : List Fact} (hknown : s.Known ids)
    (hids : (ids ++ fs.map Fact.id).Nodup) :
    (∀ g ∈ s.facts, ∃ h ∈ (s.insertAll user fs).2.facts, g.Raised h) ∧
      ∀ h ∈ (s.insertAll user fs).2.facts,
        (∃ g ∈ s.facts, g.Raised h) ∨ ∃ f ∈ fs, Fact.Raised { f with user } h := by
  induction fs generalizing s ids with
  | nil => exact ⟨fun g hg => ⟨g, hg, rfl⟩, fun h hh => .inl ⟨h, hh, rfl⟩⟩
  | cons f r ih =>
    rw [List.map_cons, List.append_cons] at hids
    have hnew := notMem_of_nodup_concat hids.of_append_left
    obtain ⟨hstay, hsource⟩ := insert_facts user fun hmem => hnew (hknown.subset hmem)
    obtain ⟨hstays, hsources⟩ := ih (hknown.insert hnew) hids
    constructor
    · intro g hg
      obtain ⟨g', hg', hraised⟩ := hstay g hg
      obtain ⟨h, hh, hraised'⟩ := hstays g' hg'
      exact ⟨h, hh, raised_trans hraised hraised'⟩
    · intro h hh
      rcases hsources h hh with ⟨g', hg', hraised'⟩ | ⟨f', hf', hraised'⟩
      · rcases hsource g' hg' with ⟨g, hg, hraised⟩ | hraised
        · exact .inl ⟨g, hg, raised_trans hraised hraised'⟩
        · exact .inr ⟨f, List.mem_cons_self, raised_trans hraised hraised'⟩
      · exact .inr ⟨f', List.mem_cons_of_mem f hf', hraised'⟩

theorem settings_insertAll (fs : List Fact) (s : FactStore) :
    (s.insertAll user fs).2.minAccessCount = s.minAccessCount ∧
      (s.insertAll user fs).2.ttl = s.ttl := by
  induction fs generalizing s with
  | nil => exact ⟨rfl, rfl⟩
  | cons f r ih =>
    have hinsert : (s.insert user f).2.minAccessCount = s.minAccessCount ∧
        (s.insert user f).2.ttl = s.ttl := by
      unfold insert
      split <;> exact ⟨rfl, rfl⟩
    exact ⟨(ih _).1.trans hinsert.1, (ih _).2.trans hinsert.2⟩

/-- No request changes what makes a fact stale. -/
theorem settings_after (hids : (s.facts.map Fact.id).Nodup) (e : Event) :
    (s.after e).minAccessCount = s.minAccessCount ∧ (s.after e).ttl = s.ttl := by
  unfold FactStore.after
  rcases respond_cases e.world e.request hids with
    ⟨fs, -, hrespond, -⟩ | ⟨-, -, hrespond, -⟩ | ⟨-, -, -, p, hrespond, -⟩
  · rw [hrespond]
    exact settings_insertAll fs s
  · rw [hrespond]
    exact ⟨rfl, rfl⟩
  · rw [hrespond]
    exact ⟨rfl, rfl⟩

/-- A fact after a request was there before, or it has been offered just now. -/
theorem mem_after (hknown : s.Known ids)
    (hids : (ids ++ e.request.offered.map Fact.id).Nodup) (hg : g ∈ (s.after e).facts) :
    (∃ f ∈ s.facts, f.Continued e.world.now (s.exchange e).uses g) ∨
      ∃ f ∈ e.request.offered, f.StoredAs e.request.user g ∧ g.accessCount = f.accessCount ∧
        g.lastAccessed = f.lastAccessed := by
  unfold FactStore.after at hg
  unfold Exchange.uses exchange
  rcases respond_cases e.world e.request hknown.nodup with
    ⟨fs, hfs, hrespond, -, huses⟩ | ⟨-, -, hrespond, -⟩ | ⟨-, -, huses, p, hrespond, -⟩
  · rw [hrespond] at hg
    rw [huses]
    rw [← map_id_of_embedded hfs] at hids
    rcases (insertAll_facts hknown hids).2 g hg with ⟨f, hf, hfg⟩ | ⟨f, hf, hfg⟩
    · exact .inl ⟨f, hf, continued_nil.2 hfg⟩
    · obtain ⟨f₀, hf₀, hembedded⟩ := exists_of_mem_embedded hfs hf
      have hstored := hembedded.storedAs e.request.user
      refine .inr ⟨f₀, hf₀, ⟨?_, ?_⟩, ?_, ?_⟩
      · rw [hfg, hstored.eq]
      · intro hsome
        rw [hfg]
        exact hstored.embedding hsome
      · rw [hfg, hembedded.eq]
      · rw [hfg, hembedded.eq]
  · rw [hrespond] at hg
    obtain ⟨f, hf, rfl⟩ := List.mem_map.1 hg
    exact .inl ⟨f, hf, continued_of_used f⟩
  · rw [hrespond] at hg
    rw [huses]
    exact .inl ⟨g, (List.mem_filter.1 hg).1, continued_nil.2 rfl⟩

/-- A fact that has been used often enough stays, unless its user is forgotten. -/
theorem exists_mem_after (hknown : s.Known ids)
    (hids : (ids ++ e.request.offered.map Fact.id).Nodup) (hf : f ∈ s.facts)
    (hcount : s.minAccessCount ≤ f.accessCount) (hkept : e.request ≠ .deleteUser f.user) :
    ∃ g ∈ (s.after e).facts, f.Continued e.world.now (s.exchange e).uses g := by
  unfold FactStore.after Exchange.uses exchange
  rcases respond_cases e.world e.request hknown.nodup with
    ⟨fs, hfs, hrespond, -, huses⟩ | ⟨-, -, hrespond, -⟩ | ⟨-, -, huses, p, hrespond, hp⟩
  · rw [hrespond, huses]
    rw [← map_id_of_embedded hfs] at hids
    obtain ⟨g, hg, hfg⟩ := (insertAll_facts hknown hids).1 f hf
    exact ⟨g, hg, continued_nil.2 hfg⟩
  · rw [hrespond]
    exact ⟨_, List.mem_map_of_mem hf, continued_of_used f⟩
  · rw [hrespond, huses]
    refine ⟨f, List.mem_filter.2 ⟨hf, ?_⟩, continued_nil.2 rfl⟩
    rcases hp with rfl | hdelete
    · have hoften : ¬ f.accessCount < s.minAccessCount := by omega
      simp [Fact.isStale, hoften]
    · have hne : f.user ≠ e.request.user := by
        rintro heq
        rw [← heq] at hdelete
        exact hkept hdelete
      simp [hne]

theorem uses_subset (hknown : s.Known ids) (e : Event) : (s.exchange e).uses ⊆ ids := by
  unfold Exchange.uses exchange
  rcases respond_cases e.world e.request hknown.nodup with
    ⟨-, -, -, -, huses⟩ | ⟨-, -, -, huses⟩ | ⟨-, -, huses, -⟩
  · rw [huses]
    exact List.nil_subset _
  · exact List.Subset.trans huses hknown.subset
  · rw [huses]
    exact List.nil_subset _

/-! ### The history of a fact -/

/-- When a fact was used in what can be seen of a run. -/
def usesOf (id : String) (xs : List Exchange) : List Time :=
  (xs.filter fun x => id ∈ x.uses).map Exchange.time

/-- The fact is an offered one, with its uses counted and the latest one noted. -/
def HasHistory (user : String) (offered : List Fact) (uses : List Time) (g : Fact) : Prop :=
  ∃ f ∈ offered, f.StoredAs user g ∧ g.accessCount = f.accessCount + uses.length ∧
    g.lastAccessed = uses.getLast?.getD f.lastAccessed

theorem usesOf_concat (id : String) (xs : List Exchange) (x : Exchange) :
    usesOf id (xs ++ [x]) = usesOf id xs ++ if id ∈ x.uses then [x.time] else [] := by
  unfold usesOf
  rw [List.filter_append, List.map_append]
  by_cases hid : id ∈ x.uses <;> simp [hid]

theorem HasHistory.mono {offered offered' : List Fact} {uses : List Time}
    (hg : HasHistory user offered uses g) (hsub : offered ⊆ offered') :
    HasHistory user offered' uses g := by
  obtain ⟨f, hf, hstored⟩ := hg
  exact ⟨f, hsub hf, hstored⟩

/-- One more use, or none, is one more time in the history. -/
theorem HasHistory.continued {offered : List Fact} {uses : List Time}
    (hf : HasHistory user offered uses f) {now : Time} {used : List String}
    (hfg : f.Continued now used g) :
    HasHistory user offered (uses ++ if f.id ∈ used then [now] else []) g := by
  obtain ⟨f₀, hf₀, hstored, hcount, hlast⟩ := hf
  refine ⟨f₀, hf₀, ⟨?_, ?_⟩, ?_, ?_⟩
  · rw [hfg, hstored.eq]
  · intro hsome
    rw [hfg]
    exact hstored.embedding hsome
  · rw [hfg]
    by_cases hused : f.id ∈ used
    · simp [hused, hcount, Int.add_assoc]
    · simp [hused, hcount]
  · rw [hfg]
    by_cases hused : f.id ∈ used
    · simp [hused]
    · simp [hused, hlast]

section

variable {es es' : List Event}

/-- Only what has been offered is used. -/
theorem usesOf_eq_nil (hnew : s.facts = []) (hids : ((offers es).map Fact.id).Nodup)
    {id : String} (hid : id ∉ (offers es).map Fact.id) : usesOf id (s.exchanges es) = [] := by
  induction es using List.reverseRecOn with
  | nil => rfl
  | append_singleton es e ih =>
    rw [offers_concat, List.map_append] at hids hid
    have hknown := Known.run hnew hids.of_append_left
    have hold : id ∉ (offers es).map Fact.id := fun hmem => hid (List.mem_append_left _ hmem)
    rw [exchanges_concat, usesOf_concat, ih hids.of_append_left hold,
      if_neg fun hused => hold (uses_subset hknown e hused)]
    rfl

/-- **Every stored fact has the history that the run shows.** -/
theorem hasHistory_run (hnew : s.facts = []) (hids : ((offers es).map Fact.id).Nodup)
    (hg : g ∈ (s.run es).facts) :
    HasHistory g.user (offersTo g.user es) (usesOf g.id (s.exchanges es)) g := by
  induction es using List.reverseRecOn generalizing g with
  | nil =>
    rw [run, List.foldl_nil, hnew] at hg
    cases hg
  | append_singleton es e ih =>
    rw [offers_concat, List.map_append] at hids
    rw [run_concat] at hg
    have hknown := Known.run hnew hids.of_append_left
    rw [exchanges_concat, usesOf_concat, offersTo_concat]
    rcases mem_after hknown hids hg with ⟨f, hf, hfg⟩ | ⟨f, hf, hstored, hcount, hlast⟩
    · have hid : g.id = f.id := by rw [hfg]
      have huser : g.user = f.user := by rw [hfg]
      rw [hid, huser]
      exact ((ih hids.of_append_left hf).continued hfg).mono (List.subset_append_left _ _)
    · have hmem : f.id ∈ e.request.offered.map Fact.id := List.mem_map_of_mem hf
      have hid : g.id ∉ (offers es).map Fact.id := by
        rw [hstored.id_eq]
        exact fun hold => (List.nodup_append.1 hids).2.2 _ hold _ hmem rfl
      rw [usesOf_eq_nil hnew hids.of_append_left hid,
        if_neg fun hused => hid (uses_subset hknown e hused), hstored.user_eq, if_pos rfl]
      exact ⟨f, List.mem_append_right _ hf, hstored, by simp [hcount], hlast⟩

/-- A fact is never found with a lower count later. -/
theorem accessCount_le (hnew : s.facts = []) (hids : ((offers (es ++ es')).map Fact.id).Nodup)
    (hf : f ∈ (s.run es).facts) (hg : g ∈ (s.run (es ++ es')).facts) (hid : g.id = f.id) :
    f.accessCount ≤ g.accessCount := by
  have hold : ((offers es).map Fact.id).Nodup := by
    rw [offers_append, List.map_append] at hids
    exact hids.of_append_left
  obtain ⟨f₀, hf₀, hstoredf, hcountf, -⟩ := hasHistory_run hnew hold hf
  obtain ⟨g₀, hg₀, hstoredg, hcountg, -⟩ := hasHistory_run hnew hids hg
  have hsame : g₀ = f₀ := by
    refine List.inj_on_of_nodup_map hids (offersTo_subset _ _ hg₀) ?_ ?_
    · rw [offers_append]
      exact List.mem_append_left _ (offersTo_subset _ _ hf₀)
    · rw [← hstoredg.id_eq, hid, hstoredf.id_eq]
  have hmore : (usesOf f.id (s.exchanges es)).length ≤
      (usesOf f.id (s.exchanges (es ++ es'))).length := by
    rw [exchanges_append, usesOf, usesOf, List.filter_append, List.map_append, List.length_append]
    exact Nat.le_add_right _ _
  rw [hcountf, hcountg, hsame, hid]
  omega

theorem settings_run (hnew : s.facts = []) (hids : ((offers es).map Fact.id).Nodup) :
    (s.run es).minAccessCount = s.minAccessCount ∧ (s.run es).ttl = s.ttl := by
  induction es using List.reverseRecOn with
  | nil => exact ⟨rfl, rfl⟩
  | append_singleton es e ih =>
    rw [offers_concat, List.map_append] at hids
    obtain ⟨hcount, httl⟩ := ih hids.of_append_left
    obtain ⟨hcount', httl'⟩ := settings_after (Known.run hnew hids.of_append_left).nodup e
    rw [run_concat]
    exact ⟨hcount'.trans hcount, httl'.trans httl⟩

/-- **A fact that has been used often enough is there after every run that does not forget its
user.** -/
theorem exists_mem_run (hnew : s.facts = []) (hids : ((offers (es ++ es')).map Fact.id).Nodup)
    (hf : f ∈ (s.run es).facts) (hcount : s.minAccessCount ≤ f.accessCount)
    (hkept : ∀ e ∈ es', e.request ≠ .deleteUser f.user) :
    ∃ g ∈ (s.run (es ++ es')).facts, f.StoredAs f.user g := by
  induction es' using List.reverseRecOn with
  | nil => exact ⟨f, by rwa [List.append_nil], rfl, fun _ => rfl⟩
  | append_singleton es' e ih =>
    rw [← List.append_assoc] at hids ⊢
    have hall := hids
    rw [offers_concat, List.map_append] at hids
    obtain ⟨hkeptr, hkepte⟩ := List.forall_mem_append.1 hkept
    obtain ⟨g, hg, hfg⟩ := ih hids.of_append_left hkeptr
    have hoften : (s.run (es ++ es')).minAccessCount ≤ g.accessCount := by
      rw [(settings_run hnew hids.of_append_left).1]
      have := accessCount_le hnew hids.of_append_left hf hg hfg.id_eq
      omega
    have hdelete : e.request ≠ .deleteUser g.user := by
      rw [hfg.user_eq]
      exact hkepte e (List.mem_singleton.2 rfl)
    obtain ⟨h, hh, hgh⟩ :=
      exists_mem_after (Known.run hnew hids.of_append_left) hids hg hoften hdelete
    rw [run_concat]
    refine ⟨h, hh, ?_, fun hsome => ?_⟩
    · rw [hgh, hfg.eq]
    · rw [hgh]
      exact hfg.embedding hsome

end

/-! ### Pruning -/

/-- What is gone after pruning is what was used too rarely and for too long not at all. -/
theorem prune_facts (now : Time) (user : String) (s : FactStore) :
    (s.prune now user).2.facts = s.facts.filter fun f =>
      ¬ (f.user = user ∧ f.accessCount < s.minAccessCount ∧ s.ttl < now - f.lastAccessed) := by
  refine List.filter_congr fun f _ => ?_
  rw [Bool.eq_iff_iff]
  simp [Fact.isStale]

theorem length_prune (now : Time) (user : String) (s : FactStore) :
    (s.prune now user).1 + (s.prune now user).2.facts.length = s.facts.length := by
  simp only [prune_eq, without, ofUser, List.filter_filter]
  have hsplit := List.length_eq_length_filter_add (l := s.facts) fun f =>
    f.user == user && f.isStale s.ttl s.minAccessCount now
  simp only [Bool.and_comm] at hsplit ⊢
  omega

/-- Nothing is left to be taken away. -/
theorem filter_without (user : String) (p : Fact → Bool) (s : FactStore) :
    ((s.without user p).ofUser user).filter p = [] := by
  rw [ofUser_without]
  refine List.filter_eq_nil_iff.2 fun f hf hp => ?_
  obtain ⟨hmine, hkept⟩ := List.mem_filter.1 hf
  simp [(user_of_mem_ofUser hmine).2, hp] at hkept

theorem without_of_none {p : Fact → Bool} (hnone : (s.ofUser user).filter p = []) :
    s.without user p = s := by
  have hkept : (s.facts.filter fun f => !(f.user == user && p f)) = s.facts := by
    refine List.filter_eq_self.2 fun f hf => ?_
    by_cases huser : f.user = user
    · have hmine : f ∈ s.ofUser user := List.mem_filter.2 ⟨hf, beq_iff_eq.2 huser⟩
      simpa [huser] using List.filter_eq_nil_iff.1 hnone f hmine
    · simp [huser]
  have howners : withoutOwners [] s.owners = s.owners := by simp [withoutOwners]
  unfold without
  rw [hkept, hnone, howners]

theorem prune_again (now : Time) (user : String) (s : FactStore) :
    (s.prune now user).2.prune now user = (0, (s.prune now user).2) := by
  have hnone := s.filter_without user (Fact.isStale s.ttl s.minAccessCount now)
  rw [prune_eq, prune_eq]
  exact Prod.ext (congrArg List.length hnone) (without_of_none hnone)

/-- In a run of a new store in which no identifier is offered twice, pruning at any time takes away
exactly the user's facts that were used too rarely and for too long not at all, says how many they
were, and finds nothing more to take away at that time. How often and when a fact was last used is
what the run shows. Counts never go down, and a fact whose count has once been high enough stays,
whatever comes in between, as long as its user is not forgotten. -/
theorem run_prunes {s : FactStore} {es es' : List Event} (hnew : s.facts = [])
    (hids : ((offers (es ++ es')).map Fact.id).Nodup) :
    (∀ now user,
      (((s.run es).prune now user).2.facts = (s.run es).facts.filter fun f =>
        ¬ (f.user = user ∧ f.accessCount < s.minAccessCount ∧ s.ttl < now - f.lastAccessed)) ∧
      ((s.run es).prune now user).1 + ((s.run es).prune now user).2.facts.length =
        (s.run es).facts.length ∧
      ((s.run es).prune now user).2.prune now user = (0, ((s.run es).prune now user).2)) ∧
    (∀ g ∈ (s.run es).facts,
      HasHistory g.user (offersTo g.user es) (usesOf g.id (s.exchanges es)) g) ∧
    (∀ f ∈ (s.run es).facts, ∀ g ∈ (s.run (es ++ es')).facts, g.id = f.id →
      f.accessCount ≤ g.accessCount) ∧
    ∀ f ∈ (s.run es).facts, s.minAccessCount ≤ f.accessCount →
      (∀ e ∈ es', e.request ≠ .deleteUser f.user) →
      ∃ g ∈ (s.run (es ++ es')).facts, f.StoredAs f.user g := by
  have hold : ((offers es).map Fact.id).Nodup := by
    rw [offers_append, List.map_append] at hids
    exact hids.of_append_left
  obtain ⟨hcount, httl⟩ := settings_run hnew hold
  refine ⟨fun now user => ⟨?_, length_prune now user _, prune_again now user _⟩,
    fun g hg => hasHistory_run hnew hold hg,
    fun f hf g hg hid => accessCount_le hnew hids hf hg hid,
    fun f hf hoften hkept => exists_mem_run hnew hids hf hoften hkept⟩
  rw [prune_facts, hcount, httl]

/-- Two facts of which one is used once. -/
def lapse : List Event := [
  ⟨{}, .store "u" "c" [learned "f1" "likes" "tea" 0.4, learned "f2" "lives in" "Lisbon" 0.5]⟩,
  ⟨{ now := 1 }, .recordAccess "u" "f2"⟩]

/-- Pruning after a long time. -/
def cleanup : List Event := [
  ⟨{ now := 90 * day }, .search "u" "" 0⟩,
  ⟨{ now := 90 * day }, .prune "u"⟩]

theorem run_lapse :
    (({} : FactStore).facts = [] ∧ ((offers (lapse ++ cleanup)).map Fact.id).Nodup) ∧
    (((({} : FactStore).run lapse).facts.map fun f => (f.id, f.accessCount)) =
        [("f1", 1), ("f2", 2)] ∧
      ((({} : FactStore).run (lapse ++ cleanup)).facts.map Fact.id) = ["f2"]) ∧
    ((({} : FactStore).run lapse).prune (90 * day) "u").2.prune (90 * day) "u" =
        (0, ((({} : FactStore).run lapse).prune (90 * day) "u").2) ∧
    ∃ f ∈ (({} : FactStore).run lapse).facts, f.id = "f2" ∧ 2 ≤ f.accessCount ∧
      ∃ g ∈ (({} : FactStore).run (lapse ++ cleanup)).facts, f.StoredAs f.user g := by
  have hids : ((offers (lapse ++ cleanup)).map Fact.id).Nodup := by decide +kernel
  have hruns : ((({} : FactStore).run lapse).facts.map fun f => (f.id, f.accessCount)) =
      [("f1", 1), ("f2", 2)] ∧
      ((({} : FactStore).run (lapse ++ cleanup)).facts.map Fact.id) = ["f2"] := by
    decide +kernel
  have hused : ∃ f ∈ (({} : FactStore).run lapse).facts, f.id = "f2" ∧ 2 ≤ f.accessCount := by
    decide +kernel
  obtain ⟨hprune, -, -, hstays⟩ := run_prunes (s := {}) rfl hids
  obtain ⟨f, hf, hid, hoften⟩ := hused
  exact ⟨⟨rfl, hids⟩, hruns, (hprune (90 * day) "u").2.2, f, hf, hid, hoften,
    hstays f hf hoften (by simp [cleanup])⟩

end FactStore

end TieredMemory
