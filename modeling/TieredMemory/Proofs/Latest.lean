import TieredMemory.Proofs.Archive.Shelves
import TieredMemory.Proofs.HotCache.Contents
import TieredMemory.Proofs.Ranking
import TieredMemory.Proofs.Validation

/-!
# The latest turns of a conversation

The hot cache and the archive in memory both keep the turns of a conversation in a list of their own, and
both answer with the last ones of it in order of time (`recentAt_eq`, `conversation_eq`), the archive
as a log no less than on shelves. So the answer to a limit is one function of the turns that are held
(`latestOf`), whatever the limit and the times are: it has as many turns as there are up to the limit,
none of the others is later, and a smaller limit leaves out turns at the front only (`latest_latestOf`).
-/

namespace TieredMemory

/-- One of the held turns comes before another one: it is earlier, or of the same time and before it in
the list. -/
def ComesBefore (held : List Turn) (s t : Turn) : Prop :=
  s.createdAt < t.createdAt ∨ s.createdAt = t.createdAt ∧ [s, t].Sublist held

/-- What the answers to all limits have to be, given the turns that are held. -/
structure Latest (held : List Turn) (answer : Nat → List Turn) : Prop where
  length : ∀ n, (answer n).length = min n held.length
  ordered : ∀ n, (answer n).Pairwise (ComesBefore held)
  /-- The held turns are those of the answer and others that come before them. -/
  omitted : ∀ n, ∃ omitted, (omitted ++ answer n).Perm held ∧
    ∀ s ∈ omitted, ∀ t ∈ answer n, ComesBefore held s t
  suffix : ∀ m n, m ≤ n → answer m <:+ answer n

/-- The last `n` of the turns by their times. -/
def latestOf (n : Nat) (held : List Turn) : List Turn := lastOf n (HotCache.inOrder held)

theorem pairwise_inOrder (held : List Turn) :
    (HotCache.inOrder held).Pairwise (ComesBefore held) :=
  pairwise_ascending_or Turn.createdAt held

theorem inOrder_perm (held : List Turn) : (HotCache.inOrder held).Perm held :=
  ascending_perm _ held

theorem latest_latestOf (held : List Turn) : Latest held fun n => latestOf n held where
  length n := by rw [latestOf, length_lastOf, (inOrder_perm held).length_eq]
  ordered n := (pairwise_inOrder held).sublist (List.drop_sublist _ _)
  omitted n := by
    have hordered := pairwise_inOrder held
    have hperm := inOrder_perm held
    rw [← take_append_lastOf n (HotCache.inOrder held)] at hordered hperm
    exact ⟨_, hperm, (List.pairwise_append.1 hordered).2.2⟩
  suffix m n h := lastOf_suffix h _

/-! ### The two tiers -/

/-- The turns of a user's conversation as they stand on the shelf. -/
def Shelves.turnsAt (p : Place) (a : Shelves) : List Turn :=
  (a.shelf p.user).filter fun t => t.conversation == p.conversation

/-- The turns of a user's conversation as they stand in the log. -/
def ArchiveLog.turnsAt (p : Place) (a : ArchiveLog) : List Turn :=
  (a.ofUser p.user).filter fun t => t.conversation == p.conversation

variable {user conversation : String}

theorem HotCache.recentAt_eq (now : Time) (n : Nat) (c : HotCache) :
    c.recentAt now user conversation n =
      (checkPlace user conversation).map fun p =>
        (latestOf n (c.turnsAt p), (c.recent now p n).2) := by
  unfold recentAt
  rw [checkLimit_of_nonneg (Int.natCast_nonneg n), Int.toNat_natCast]
  cases checkPlace user conversation with
  | error why => rfl
  | ok p =>
    simp only [bind, Except.bind, pure, Except.pure, Except.map, latestOf, ← recent_fst now]

/-- Asking for turns leaves every bucket its turns. -/
theorem HotCache.turnsAt_after_recent (now : Time) (limit : Int) (c : HotCache) (p : Place) :
    (c.after ⟨now, .recent user conversation limit⟩).turnsAt p = c.turnsAt p := by
  rcases after_recent c now user conversation limit with h | ⟨q, n, h⟩
  · rw [h]
  · rw [h, turnsAt_recent]

theorem Shelves.conversation_eq (n : Nat) (a : Shelves) :
    a.conversation user conversation n =
      (checkUser user).map fun _ => latestOf n (a.turnsAt ⟨user, conversation⟩) := by
  unfold Shelves.conversation
  rw [checkLimit_of_nonneg (Int.natCast_nonneg n), Int.toNat_natCast]
  cases checkUser user with
  | error why => rfl
  | ok _ => rfl

theorem ArchiveLog.conversation_eq (n : Nat) (a : ArchiveLog) :
    a.conversation user conversation n =
      (checkUser user).map fun _ => latestOf n (a.turnsAt ⟨user, conversation⟩) := by
  unfold ArchiveLog.conversation
  rw [checkLimit_of_nonneg (Int.natCast_nonneg n), Int.toNat_natCast]
  cases checkUser user with
  | error why => rfl
  | ok _ => rfl

/-- In any state the hot cache and the archive answer a call for the latest turns of a conversation, up
to any limit, with the latest ones of the turns that they hold, and go on holding the same. -/
theorem recent_and_conversation_latest (user conversation : String) :
    (∀ held, Latest held fun n => latestOf n held) ∧
      (∀ (c : HotCache) (now : Time) (n : Nat),
        (c.recentAt now user conversation n).map Prod.fst =
            (checkPlace user conversation).map
              (fun _ => latestOf n (c.turnsAt ⟨user, conversation⟩)) ∧
          ∀ p, (c.after ⟨now, .recent user conversation n⟩).turnsAt p = c.turnsAt p) ∧
      (∀ (a : Shelves) (w : World) (n : Nat),
        a.respond w (.conversation user conversation n) =
          (.found ((checkUser user).map fun _ => latestOf n (a.turnsAt ⟨user, conversation⟩)), a)) ∧
      ∀ (a : ArchiveLog) (w : World) (n : Nat),
        a.respond w (.conversation user conversation n) =
          (.found ((checkUser user).map fun _ => latestOf n (a.turnsAt ⟨user, conversation⟩)), a) := by
  refine ⟨latest_latestOf, fun c now n => ⟨?_, c.turnsAt_after_recent now n⟩, fun a w n => ?_,
    fun a w n => ?_⟩
  · rw [HotCache.recentAt_eq]
    cases hplace : checkPlace user conversation with
    | error why => rfl
    | ok p =>
      obtain ⟨rfl, -⟩ := checkPlace_inv hplace
      rfl
  · rw [← Shelves.conversation_eq]
    rfl
  · rw [← ArchiveLog.conversation_eq]
    rfl

end TieredMemory
