import LaptopCooler.Library.SerialNumber
import Mathlib.Data.Fin.Basic
import Mathlib.Data.Int.CardIntervalMod
import Mathlib.Data.List.FinRange
import Mathlib.Logic.Function.Basic

/-! # Rings of serially stamped records

A journal keeps its records in a ring of slots. Every new record goes into the
slot after the newest one and carries the next serial number; a slot may lose
its record at any time. Nothing but the stamps tells the records' age, and the
stamps wrap around.

The invariant gives every surviving record an unbounded index: the slot is the
index modulo the ring size, the stamp is the index counted on from an epoch, and
all indices lie within one turn of the ring (`SerialRing.Tracks`). As long as
the ring is no longer than half the serial circle, the scan for the newest stamp
finds the record committed last (`SerialRing.Represents.latest_eq_head`), and
writing the next record or losing one keeps the invariant
(`SerialRing.Represents.commit`, `SerialRing.Represents.lose`).
-/

namespace SerialRing

open SerialNumber

variable {α : Type*} {n w : ℕ}

/-- The decodable contents of a ring: a stamp and a value in every occupied slot. -/
abbrev Ring (n w : ℕ) (α : Type*) := Fin n → Option (BitVec w × α)

/-- A record together with the slot that holds it. -/
structure Entry (n w : ℕ) (α : Type*) where
  slot : Fin n
  serial : BitVec w
  value : α

/-- The occupied slots of the ring in slot order. -/
def entries (ring : Ring n w α) : List (Entry n w α) :=
  (List.finRange n).filterMap fun slot => (ring slot).map fun record => ⟨slot, record.1, record.2⟩

/-- The result of scanning the slots in order for the newest stamp. -/
def latest (ring : Ring n w α) : Option (Entry n w α) :=
  (entries ring).foldl (keepNewer Entry.serial) none

theorem mem_entries {ring : Ring n w α} {entry : Entry n w α} :
    entry ∈ entries ring ↔ ring entry.slot = some (entry.serial, entry.value) := by
  simp only [entries, List.mem_filterMap, List.mem_finRange, true_and, Option.map_eq_some_iff]
  constructor
  · rintro ⟨slot, record, occupied, rfl⟩
    exact occupied
  · intro occupied
    exact ⟨entry.slot, _, occupied, rfl⟩

variable [NeZero n]

/-- Where the record after the newest one goes, and its stamp. An empty ring
starts over at its first slot. -/
def nextPosition (newest : Option (Entry n w α)) : Fin n × BitVec w :=
  match newest with
  | some entry => (entry.slot + 1, entry.serial + 1)
  | none => (0, 1)

/-- The slot of a record index. -/
def slotAt (n : ℕ) [NeZero n] (index : ℕ) : Fin n := Fin.ofNat n index

theorem slotAt_succ (index : ℕ) : slotAt n (index + 1) = slotAt n index + 1 := by
  apply Fin.ext
  simp [slotAt, Fin.val_add, Nat.add_mod]

theorem slotAt_add_length (index : ℕ) : slotAt n (index + n) = slotAt n index := by
  apply Fin.ext
  simp [slotAt]

/-- **The ring invariant.** The ring holds exactly the listed records, newest
first, each in the slot of its index and stamped with its index counted on from
the epoch. -/
structure Tracks (ring : Ring n w α) (epoch : BitVec w) (live : List (ℕ × α)) : Prop where
  descending : live.Pairwise fun newer older => older.1 < newer.1
  window : ∀ left ∈ live, ∀ right ∈ live, left.1 < right.1 + n
  stored : ∀ record ∈ live,
    ring (slotAt n record.1) = some (epoch + BitVec.ofNat w record.1, record.2)
  covered : ∀ slot, (ring slot).isSome → ∃ record ∈ live, slotAt n record.1 = slot

namespace Tracks

variable {ring : Ring n w α} {epoch : BitVec w} {live : List (ℕ × α)}

/-- The entry a tracked record makes. -/
def entryOf (n : ℕ) [NeZero n] (epoch : BitVec w) (record : ℕ × α) : Entry n w α :=
  ⟨slotAt n record.1, epoch + BitVec.ofNat w record.1, record.2⟩

theorem mem_entries_iff (tracks : Tracks ring epoch live) {entry : Entry n w α} :
    entry ∈ entries ring ↔ ∃ record ∈ live, entryOf n epoch record = entry := by
  rw [mem_entries]
  constructor
  · intro occupied
    obtain ⟨record, member, slot⟩ := tracks.covered entry.slot (by rw [occupied]; rfl)
    have stored := tracks.stored record member
    rw [slot, occupied, Option.some.injEq, Prod.mk.injEq] at stored
    refine ⟨record, member, ?_⟩
    rcases entry with ⟨entrySlot, serial, value⟩
    simp only [entryOf, Entry.mk.injEq]
    exact ⟨slot, stored.1.symm, stored.2.symm⟩
  · rintro ⟨record, member, rfl⟩
    exact tracks.stored record member

private theorem offset_entryOf {low index : ℕ} (above : low ≤ index)
    (near : index - low < 2 ^ (w - 1)) :
    offset (epoch + BitVec.ofNat w low) (epoch + BitVec.ofNat w index) = index - low := by
  have split : epoch + BitVec.ofNat w index =
      epoch + BitVec.ofNat w low + BitVec.ofNat w (index - low) := by
    rw [BitVec.add_assoc, ← BitVec.ofNat_add, Nat.add_sub_cancel' above]
  have le : 2 ^ (w - 1) ≤ 2 ^ w := Nat.pow_le_pow_right (by decide) (Nat.sub_le w 1)
  rw [split, offset_add_ofNat_of_lt _ (Nat.lt_of_lt_of_le near le)]

/-- **The scan finds the head.** A ring no longer than half the serial circle
yields its newest record. -/
theorem latest_eq_head (tracks : Tracks ring epoch live) (half : n ≤ 2 ^ (w - 1)) :
    latest ring = live.head?.map (entryOf n epoch) := by
  have positive : 0 < n := Nat.pos_of_ne_zero (NeZero.ne n)
  cases live with
  | nil =>
      have empty : entries ring = [] := by
        rw [List.eq_nil_iff_forall_not_mem]
        intro entry member
        obtain ⟨record, absent, _⟩ := tracks.mem_entries_iff.mp member
        exact List.not_mem_nil absent
      rw [latest, empty]
      rfl
  | cons head older =>
      -- All stamps share the window that starts one turn behind the head.
      let low := head.1 - (n - 1)
      have bounds : ∀ record ∈ head :: older, low ≤ record.1 ∧ record.1 ≤ head.1 := by
        intro record member
        have near := tracks.window head List.mem_cons_self record member
        refine ⟨by simp only [low]; omega, ?_⟩
        rcases List.mem_cons.mp member with rfl | below
        · exact le_rfl
        · exact Nat.le_of_lt ((List.pairwise_cons.mp tracks.descending).1 record below)
      have offsets : ∀ record ∈ head :: older,
          offset (epoch + BitVec.ofNat w low) (entryOf n epoch record).serial =
            record.1 - low := by
        intro record member
        have := bounds record member
        exact offset_entryOf this.1 (by simp only [low] at *; omega)
      have inside : ∀ entry ∈ entries ring,
          InWindow (epoch + BitVec.ofNat w low) entry.serial := by
        intro entry member
        obtain ⟨record, listed, rfl⟩ := tracks.mem_entries_iff.mp member
        have := bounds record listed
        rw [InWindow, offsets record listed]
        simp only [low] at *
        omega
      have headEntry : entryOf n epoch head ∈ entries ring :=
        tracks.mem_entries_iff.mpr ⟨head, List.mem_cons_self, rfl⟩
      rcases foldl_keepNewer_greatest (entries ring) inside with ⟨empty, _⟩ | found
      · rw [empty] at headEntry
        exact (List.not_mem_nil headEntry).elim
      · obtain ⟨last, member, folded, greatest⟩ := found
        obtain ⟨record, listed, rfl⟩ := tracks.mem_entries_iff.mp member
        have above := greatest _ headEntry
        rw [offsets head List.mem_cons_self, offsets record listed] at above
        have := bounds record listed
        have := bounds head List.mem_cons_self
        have isHead : record = head := by
          rcases List.mem_cons.mp listed with same | below
          · exact same
          · have := (List.pairwise_cons.mp tracks.descending).1 record below
            omega
        rw [latest, folded, isHead]
        rfl

/-- Losing the record of a slot leaves the others tracked. -/
theorem lose (tracks : Tracks ring epoch live) (slot : Fin n) :
    Tracks (Function.update ring slot none) epoch
      (live.filter fun record => slotAt n record.1 ≠ slot) where
  descending := tracks.descending.sublist List.filter_sublist
  window left leftMember right rightMember :=
    tracks.window left (List.mem_of_mem_filter leftMember) right
      (List.mem_of_mem_filter rightMember)
  stored record member := by
    obtain ⟨listed, elsewhere⟩ := List.mem_filter.mp member
    rw [Function.update_of_ne (of_decide_eq_true elsewhere)]
    exact tracks.stored record listed
  covered query occupied := by
    by_cases same : query = slot
    · subst same
      simp at occupied
    · rw [Function.update_of_ne same] at occupied
      obtain ⟨record, member, rfl⟩ := tracks.covered query occupied
      exact ⟨record, List.mem_filter.mpr ⟨member, by simpa using same⟩, rfl⟩

/-- Writing a record under an index just ahead of the others tracks it. -/
theorem insert (tracks : Tracks ring epoch live) (index : ℕ) (value : α)
    (ahead : ∀ record ∈ live, record.1 < index) (near : ∀ record ∈ live, index ≤ record.1 + n) :
    Tracks (Function.update ring (slotAt n index) (some (epoch + BitVec.ofNat w index, value)))
      epoch ((index, value) :: live.filter fun record => slotAt n record.1 ≠ slotAt n index) := by
  have rest := tracks.lose (slotAt n index)
  have keptNear : ∀ record ∈ live.filter fun record => slotAt n record.1 ≠ slotAt n index,
      index < record.1 + n := by
    intro record member
    obtain ⟨listed, elsewhere⟩ := List.mem_filter.mp member
    refine lt_of_le_of_ne (near record listed) fun turn => of_decide_eq_true elsewhere ?_
    rw [turn, slotAt_add_length]
  refine ⟨?_, ?_, ?_, ?_⟩
  · exact List.pairwise_cons.mpr
      ⟨fun record member => ahead record (List.mem_of_mem_filter member), rest.descending⟩
  · intro left leftMember right rightMember
    have positive : 0 < n := Nat.pos_of_ne_zero (NeZero.ne n)
    rcases List.mem_cons.mp leftMember with rfl | leftMember
    · rcases List.mem_cons.mp rightMember with rfl | rightMember
      · exact Nat.lt_add_of_pos_right positive
      · exact keptNear right rightMember
    · rcases List.mem_cons.mp rightMember with rfl | rightMember
      · exact Nat.lt_add_right n (ahead left (List.mem_of_mem_filter leftMember))
      · exact rest.window left leftMember right rightMember
  · intro record member
    rcases List.mem_cons.mp member with rfl | member
    · exact Function.update_self ..
    · obtain ⟨listed, elsewhere⟩ := List.mem_filter.mp member
      rw [Function.update_of_ne (of_decide_eq_true elsewhere)]
      exact tracks.stored record listed
  · intro slot occupied
    by_cases same : slot = slotAt n index
    · exact ⟨(index, value), List.mem_cons_self, same.symm⟩
    · have remaining : (Function.update ring (slotAt n index) none slot).isSome := by
        rwa [Function.update_of_ne same] at occupied ⊢
      obtain ⟨record, member, here⟩ := rest.covered slot remaining
      exact ⟨record, List.mem_cons_of_mem _ member, here⟩

end Tracks

/-! ## The journal a ring stands for -/

/-- The ring holds exactly the records of the journal, listed newest first with
their slots. -/
def Represents (ring : Ring n w α) (journal : List (Fin n × α)) : Prop :=
  ∃ epoch live, Tracks ring epoch live ∧
    journal = live.map fun record => (slotAt n record.1, record.2)

namespace Represents

variable {ring : Ring n w α} {journal : List (Fin n × α)}

/-- A ring without records stands for the empty journal. -/
theorem empty (vacant : ∀ slot, ring slot = none) : Represents ring [] :=
  ⟨0, [], ⟨List.Pairwise.nil, by simp, by simp, by simp [vacant]⟩, rfl⟩

theorem vacant (represents : Represents ring []) (slot : Fin n) : ring slot = none := by
  obtain ⟨epoch, live, tracks, mapped⟩ := represents
  have none_live : live = [] := List.map_eq_nil_iff.mp mapped.symm
  subst none_live
  by_contra occupied
  obtain ⟨record, absent, _⟩ := tracks.covered slot (Option.isSome_iff_ne_none.mpr occupied)
  exact List.not_mem_nil absent

/-- **The newest stamp is the last commit.** -/
theorem latest_eq_head (represents : Represents ring journal) (half : n ≤ 2 ^ (w - 1)) :
    (latest ring).map (fun entry => (entry.slot, entry.value)) = journal.head? := by
  obtain ⟨epoch, live, tracks, rfl⟩ := represents
  rw [tracks.latest_eq_head half, List.head?_map, Option.map_map]
  rfl

theorem lose (represents : Represents ring journal) (slot : Fin n) :
    Represents (Function.update ring slot none) (journal.filter fun record => record.1 ≠ slot) := by
  obtain ⟨epoch, live, tracks, rfl⟩ := represents
  exact ⟨epoch, _, tracks.lose slot, by rw [List.filter_map]; rfl⟩

/-- Writing the record after the newest one puts it at the head of the journal,
in place of whatever its slot held. -/
theorem commit (represents : Represents ring journal) (half : n ≤ 2 ^ (w - 1)) (value : α) :
    Represents
      (Function.update ring (nextPosition (latest ring)).1
        (some ((nextPosition (latest ring)).2, value)))
      (((nextPosition (latest ring)).1, value) ::
        journal.filter fun record => record.1 ≠ (nextPosition (latest ring)).1) := by
  obtain ⟨epoch, live, tracks, rfl⟩ := represents
  rw [tracks.latest_eq_head half]
  cases live with
  | nil =>
      have restarted : Tracks ring 1 ([] : List (ℕ × α)) :=
        ⟨List.Pairwise.nil, by simp, by simp, tracks.covered⟩
      have written := restarted.insert 0 value (by simp) (by simp)
      have origin : slotAt n 0 = 0 := rfl
      refine ⟨1, [(0, value)], ?_, ?_⟩
      · simpa [nextPosition, origin] using written
      · simp [nextPosition, origin]
  | cons head older =>
      have ahead : ∀ record ∈ head :: older, record.1 < head.1 + 1 := by
        intro record member
        rcases List.mem_cons.mp member with rfl | below
        · exact Nat.lt_succ_self _
        · exact Nat.lt_succ_of_lt ((List.pairwise_cons.mp tracks.descending).1 record below)
      have near : ∀ record ∈ head :: older, head.1 + 1 ≤ record.1 + n :=
        fun record member => tracks.window head List.mem_cons_self record member
      have written := tracks.insert (head.1 + 1) value ahead near
      have slot : slotAt n head.1 + 1 = slotAt n (head.1 + 1) := (slotAt_succ head.1).symm
      have stamp : epoch + BitVec.ofNat w head.1 + 1 = epoch + BitVec.ofNat w (head.1 + 1) := by
        rw [BitVec.add_assoc, BitVec.ofNat_add]
        rfl
      refine ⟨epoch, (head.1 + 1, value) ::
        (head :: older).filter fun record => slotAt n record.1 ≠ slotAt n (head.1 + 1), ?_, ?_⟩
      · simpa only [List.head?_cons, Option.map_some, nextPosition, Tracks.entryOf, slot, stamp]
          using written
      · simp only [List.head?_cons, Option.map_some, nextPosition, Tracks.entryOf, slot]
        exact congrArg (_ :: ·) List.filter_map

/-- The slot written next is not the one of the newest record. -/
theorem nextPosition_ne_head (represents : Represents ring journal) (half : n ≤ 2 ^ (w - 1))
    (several : 2 ≤ n) {newest : Fin n × α} (head : journal.head? = some newest) :
    newest.1 ≠ (nextPosition (latest ring)).1 := by
  rw [← represents.latest_eq_head half, Option.map_eq_some_iff] at head
  obtain ⟨entry, found, rfl⟩ := head
  rw [found]
  intro same
  have values : entry.slot.val = (entry.slot.val + 1) % n := by
    have := congrArg Fin.val same
    simpa [nextPosition, Fin.val_add, Nat.mod_eq_of_lt several] using this
  have := entry.slot.isLt
  rcases Nat.lt_or_ge (entry.slot.val + 1) n with inside | wrapped
  · rw [Nat.mod_eq_of_lt inside] at values
    omega
  · rw [show entry.slot.val + 1 = n by omega, Nat.mod_self] at values
    omega

end Represents

end SerialRing
