import TorrentHandle.Proofs.Arena.History

/-!
The free list of an arena. The free slots are those that can still give out a new address, each of
them once, and every other slot holds an object or is retired. So what is taken from the free list
is there, and storing fails only when there are as many slots as there may be and none of them is
free.
-/

namespace TorrentHandle.Arena

variable {α : Type} {arena : Arena α} {issued : List Address} {i : ℕ} {v : α}

/-- A vacant slot whose generation is above every one that was given out for it. -/
def Reusable (arena : Arena α) (issued : List Address) (i : ℕ) : Prop :=
  ∃ g, arena.slots[i]? = some ⟨g, none⟩ ∧ ∀ a ∈ issued, a.index = i → a.generation < g

def Occupied (arena : Arena α) (i : ℕ) : Prop := ∃ g v, arena.slots[i]? = some ⟨g, some v⟩

/-- A vacant slot at the last generation, which was given out. -/
def Retired (arena : Arena α) (issued : List Address) (i : ℕ) : Prop :=
  arena.slots[i]? = some ⟨lastGeneration, none⟩ ∧ ⟨arena.owner, i, lastGeneration⟩ ∈ issued

/-- A slot that gives out no new address: it holds an object or is retired. -/
def Spent (arena : Arena α) (issued : List Address) (i : ℕ) : Prop :=
  arena.Occupied i ∨ arena.Retired issued i

lemma Spent.lt_size (spent : arena.Spent issued i) : i < arena.slots.size := by
  obtain ⟨_, _, slot⟩ | ⟨slot, -⟩ := spent <;> exact (Array.getElem?_eq_some_iff.1 slot).1

namespace Sound

variable (h : arena.Sound issued)
include h

theorem mem_free_iff : i ∈ arena.free ↔ arena.Reusable issued i := by
  constructor
  · intro free
    obtain ⟨⟨g, value⟩, slot⟩ := h.free_slot i free
    have sound := h.slot i _ slot
    obtain rfl : value = none := sound.vacant free
    refine ⟨g, slot, fun a given index => lt_of_le_of_ne (sound.issued_le a given index) ?_⟩
    -- an address of this generation would say that the slot is in use
    rintro rfl
    have here : ⟨arena.owner, i, a.generation⟩ = a := by
      rw [← h.owner_of_mem given, ← index]
    exact sound.issued_iff.1 (here ▸ given) free
  · rintro ⟨g, slot, above⟩
    by_contra used
    have given := (h.slot i _ slot).issued_iff.2 used
    exact absurd (above _ given rfl) (lt_irrefl g)

theorem notMem_free_iff (bound : i < arena.slots.size) :
    i ∉ arena.free ↔ arena.Spent issued i := by
  have slot : arena.slots[i]? = some arena.slots[i] := Array.getElem?_eq_getElem bound
  have sound := h.slot i _ slot
  revert slot sound
  generalize arena.slots[i] = s
  obtain ⟨g, _ | w⟩ := s <;> intro slot sound
  · constructor
    · intro used
      obtain rfl : g = lastGeneration := sound.retired used rfl
      exact .inr ⟨slot, sound.issued_iff.2 used⟩
    · rintro (⟨_, _, slot'⟩ | ⟨slot', given⟩) <;> rw [slot] at slot' <;> cases slot'
      exact sound.issued_iff.1 given
  · refine iff_of_true (fun free => ?_) (.inl ⟨g, w, slot⟩)
    cases sound.vacant free

lemma size_le : arena.slots.size ≤ slotLimit := by
  by_contra more
  have bound : slotLimit < arena.slots.size := by omega
  have inside := (h.slot slotLimit _ (Array.getElem?_eq_getElem bound)).bounded.1
  exact lt_irrefl _ inside

/-- The slot that is taken from the free list is there, so storing succeeds. -/
lemma insert_of_free {rest : List ℕ} (free : arena.free = i :: rest) :
    ∃ g, arena.slots[i]? = some ⟨g, none⟩ ∧ ∀ v, (arena.insert v).1 = some ⟨arena.owner, i, g⟩ := by
  obtain ⟨g, slot, -⟩ := h.mem_free_iff.1 (free ▸ List.mem_cons_self)
  exact ⟨g, slot, fun v => by simp [Arena.insert, free, slot]⟩

theorem insert_eq_none_iff : (arena.insert v).1 = none ↔
    arena.slots.size = slotLimit ∧ ∀ i < slotLimit, arena.Spent issued i := by
  constructor
  · intro full
    obtain ⟨a, free, -, made, -⟩ | ⟨-, free, size⟩ := h.insert_cases v
    · rw [made] at full
      cases full
    · have all : arena.slots.size = slotLimit := le_antisymm h.size_le size
      exact ⟨all, fun i bound => (h.notMem_free_iff (all ▸ bound)).1 (by simp [free])⟩
  · rintro ⟨all, spent⟩
    obtain ⟨a, free, place, -⟩ | ⟨same, -⟩ := h.insert_cases v
    · cases place with
      | @reused i g rest free slot =>
        have bound : i < slotLimit := all ▸ (Array.getElem?_eq_some_iff.1 slot).1
        have used := (h.notMem_free_iff (all ▸ bound)).2 (spent i bound)
        exact absurd (free ▸ List.mem_cons_self) used
      | added free room => omega
    · rw [same]

lemma live_remove_add_one {a : Address} (found : (arena.remove a).1 = some v) :
    (arena.remove a).2.live + 1 = arena.live := by
  rw [remove_fst] at found
  have counted : arena.live ≠ 0 := by
    intro zero
    have none := h.live_eq
    rw [zero, Nat.cast_zero, Set.encard_eq_zero] at none
    exact (none ▸ mem_addresses.2 ⟨v, found⟩ : a ∈ (∅ : Set Address))
  rw [live_remove found]
  omega

end Sound

/-- **The free list is exact.** After every run on a new arena the free list has, each once, the
slots that are vacant and whose generation is above all that were given out for them; every other
slot holds an object, or is retired, vacant at the last generation after it was given out. So the
slot that is taken from the free list is there, the number of objects is not zero when one is taken
out, and storing fails iff there are `2 ^ 32` slots and each of them is occupied or retired. -/
theorem free_list_exact (owner : ℕ) (ops : List (Op α)) :
    let r := (Run.start owner : Run α).steps ops
    r.arena.free.Nodup ∧
    (∀ i, i ∈ r.arena.free ↔ r.arena.Reusable (given r.past) i) ∧
    (∀ i, i < r.arena.slots.size ∧ i ∉ r.arena.free ↔
      r.arena.Occupied i ∨ r.arena.Retired (given r.past) i) ∧
    (∀ i rest, r.arena.free = i :: rest → ∃ g, r.arena.slots[i]? = some ⟨g, none⟩ ∧
      ∀ v, (r.arena.insert v).1 = some ⟨owner, i, g⟩) ∧
    (∀ a v, (r.arena.remove a).1 = some v → (r.arena.remove a).2.live + 1 = r.arena.live) ∧
    ∀ v, (r.arena.insert v).1 = none ↔ r.arena.slots.size = 2 ^ 32 ∧
      ∀ i < 2 ^ 32, r.arena.Occupied i ∨ r.arena.Retired (given r.past) i := by
  intro r
  have h : r.arena.Sound (given r.past) := ((Run.faithful_start owner).steps ops).sound
  have same : r.arena.owner = owner := Run.owner_steps ops
  refine ⟨h.free_nodup, fun i => h.mem_free_iff, fun i => ?_, fun i rest free => ?_,
    fun a v found => h.live_remove_add_one found, fun v => h.insert_eq_none_iff⟩
  · constructor
    · rintro ⟨bound, used⟩
      exact (h.notMem_free_iff bound).1 used
    · intro spent
      have bound := Spent.lt_size spent
      exact ⟨bound, (h.notMem_free_iff bound).2 spent⟩
  · obtain ⟨g, slot, stored⟩ := h.insert_of_free free
    exact ⟨g, slot, same ▸ stored⟩

theorem vacated_slot_free_list :
    let r := (Run.start 7 : Run Char).steps
      [.insert 'a', .insert 'b', .insert 'c', .remove ⟨7, 1, 1⟩, .remove ⟨7, 1, 1⟩]
    r.arena.free = [1] ∧
    (∃ g, r.arena.slots[1]? = some ⟨g, none⟩ ∧ ∀ v, (r.arena.insert v).1 = some ⟨7, 1, g⟩) ∧
    (r.arena.Occupied 2 ∨ r.arena.Retired (given r.past) 2) ∧
    (r.arena.remove ⟨7, 0, 1⟩).1 = some 'a' ∧
    (r.arena.remove ⟨7, 0, 1⟩).2.live + 1 = r.arena.live := by
  intro r
  have free : r.arena.free = [1] := by decide
  have other : 2 < r.arena.slots.size ∧ 2 ∉ r.arena.free := by decide
  have taken : (r.arena.remove ⟨7, 0, 1⟩).1 = some 'a' := by decide
  obtain ⟨-, -, spent, stored, counted, -⟩ := free_list_exact 7
    [.insert 'a', .insert 'b', .insert 'c', .remove ⟨7, 1, 1⟩, .remove ⟨7, 1, 1⟩]
  exact ⟨free, stored 1 [] free, (spent 2).1 other, taken, counted _ _ taken⟩

end TorrentHandle.Arena
