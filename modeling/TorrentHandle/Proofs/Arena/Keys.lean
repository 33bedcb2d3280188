import Mathlib.Data.Set.Card
import TorrentHandle.Handle.Arena

/-!
The addresses of an arena as the keys of a map. An arena is read beside the addresses that it has
given out: `Sound` says how its slots, generations and free list go with them, every operation keeps
it, and from it follows that no address is given out twice.
-/

namespace TorrentHandle.Arena

variable {α : Type} {arena arena' : Arena α} {issued : List Address} {a b : Address} {v : α}

/-! ### Looking up -/

lemma get?_eq_some_iff : arena.get? a = some v ↔
    a.owner = arena.owner ∧ arena.slots[a.index]? = some ⟨a.generation, some v⟩ := by
  unfold get?
  split
  · rename_i owner
    cases arena.slots[a.index]? with
    | none => simp
    | some s =>
      obtain ⟨g, value⟩ := s
      by_cases same : g = a.generation <;> simp [same, owner]
  · rename_i owner
    simp [owner]

def addresses (arena : Arena α) : Set Address := {a | arena.get? a ≠ none}

lemma mem_addresses : a ∈ arena.addresses ↔ ∃ v, arena.get? a = some v :=
  Option.ne_none_iff_exists'

lemma get?_eq_none_of_vacant {g : ℕ} (slot : arena.slots[a.index]? = some ⟨g, none⟩) :
    arena.get? a = none := by
  refine Option.eq_none_iff_forall_ne_some.2 fun v found => ?_
  have occupied := (get?_eq_some_iff.1 found).2
  rw [slot] at occupied
  cases occupied

lemma eq_of_get?_eq_some (ha : arena.get? a = some v) {w : α} (hb : arena.get? b = some w)
    (index : b.index = a.index) : b = a := by
  obtain ⟨ownerA, slotA⟩ := get?_eq_some_iff.1 ha
  obtain ⟨ownerB, slotB⟩ := get?_eq_some_iff.1 hb
  rw [index, slotA] at slotB
  cases a; cases b
  simp_all

lemma get?_eq_none_of_ne (found : arena.get? a = some v) (index : b.index = a.index)
    (differs : b ≠ a) : arena.get? b = none :=
  Option.eq_none_iff_forall_ne_some.2 fun _ other =>
    differs (eq_of_get?_eq_some found other index)

/-! ### Writing a slot -/

lemma setIfInBounds_self {β : Type} {xs : Array β} {x : β} {i : ℕ} (here : xs[i]? = some x) :
    xs.setIfInBounds i x = xs := by
  apply Array.ext_getElem?
  intro j
  rw [Array.getElem?_setIfInBounds]
  split
  · rename_i same
    rw [if_pos (Array.getElem?_eq_some_iff.1 here).1, ← same, here]
  · rfl

/-- Every operation that changes an arena changes one slot: `arena'` has `s` at place `i`, and is
otherwise as `arena`. -/
structure Writes (arena : Arena α) (i : ℕ) (s : Slot α) (arena' : Arena α) : Prop where
  owner : arena'.owner = arena.owner
  slots : ∀ j, arena'.slots[j]? = if j = i then some s else arena.slots[j]?

namespace Writes

variable {i g : ℕ} {s : Slot α}

lemma of_setIfInBounds (owner : arena'.owner = arena.owner) (bound : i < arena.slots.size)
    (slots : arena'.slots = arena.slots.setIfInBounds i s) : Writes arena i s arena' := by
  refine ⟨owner, fun j => ?_⟩
  rw [slots, Array.getElem?_setIfInBounds]
  by_cases same : i = j
  · subst same
    simp [bound]
  · simp [same, Ne.symm same]

lemma of_push (owner : arena'.owner = arena.owner) (slots : arena'.slots = arena.slots.push s) :
    Writes arena arena.slots.size s arena' :=
  ⟨owner, fun j => by rw [slots, Array.getElem?_push]⟩

lemma get? (w : Writes arena i s arena') (b : Address) : arena'.get? b =
    if b.index = i then
      if b.owner = arena.owner ∧ b.generation = s.generation then s.value else none
    else arena.get? b := by
  ext x
  rw [get?_eq_some_iff, w.owner, w.slots]
  split
  · obtain ⟨generation, value⟩ := s
    by_cases owner : b.owner = arena.owner <;>
      by_cases same : generation = b.generation <;> simp [owner, same, eq_comm (a := b.generation)]
  · rw [get?_eq_some_iff]

/-- The object goes to an address in whose slot there is no other. -/
lemma get?_of_occupied (w : Writes arena a.index ⟨a.generation, some v⟩ arena')
    (owner : a.owner = arena.owner)
    (alone : ∀ b, b.index = a.index → b ≠ a → arena.get? b = none) :
    arena'.get? b = if b = a then some v else arena.get? b := by
  rw [w.get?]
  by_cases index : b.index = a.index
  · by_cases same : b = a
    · simp [same, owner]
    · have differs : ¬ (b.owner = arena.owner ∧ b.generation = a.generation) := by
        rintro ⟨o, g⟩
        exact same (by cases a; cases b; simp_all)
      simp [index, differs, same, alone b index same]
  · have differs : b ≠ a := fun same => index (by rw [same])
    simp [index, differs]

/-- The object leaves an address in whose slot there is no other. -/
lemma get?_of_vacated (w : Writes arena a.index ⟨g, none⟩ arena')
    (alone : ∀ b, b.index = a.index → b ≠ a → arena.get? b = none) :
    arena'.get? b = if b = a then none else arena.get? b := by
  rw [w.get?]
  by_cases same : b = a
  · simp [same]
  · by_cases index : b.index = a.index
    · simp [index, same, alone b index same]
    · simp [index, same]

end Writes

/-! ### The owner stays -/

@[simp] lemma owner_set : (arena.set a v).owner = arena.owner := by
  unfold set
  split <;> rfl

@[simp] lemma owner_remove : (arena.remove a).2.owner = arena.owner := by
  unfold remove
  split
  · rfl
  · dsimp only
    split <;> rfl

@[simp] lemma owner_insert : (arena.insert v).2.owner = arena.owner := by
  unfold insert
  split
  · split <;> rfl
  · split <;> rfl

/-! ### Changing an object -/

lemma writes_set {old : α} (found : arena.get? a = some old) :
    Writes arena a.index ⟨a.generation, some v⟩ (arena.set a v) := by
  have bound := (Array.getElem?_eq_some_iff.1 (get?_eq_some_iff.1 found).2).1
  refine .of_setIfInBounds ?_ bound ?_ <;> simp [set, found]

lemma set_of_none (missing : arena.get? a = none) : arena.set a v = arena := by
  simp [set, missing]

lemma set_self (found : arena.get? a = some v) : arena.set a v = arena := by
  have slots := setIfInBounds_self (get?_eq_some_iff.1 found).2
  simp [set, found, slots]

theorem get?_set : (arena.set a v).get? b =
    if b = a then (arena.get? a).map fun _ => v else arena.get? b := by
  cases found : arena.get? a with
  | none =>
    rw [set_of_none found]
    by_cases same : b = a <;> simp [same, found]
  | some old =>
    exact (writes_set found).get?_of_occupied (get?_eq_some_iff.1 found).1 fun _ =>
      get?_eq_none_of_ne found

theorem addresses_set : (arena.set a v).addresses = arena.addresses := by
  ext b
  simp only [addresses, Set.mem_ofPred_eq, get?_set]
  by_cases same : b = a <;> simp [same]

/-! ### Taking an object out -/

theorem remove_fst : (arena.remove a).1 = arena.get? a := by
  unfold remove
  cases arena.get? a with
  | none => rfl
  | some v => dsimp only; split <;> rfl

lemma remove_of_none (missing : arena.get? a = none) : (arena.remove a).2 = arena := by
  simp [remove, missing]

lemma writes_remove (found : arena.get? a = some v) : Writes arena a.index
    ⟨if a.generation < lastGeneration then a.generation + 1 else a.generation, none⟩
    (arena.remove a).2 := by
  have bound := (Array.getElem?_eq_some_iff.1 (get?_eq_some_iff.1 found).2).1
  by_cases more : a.generation < lastGeneration <;>
    refine .of_setIfInBounds ?_ bound ?_ <;> simp [remove, found, more]

lemma free_remove (found : arena.get? a = some v) : (arena.remove a).2.free =
    if a.generation < lastGeneration then a.index :: arena.free else arena.free := by
  by_cases more : a.generation < lastGeneration <;> simp [remove, found, more]

lemma live_remove (found : arena.get? a = some v) :
    (arena.remove a).2.live = arena.live - 1 := by
  by_cases more : a.generation < lastGeneration <;> simp [remove, found, more]

theorem get?_remove : (arena.remove a).2.get? b = if b = a then none else arena.get? b := by
  cases found : arena.get? a with
  | none =>
    rw [remove_of_none found]
    by_cases same : b = a <;> simp [same, found]
  | some v =>
    exact (writes_remove found).get?_of_vacated fun _ => get?_eq_none_of_ne found

theorem addresses_remove : (arena.remove a).2.addresses = arena.addresses \ {a} := by
  ext b
  by_cases same : b = a <;> simp [addresses, get?_remove, same]

/-! ### The invariant -/

/-- What holds of one slot beside the addresses that were given out. -/
structure SlotSound (owner i : ℕ) (s : Slot α) (free : Prop) (issued : List Address) : Prop where
  /-- The slot has not gone back behind an address that was given out. -/
  issued_le : ∀ a ∈ issued, a.index = i → a.generation ≤ s.generation
  /-- A free slot has gone on from all of them, and no other slot has. -/
  issued_iff : ⟨owner, i, s.generation⟩ ∈ issued ↔ ¬ free
  vacant : free → s.value = none
  /-- A slot without object that is not free is retired. -/
  retired : ¬ free → s.value = none → s.generation = lastGeneration
  bounded : i < slotLimit ∧ s.generation ≤ lastGeneration

/-- **The invariant of an arena** beside the addresses that it has given out. -/
structure Sound (arena : Arena α) (issued : List Address) : Prop where
  issued_nodup : issued.Nodup
  issued_slot : ∀ a ∈ issued, a.owner = arena.owner ∧ ∃ s, arena.slots[a.index]? = some s
  free_nodup : arena.free.Nodup
  free_slot : ∀ i ∈ arena.free, ∃ s, arena.slots[i]? = some s
  slot : ∀ i s, arena.slots[i]? = some s → SlotSound arena.owner i s (i ∈ arena.free) issued
  live_eq : arena.addresses.encard = arena.live

theorem sound_empty (owner : ℕ) : Sound ({ owner } : Arena α) [] where
  issued_nodup := List.nodup_nil
  issued_slot := by simp
  free_nodup := List.nodup_nil
  free_slot := by simp
  slot := by simp
  live_eq := by simp [addresses, get?]

lemma SlotSound.congr {owner i : ℕ} {s : Slot α} {free free' : Prop} {issued' : List Address}
    (h : SlotSound owner i s free issued) (same : free' ↔ free)
    (given : ∀ a : Address, a.index = i → (a ∈ issued' ↔ a ∈ issued)) :
    SlotSound owner i s free' issued' where
  issued_le a inside index := h.issued_le a ((given a index).1 inside) index
  issued_iff := by rw [given _ rfl, h.issued_iff, same]
  vacant free := h.vacant (same.1 free)
  retired out := h.retired fun free => out (same.2 free)
  bounded := h.bounded

namespace Sound

/-- A change of one slot keeps the invariant if the slot is sound afterwards, and the free list and
the addresses change in this slot only. -/
theorem of_writes {i : ℕ} {s : Slot α} {issued' : List Address} (h : arena.Sound issued)
    (writes : Writes arena i s arena') (issued_nodup : issued'.Nodup)
    (issued_iff : ∀ a : Address, a.index ≠ i → (a ∈ issued' ↔ a ∈ issued))
    (issued_owner : ∀ a ∈ issued', a.index = i → a.owner = arena.owner)
    (free_nodup : arena'.free.Nodup) (free_iff : ∀ j, j ≠ i → (j ∈ arena'.free ↔ j ∈ arena.free))
    (slot : SlotSound arena.owner i s (i ∈ arena'.free) issued')
    (live_eq : arena'.addresses.encard = arena'.live) : arena'.Sound issued' := by
  refine ⟨issued_nodup, fun a inside => ?_, free_nodup, fun j inside => ?_, fun j t found => ?_,
    live_eq⟩
  · rw [writes.owner, writes.slots]
    by_cases index : a.index = i
    · exact ⟨issued_owner a inside index, s, if_pos index⟩
    · rw [if_neg index]
      exact h.issued_slot a ((issued_iff a index).1 inside)
  · rw [writes.slots]
    by_cases index : j = i
    · exact ⟨s, if_pos index⟩
    · rw [if_neg index]
      exact h.free_slot j ((free_iff j index).1 inside)
  · rw [writes.slots] at found
    rw [writes.owner]
    split at found
    · rename_i index
      cases found
      exact index ▸ slot
    · rename_i index
      exact (h.slot j t found).congr (free_iff j index) fun a same => issued_iff a (same ▸ index)

lemma owner_of_mem (h : arena.Sound issued) (given : a ∈ issued) : a.owner = arena.owner :=
  (h.issued_slot a given).1

lemma notMem_free (h : arena.Sound issued) (found : arena.get? a = some v) :
    a.index ∉ arena.free := by
  intro free
  have vacant := (h.slot _ _ (get?_eq_some_iff.1 found).2).vacant free
  cases vacant

lemma mem_issued (h : arena.Sound issued) (found : arena.get? a = some v) : a ∈ issued := by
  obtain ⟨owner, slot⟩ := get?_eq_some_iff.1 found
  have given := (h.slot _ _ slot).issued_iff.2 (h.notMem_free found)
  rwa [← owner] at given

lemma get?_eq_none (h : arena.Sound issued) (new : a ∉ issued) : arena.get? a = none :=
  Option.eq_none_iff_forall_ne_some.2 fun _ found => new (h.mem_issued found)

/-! ### Changing and taking out -/

theorem set (h : arena.Sound issued) : (arena.set a v).Sound issued := by
  cases found : arena.get? a with
  | none => rwa [set_of_none found]
  | some old =>
    have free : (arena.set a v).free = arena.free := by simp [Arena.set, found]
    have live : (arena.set a v).live = arena.live := by simp [Arena.set, found]
    have used := h.notMem_free found
    have slot := h.slot _ _ (get?_eq_some_iff.1 found).2
    refine h.of_writes (writes_set found) h.issued_nodup (fun _ _ => .rfl)
      (fun b given _ => h.owner_of_mem given) (free ▸ h.free_nodup) (fun _ _ => by rw [free]) ?_ ?_
    · rw [free]
      exact ⟨slot.issued_le, slot.issued_iff, fun inside => absurd inside used, by simp,
        slot.bounded⟩
    · rw [addresses_set, live, h.live_eq]

/-- A slot whose object is gone has gone on to a generation that was not given out, or is
retired. -/
lemma slotSound_remove (h : arena.Sound issued) (found : arena.get? a = some v) :
    SlotSound arena.owner a.index
      (⟨if a.generation < lastGeneration then a.generation + 1 else a.generation, none⟩ : Slot α)
      (a.index ∈ (arena.remove a).2.free) issued := by
  have used := h.notMem_free found
  have slot := h.slot _ _ (get?_eq_some_iff.1 found).2
  obtain ⟨bound, last⟩ := slot.bounded
  rw [free_remove found]
  dsimp only at last
  by_cases more : a.generation < lastGeneration
  · rw [if_pos more, if_pos more]
    have new : ⟨arena.owner, a.index, a.generation + 1⟩ ∉ issued := fun given =>
      absurd (slot.issued_le _ given rfl) (by simp)
    refine ⟨fun b given index => ?_, by simp [new], fun _ => rfl, by simp, bound, more⟩
    exact (slot.issued_le b given index).trans (Nat.le_succ _)
  · rw [if_neg more, if_neg more]
    have final : a.generation = lastGeneration := by omega
    exact ⟨slot.issued_le, slot.issued_iff, fun _ => rfl, fun _ _ => final, bound, last⟩

theorem remove (h : arena.Sound issued) : (arena.remove a).2.Sound issued := by
  cases found : arena.get? a with
  | none => rwa [remove_of_none found]
  | some v =>
    have used := h.notMem_free found
    have count := Set.encard_sdiff_singleton_add_one (mem_addresses.2 ⟨v, found⟩)
    refine h.of_writes (writes_remove found) h.issued_nodup (fun _ _ => .rfl)
      (fun b given _ => h.owner_of_mem given) ?_ ?_ (h.slotSound_remove found) ?_
    · rw [free_remove found]
      split
      · exact List.nodup_cons.2 ⟨used, h.free_nodup⟩
      · exact h.free_nodup
    · intro j other
      rw [free_remove found]
      split <;> simp [other]
    · rw [addresses_remove, live_remove found, ENat.natCast_sub, ← h.live_eq, ← count]
      exact (ENat.addLECancellable_of_ne_top ENat.one_ne_top).add_tsub_cancel_right.symm

/-! ### Storing -/

/-- Where an object is stored that has no address yet: in the slot that was freed last, or in a new
one. The other free slots are given. -/
inductive Place (arena : Arena α) : Address → List ℕ → Prop where
  | reused {i g : ℕ} {rest : List ℕ} (free : arena.free = i :: rest)
      (slot : arena.slots[i]? = some ⟨g, none⟩) : Place arena ⟨arena.owner, i, g⟩ rest
  | added (free : arena.free = []) (room : arena.slots.size < slotLimit) :
      Place arena ⟨arena.owner, arena.slots.size, 1⟩ []

/-- What storing an object does. -/
theorem insert_cases (h : arena.Sound issued) (v : α) :
    (∃ a free, Place arena a free ∧ (arena.insert v).1 = some a ∧
      Writes arena a.index ⟨a.generation, some v⟩ (arena.insert v).2 ∧
      (arena.insert v).2.free = free ∧ (arena.insert v).2.live = arena.live + 1) ∨
    (arena.insert v = (none, arena) ∧ arena.free = [] ∧ slotLimit ≤ arena.slots.size) := by
  cases free : arena.free with
  | cons i rest =>
    have inside : i ∈ arena.free := by simp [free]
    obtain ⟨⟨g, value⟩, slot⟩ := h.free_slot i inside
    obtain rfl : value = none := (h.slot _ _ slot).vacant inside
    have bound : i < arena.slots.size := (Array.getElem?_eq_some_iff.1 slot).1
    refine .inl ⟨_, _, .reused free slot, ?_, .of_setIfInBounds ?_ bound ?_, ?_, ?_⟩ <;>
      simp [Arena.insert, free, slot]
  | nil =>
    by_cases room : arena.slots.size < slotLimit
    · refine .inl ⟨_, _, .added free room, ?_, .of_push ?_ ?_, ?_, ?_⟩ <;>
        simp [Arena.insert, free, room]
    · exact .inr ⟨by simp [Arena.insert, free, room], rfl, by omega⟩

theorem insert_some (h : arena.Sound issued) (made : (arena.insert v).1 = some a) :
    ∃ free, Place arena a free ∧
      Writes arena a.index ⟨a.generation, some v⟩ (arena.insert v).2 ∧
      (arena.insert v).2.free = free ∧ (arena.insert v).2.live = arena.live + 1 := by
  obtain ⟨b, free, place, made', done⟩ | ⟨same, -⟩ := h.insert_cases v
  · rw [made'] at made
    cases made
    exact ⟨free, place, done⟩
  · rw [same] at made
    cases made

theorem insert_none (h : arena.Sound issued) (full : (arena.insert v).1 = none) :
    (arena.insert v).2 = arena := by
  obtain ⟨a, free, -, made, -⟩ | ⟨same, -⟩ := h.insert_cases v
  · rw [made] at full
    cases full
  · rw [same]

section Place

variable {free : List ℕ} (place : Place arena a free)
include place

lemma place_owner : a.owner = arena.owner := by
  cases place <;> rfl

lemma place_alone (index : b.index = a.index) : arena.get? b = none := by
  cases place with
  | reused _ slot =>
    subst index
    exact get?_eq_none_of_vacant slot
  | added _ _ =>
    refine Option.eq_none_iff_forall_ne_some.2 fun w found => ?_
    have slot := (get?_eq_some_iff.1 found).2
    rw [index] at slot
    simp at slot

lemma place_fresh (h : arena.Sound issued) : a ∉ issued := by
  intro given
  cases place with
  | reused free slot => exact (h.slot _ _ slot).issued_iff.1 given (by simp [free])
  | added free room =>
    obtain ⟨-, s, slot⟩ := h.issued_slot _ given
    simp at slot

lemma place_free (h : arena.Sound issued) : free.Nodup ∧ a.index ∉ free ∧
    ∀ j, j ≠ a.index → (j ∈ free ↔ j ∈ arena.free) := by
  cases place with
  | reused eq _ =>
    obtain ⟨out, nodup⟩ := List.nodup_cons.1 (eq ▸ h.free_nodup)
    exact ⟨nodup, out, fun j other => by simp [eq, other]⟩
  | added eq _ => simp [eq]

lemma slotSound_insert (h : arena.Sound issued) : SlotSound arena.owner a.index
    (⟨a.generation, some v⟩ : Slot α) (a.index ∈ free) (a :: issued) := by
  have out := (place_free place h).2.1
  have given : ⟨arena.owner, a.index, a.generation⟩ ∈ a :: issued := by
    rw [← place_owner place]
    exact List.mem_cons_self
  cases place with
  | reused _ slot =>
    have sound := h.slot _ _ slot
    refine ⟨fun b inside index => ?_, iff_of_true given out, fun inside => absurd inside out,
      by simp, sound.bounded⟩
    obtain rfl | inside := List.mem_cons.1 inside
    · exact le_rfl
    · exact sound.issued_le b inside index
  | added _ room =>
    refine ⟨fun b inside index => ?_, iff_of_true given out, fun inside => absurd inside out,
      by simp, room, show 1 ≤ lastGeneration by decide⟩
    obtain rfl | inside := List.mem_cons.1 inside
    · exact le_rfl
    · obtain ⟨-, s, slot⟩ := h.issued_slot b inside
      rw [index] at slot
      simp at slot

end Place

theorem insert_fresh (h : arena.Sound issued) (made : (arena.insert v).1 = some a) :
    a ∉ issued :=
  let ⟨_, place, _⟩ := h.insert_some made
  place_fresh place h

theorem get?_insert (h : arena.Sound issued) (made : (arena.insert v).1 = some a) :
    (arena.insert v).2.get? b = if b = a then some v else arena.get? b := by
  obtain ⟨free, place, writes, -⟩ := h.insert_some made
  exact writes.get?_of_occupied (place_owner place) fun b index _ => place_alone place index

theorem addresses_insert (h : arena.Sound issued) (made : (arena.insert v).1 = some a) :
    (arena.insert v).2.addresses = Insert.insert a arena.addresses := by
  ext b
  by_cases same : b = a <;> simp [addresses, h.get?_insert made, same]

theorem insert (h : arena.Sound issued) (made : (arena.insert v).1 = some a) :
    (arena.insert v).2.Sound (a :: issued) := by
  have fresh := h.insert_fresh made
  have new : a ∉ arena.addresses := by simp [addresses, h.get?_eq_none fresh]
  have addresses := h.addresses_insert made
  obtain ⟨free, place, writes, rfl, live⟩ := h.insert_some made
  obtain ⟨free_nodup, -, free_iff⟩ := place_free place h
  refine h.of_writes writes (List.nodup_cons.2 ⟨fresh, h.issued_nodup⟩) ?_ ?_ free_nodup free_iff
    (slotSound_insert place h) ?_
  · intro b other
    have differs : b ≠ a := fun same => other (congrArg Address.index same)
    simp [differs]
  · intro b given _
    obtain rfl | given := List.mem_cons.1 given
    · exact place_owner place
    · exact h.owner_of_mem given
  · rw [addresses, live, Set.encard_insert_of_notMem new, h.live_eq]
    rfl

end Sound

end TorrentHandle.Arena
