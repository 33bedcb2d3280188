import TorrentHandle.Proofs.Arena.Keys

/-!
Runs of an arena, with what was stored, changed and taken out written down beside it. The main
statement reads every lookup off the record: an arena is a map from the addresses that it has given
out, and it never gives out one of them again.
-/

namespace TorrentHandle.Arena

variable {α : Type}

/-! ### Operations and their record -/

/-- Looks an object up to change it. The object is answered as it was. -/
def update (arena : Arena α) (a : Address) (f : α → α) : Option α × Arena α :=
  match arena.get? a with
  | some v => (some v, arena.set a (f v))
  | none => (none, arena)

/-- One operation on an arena. -/
inductive Op (α : Type) where
  | insert (value : α)
  | get (a : Address)
  | update (a : Address) (f : α → α)
  | remove (a : Address)

/-- What is written down of an operation. -/
inductive Entry (α : Type) where
  | inserted (a : Address) (value : α)
  | updated (a : Address) (f : α → α)
  | removed (a : Address)

/-- The addresses that were given out, latest first. -/
def given : List (Entry α) → List Address
  | [] => []
  | .inserted a _ :: past => a :: given past
  | .updated .. :: past | .removed _ :: past => given past

/-- What was stored last under an address and not taken out since. The latest entry comes first. -/
def stored : List (Entry α) → Address → Option α
  | [], _ => none
  | .inserted b v :: past, a => if a = b then some v else stored past a
  | .updated b f :: past, a => if a = b then (stored past a).map f else stored past a
  | .removed b :: past, a => if a = b then none else stored past a

/-- An arena with its record, latest entry first. -/
structure Run (α : Type) where
  arena : Arena α
  past : List (Entry α) := []

namespace Run

def start (owner : ℕ) : Run α := { arena := { owner } }

/-- Does one operation. A value for which there is no room leaves no entry. -/
def step (r : Run α) : Op α → Run α
  | .insert v =>
    match r.arena.insert v with
    | (some a, arena) => ⟨arena, .inserted a v :: r.past⟩
    | (none, arena) => ⟨arena, r.past⟩
  | .get _ => r
  | .update a f => ⟨(r.arena.update a f).2, .updated a f :: r.past⟩
  | .remove a => ⟨(r.arena.remove a).2, .removed a :: r.past⟩

def steps (r : Run α) (ops : List (Op α)) : Run α := ops.foldl step r

end Run

/-! ### The record tells the arena -/

lemma update_fst {arena : Arena α} {a : Address} {f : α → α} :
    (arena.update a f).1 = arena.get? a := by
  unfold update
  cases arena.get? a <;> rfl

lemma owner_update {arena : Arena α} {a : Address} {f : α → α} :
    (arena.update a f).2.owner = arena.owner := by
  unfold update
  cases arena.get? a with
  | none => rfl
  | some v => exact owner_set

lemma get?_update {arena : Arena α} {a b : Address} {f : α → α} :
    (arena.update a f).2.get? b = if b = a then (arena.get? b).map f else arena.get? b := by
  unfold update
  cases found : arena.get? a with
  | none => by_cases same : b = a <;> simp [same, found]
  | some v =>
    rw [get?_set]
    by_cases same : b = a <;> simp [same, found]

lemma Sound.update {arena : Arena α} {issued : List Address} {a : Address} {f : α → α}
    (h : arena.Sound issued) : (arena.update a f).2.Sound issued := by
  unfold Arena.update
  cases arena.get? a with
  | none => exact h
  | some v => exact h.set

namespace Run

/-- The arena is sound beside the addresses of the record, and has what the record says. -/
structure Faithful (r : Run α) : Prop where
  sound : r.arena.Sound (given r.past)
  get?_eq : ∀ a, r.arena.get? a = stored r.past a

variable {r : Run α}

lemma step_insert {v : α} (h : r.Faithful) :
    (∃ a, (r.arena.insert v).1 = some a ∧
      r.step (.insert v) = ⟨(r.arena.insert v).2, .inserted a v :: r.past⟩) ∨
    (r.arena.insert v).1 = none ∧ r.step (.insert v) = r := by
  have full := h.sound.insert_none (v := v)
  simp only [step]
  cases eq : r.arena.insert v with
  | mk made arena =>
    rw [eq] at full
    cases made with
    | some a => exact .inl ⟨a, rfl, rfl⟩
    | none =>
      obtain rfl := full rfl
      exact .inr ⟨rfl, rfl⟩

theorem Faithful.step (h : r.Faithful) (op : Op α) : (r.step op).Faithful := by
  cases op with
  | insert v =>
    obtain ⟨a, made, eq⟩ | ⟨-, eq⟩ := step_insert (v := v) h
    · rw [eq]
      exact ⟨h.sound.insert made, fun b => by rw [h.sound.get?_insert made, h.get?_eq, stored]⟩
    · rwa [eq]
  | get a => exact h
  | update a f => exact ⟨h.sound.update, fun b => by
      rw [Run.step, get?_update, h.get?_eq, stored]⟩
  | remove a => exact ⟨h.sound.remove, fun b => by rw [Run.step, get?_remove, h.get?_eq, stored]⟩

theorem Faithful.steps (h : r.Faithful) (ops : List (Op α)) : (r.steps ops).Faithful := by
  induction ops generalizing r with
  | nil => exact h
  | cons op ops ih => exact ih (h.step op)

lemma faithful_start (owner : ℕ) : (start owner : Run α).Faithful :=
  ⟨sound_empty owner, fun _ => by simp [start, stored, get?]⟩

/-! ### An address is used once -/

/-- An address that was given out and finds nothing. -/
def Dead (r : Run α) (a : Address) : Prop := a ∈ given r.past ∧ r.arena.get? a = none

theorem Dead.step {a : Address} (dead : r.Dead a) (h : r.Faithful) (op : Op α) :
    (r.step op).Dead a := by
  obtain ⟨inside, missing⟩ := dead
  cases op with
  | insert v =>
    obtain ⟨b, made, eq⟩ | ⟨-, eq⟩ := step_insert (v := v) h
    · rw [eq]
      refine ⟨List.mem_cons_of_mem _ inside, ?_⟩
      rw [h.sound.get?_insert made, if_neg, missing]
      rintro rfl
      exact h.sound.insert_fresh made inside
    · rw [eq]
      exact ⟨inside, missing⟩
  | get b => exact ⟨inside, missing⟩
  | update b f => exact ⟨inside, by rw [Run.step, get?_update, missing]; simp⟩
  | remove b => exact ⟨inside, by rw [Run.step, get?_remove, missing]; simp⟩

theorem Dead.steps {a : Address} (dead : r.Dead a) (h : r.Faithful) (ops : List (Op α)) :
    (r.steps ops).Dead a := by
  induction ops generalizing r with
  | nil => exact dead
  | cons op ops ih => exact ih (dead.step h op) (h.step op)

@[simp] lemma owner_steps (ops : List (Op α)) : (r.steps ops).arena.owner = r.arena.owner := by
  induction ops generalizing r with
  | nil => rfl
  | cons op ops ih =>
    refine (ih (r := r.step op)).trans ?_
    cases op with
    | insert v =>
      simp only [step]
      split <;> rename_i eq <;> exact (congrArg (·.2.owner) eq).symm.trans owner_insert
    | get a => rfl
    | update a f => exact owner_update
    | remove a => exact owner_remove

end Run

/-- **An arena is a map whose keys are given out once.** After every run on a new arena: no address
was given out twice, and the next one is new too; looking up, changing and taking out answer what
was stored last under the address, if it was given out and not taken out since; taking out leaves
all other addresses as they are, and the address finds nothing ever after; and the number of objects
is that of the addresses under which something is stored. -/
theorem run_refines_map (owner : ℕ) (ops : List (Op α)) :
    let r := (Run.start owner : Run α).steps ops
    (given r.past).Nodup ∧
    (∀ v a, (r.arena.insert v).1 = some a → a ∉ given r.past) ∧
    (∀ a, stored r.past a ≠ none → a ∈ given r.past ∧ a.owner = owner) ∧
    (∀ a, r.arena.get? a = stored r.past a) ∧
    (∀ a f, (r.arena.update a f).1 = stored r.past a) ∧
    (∀ a, (r.arena.remove a).1 = stored r.past a) ∧
    (∀ a b, b ≠ a → (r.arena.remove a).2.get? b = r.arena.get? b) ∧
    (∀ a, stored r.past a ≠ none → ∀ later,
      let s := (r.step (.remove a)).steps later
      s.arena.get? a = none ∧ (s.arena.remove a).1 = none) ∧
    {a | stored r.past a ≠ none}.encard = r.arena.live := by
  intro r
  have h : r.Faithful := (Run.faithful_start owner).steps ops
  have here : ∀ a, stored r.past a ≠ none → a ∈ given r.past := by
    intro a there
    obtain ⟨v, found⟩ := Option.ne_none_iff_exists'.1 there
    exact h.sound.mem_issued ((h.get?_eq a).trans found)
  refine ⟨h.sound.issued_nodup, fun v a made => h.sound.insert_fresh made, fun a there => ?_,
    h.get?_eq, fun a f => update_fst.trans (h.get?_eq a), fun a => remove_fst.trans (h.get?_eq a),
    fun a b other => by rw [get?_remove, if_neg other], fun a there later => ?_, ?_⟩
  · refine ⟨here a there, ?_⟩
    rw [h.sound.owner_of_mem (here a there), Run.owner_steps]
    rfl
  · have gone : (r.arena.remove a).2.get? a = none := by rw [get?_remove, if_pos rfl]
    have dead : (r.step (.remove a)).Dead a := ⟨here a there, gone⟩
    have missing := (dead.steps (h.step _) later).2
    exact ⟨missing, remove_fst.trans missing⟩
  · rw [← h.sound.live_eq]
    simp [addresses, h.get?_eq]

end TorrentHandle.Arena
