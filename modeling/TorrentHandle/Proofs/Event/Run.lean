import Mathlib.Data.List.Induction
import TorrentHandle.Proofs.Event.Log

/-!
Runs of a bus with its streams. A run is written down with its answers, and the record alone tells
what was published and what each stream was given. Clones of a bus share all of it, so a run names
no clone.
-/

namespace TorrentHandle

/-- A bus with the streams that were made of it. -/
structure Hub (α : Type) where
  bus : Bus α
  streams : Array (Subscription α) := #[]

namespace Hub

variable {α : Type}

/-! ### Operations and their record -/

/-- One operation on a bus, on one of its clones or on a stream. -/
inductive Op (α : Type) where
  | publish (event : α)
  | subscribe (since : Option ℕ)
  | tryNext (stream : ℕ)
  | clone
  | drop

/-- Type of the answer. An event is answered by its number, and so is a stream. -/
abbrev Op.Answer : Op α → Type
  | publish _ | subscribe _ => ℕ
  | tryNext _ => Option (Numbered α)
  | clone | drop => Unit

def step (h : Hub α) : (op : Op α) → op.Answer × Hub α
  | .publish event => ((h.bus.publish event).published, { h with bus := h.bus.publish event })
  | .subscribe since =>
    (h.streams.size, { h with streams := h.streams.push (h.bus.subscribe since) })
  | .tryNext stream =>
    match h.streams[stream]? with
    | some s =>
      ((h.bus.tryNext s).1,
        { h with streams := h.streams.setIfInBounds stream (h.bus.tryNext s).2 })
    | none => (none, h)
  | .clone => ((), { h with bus := h.bus.clone })
  | .drop => ((), { h with bus := h.bus.drop })

def run (h : Hub α) (ops : List (Op α)) : Hub α := ops.foldl (fun h op => (h.step op).2) h

/-- An operation with what it answered. -/
structure Entry (α : Type) where
  op : Op α
  answer : op.Answer

/-- The operations of a run with their answers, in order. -/
def record (h : Hub α) : List (Op α) → List (Entry α)
  | [] => []
  | op :: ops => ⟨op, (h.step op).1⟩ :: (h.step op).2.record ops

/-- The event of an entry with the number that it was given. -/
def Entry.published? : Entry α → Option (Numbered α)
  | ⟨.publish event, id⟩ => some ⟨id, event⟩
  | _ => none

def published (past : List (Entry α)) : List (Numbered α) := past.filterMap Entry.published?

/-- One reading of a stream: how many events had been published, and what was answered. -/
structure Read (α : Type) where
  published : ℕ
  answer : Option (Numbered α)

/-- The readings of a stream, in order. The number of events published before is given. -/
def reads (stream : ℕ) : ℕ → List (Entry α) → List (Read α)
  | _, [] => []
  | n, ⟨.tryNext k, answer⟩ :: past =>
    if k = stream then ⟨n, answer⟩ :: reads stream n past else reads stream n past
  | n, ⟨.publish _, _⟩ :: past => reads stream (n + 1) past
  | n, ⟨.subscribe _, _⟩ :: past | n, ⟨.clone, _⟩ :: past | n, ⟨.drop, _⟩ :: past =>
    reads stream n past

/-! ### Records of longer runs -/

variable {h : Hub α}

lemma run_concat (ops : List (Op α)) (op : Op α) :
    h.run (ops ++ [op]) = ((h.run ops).step op).2 := by
  simp [run]

lemma record_append (ops ops' : List (Op α)) :
    h.record (ops ++ ops') = h.record ops ++ (h.run ops).record ops' := by
  induction ops generalizing h with
  | nil => rfl
  | cons op ops ih => exact congrArg _ ih

lemma record_concat (ops : List (Op α)) (op : Op α) :
    h.record (ops ++ [op]) = h.record ops ++ [⟨op, ((h.run ops).step op).1⟩] :=
  record_append ops [op]

lemma published_concat (past : List (Entry α)) (entry : Entry α) :
    published (past ++ [entry]) = published past ++ entry.published?.toList := by
  rw [published, List.filterMap_append, published, List.filterMap_cons, List.filterMap_nil]
  cases entry.published? <;> rfl

lemma reads_concat (stream n : ℕ) (past : List (Entry α)) (entry : Entry α) :
    reads stream n (past ++ [entry]) =
      reads stream n past ++ reads stream (n + (published past).length) [entry] := by
  induction past generalizing n with
  | nil => rfl
  | cons first past ih =>
    obtain ⟨op, answer⟩ := first
    cases op with
    | publish event =>
      simp only [List.cons_append, reads, ih, published, List.filterMap_cons, Entry.published?,
        List.length_cons]
      congr 2
      omega
    | tryNext k =>
      simp only [List.cons_append, reads, ih, published, List.filterMap_cons, Entry.published?]
      split <;> rfl
    | _ => exact ih n

/-! ### What a run leaves -/

@[simp] lemma capacity_step (op : Op α) : (h.step op).2.bus.capacity = h.bus.capacity := by
  cases op with
  | tryNext stream =>
    simp only [step]
    split <;> rfl
  | _ => rfl

lemma log_step (op : Op α) : (h.step op).2.bus.log =
    h.bus.log ++ (Entry.published? ⟨op, (h.step op).1⟩).toList := by
  cases op with
  | publish event => simp [step, Entry.published?, Bus.log_publish]
  | tryNext stream =>
    simp only [step, Entry.published?, Option.toList_none, List.append_nil]
    split <;> rfl
  | subscribe _ | clone | drop => exact (List.append_nil _).symm

lemma published_le_step (op : Op α) : h.bus.published ≤ (h.step op).2.bus.published := by
  rw [← Bus.length_log, ← Bus.length_log, log_step, List.length_append]
  exact Nat.le_add_right _ _

lemma published_le_run (ops : List (Op α)) : h.bus.published ≤ (h.run ops).bus.published := by
  induction ops using List.reverseRecOn with
  | nil => exact le_rfl
  | append_singleton ops op ih =>
    rw [run_concat]
    exact ih.trans (published_le_step op)

lemma capacity_run (ops : List (Op α)) : (h.run ops).bus.capacity = h.bus.capacity := by
  induction ops using List.reverseRecOn with
  | nil => rfl
  | append_singleton ops op ih => rw [run_concat, capacity_step, ih]

theorem log_run (ops : List (Op α)) :
    (h.run ops).bus.log = h.bus.log ++ published (h.record ops) := by
  induction ops using List.reverseRecOn with
  | nil => simp [run, record, published]
  | append_singleton ops op ih =>
    rw [run_concat, record_concat, log_step, ih, published_concat, List.append_assoc]

end Hub

end TorrentHandle
