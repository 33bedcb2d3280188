import TorrentHandle.Proofs.Engine.Run

/-!
Handles do not interfere. Objects share one row of slots, but an operation writes only the slot that
its address finds, and a new object goes to a slot in which none is. So whatever happens at other
addresses, an object stays as it is and answers as before; and a new object holds nothing of those
that were in its slot.
-/

namespace TorrentHandle.Engine

variable {e : Engine} {a b : Address} {h : HandleObject} {issued : List Address}

/-! ### Operations at other addresses -/

/-- The address that an operation is at. One that makes a handle is at none. -/
def Op.address? : Op → Option Address
  | destroyHandle a | call a _ | session a _ => some a
  | newHandle | addTorrent _ => none

lemma Op.edit_of_apart {op : Op} (apart : op.address? ≠ some b) (defaults : List Tracker)
    (h : HandleObject) : op.edit defaults b h = h := by
  cases op with
  | call a c => exact if_neg fun here : b = a => apart (congrArg some here.symm)
  | session a c => exact if_neg fun here : b = a => apart (congrArg some here.symm)
  | newHandle | destroyHandle _ | addTorrent _ => rfl

theorem get?_run_of_apart (sound : e.objects.Sound issued) (found : e.objects.get? b = some h)
    {ops : List Op} (apart : ∀ op ∈ ops, op.address? ≠ some b) :
    (e.run ops).objects.get? b = some h := by
  have kept : ∀ op ∈ ops, op ≠ .destroyHandle b := by
    rintro _ inside rfl
    exact apart _ inside rfl
  rw [get?_run_of_some sound found kept]
  refine congrArg some (List.foldlRecOn (motive := (· = h)) ops _ rfl fun h' same op inside => ?_)
  rw [Op.edit_of_apart (apart op inside), same]

/-! ### New objects -/

/-- The handle has nothing yet. -/
structure IsFresh (e : Engine) (a : Address) : Prop where
  id : (e.call a .id).1 = .ok 0
  infoView : (e.call a .infoView).1 = .ok none
  isValid : (e.call a .isValid).1 = .ok false
  state : (e.call a .state).1 = .error .notAttached

lemma isFresh_newHandle (sound : e.objects.Sound issued) (made : e.newHandle.1 = .ok a) :
    e.newHandle.2.IsFresh a := by
  obtain ⟨b, made', inserted, eq⟩ | ⟨⟨err, full⟩, -⟩ := newHandle_cases sound
  · obtain rfl : b = a := Except.ok.inj (made'.symm.trans made)
    have found : e.newHandle.2.objects.get? b = some {} := by
      rw [eq]
      exact (sound.get?_insert inserted).trans (if_pos rfl)
    constructor <;> rw [call_eq_attempt]
    · exact congrArg Prod.fst (attempt_of_ok (f := Call.id.transition) found rfl)
    · exact congrArg Prod.fst (attempt_of_ok (f := Call.infoView.transition) found rfl)
    · exact congrArg Prod.fst (attempt_of_ok (f := Call.isValid.transition) found rfl)
    · simp [attempt, apply, found, Call.attempt, Call.check, Call.transition, Transition.query,
        HandleObject.requireTorrent, bind, Except.bind, Except.map]
  · rw [full] at made
    cases made

/-! ### Handles do not interfere -/

/-- **Handles do not interfere.** A live handle stays live through any operations at other
addresses, successful or not, the making of handles included, and answers every call as it would
have before. A handle that is made has nothing, whatever was in its slot. -/
theorem handles_apart (owner : ℕ) (settings : EngineSettings) (bus : Bus Event)
    (ops later : List Op) (b : Address) (live : Live ((create owner settings bus).record ops) b)
    (apart : ∀ op ∈ later, op.address? ≠ some b) :
    let e := (create owner settings bus).run ops
    Live ((create owner settings bus).record (ops ++ later)) b ∧
      (∀ c, ((e.run later).call b c).1 = (e.call b c).1) ∧
      (∀ c, ((e.run later).session b c).1 = (e.session b c).1) ∧
      ∀ a, e.newHandle.1 = .ok a → e.newHandle.2.IsFresh a := by
  intro e
  obtain ⟨issued, told⟩ := told_run owner settings bus ops
  obtain ⟨issued', told'⟩ := told_run owner settings bus (ops ++ later)
  obtain ⟨h, found⟩ := Arena.mem_addresses.1 ((told.live b).2 live)
  have found' := get?_run_of_apart told.sound found apart
  have same : (e.run later).objects.get? b = e.objects.get? b := found'.trans found.symm
  have settings' : (e.run later).settings = e.settings := by
    rw [← run_append, (frame_run owner settings bus (ops ++ later)).1,
      (frame_run owner settings bus ops).1]
  rw [← run_append] at found'
  exact ⟨(told'.live b).1 (Arena.mem_addresses.2 ⟨h, found'⟩), call_fst_congr same,
    session_fst_congr same settings', fun a made => isFresh_newHandle told.sound made⟩

theorem two_handles_apart :
    let start := create 1 {} ⟨1, by decide, #[], 1⟩
    let ops := [.addTorrent (.ofMetadata .sample), .newHandle, .call ⟨1, 1, 1⟩ (.setId 7)]
    let later := [.destroyHandle ⟨1, 1, 1⟩, .newHandle, .session ⟨1, 1, 1⟩ .pause,
      .addTorrent (.ofMetadata { Metadata.sample with pieceCount := 4 })]
    let e := start.run ops
    Live (start.record ops) ⟨1, 0, 1⟩ ∧ (∀ op ∈ later, op.address? ≠ some ⟨1, 0, 1⟩) ∧
      Live (start.record (ops ++ later)) ⟨1, 0, 1⟩ ∧
      (∀ c, ((e.run later).call ⟨1, 0, 1⟩ c).1 = (e.call ⟨1, 0, 1⟩ c).1) ∧
      (∀ c, ((e.run later).session ⟨1, 0, 1⟩ c).1 = (e.session ⟨1, 0, 1⟩ c).1) ∧
      ∀ a, e.newHandle.1 = .ok a → e.newHandle.2.IsFresh a := by
  intro start ops later e
  have live : Live (start.record ops) ⟨1, 0, 1⟩ := by decide +kernel
  have apart : ∀ op ∈ later, op.address? ≠ some ⟨1, 0, 1⟩ := by decide
  exact ⟨live, apart, handles_apart 1 {} ⟨1, by decide, #[], 1⟩ ops later _ live apart⟩

end TorrentHandle.Engine
