import TorrentHandle.Proofs.Engine.Calls

/-!
Addresses that the engines of a host give out. Whatever calls there are, every engine goes on by
operations of its own, so an address that is made is one that was never given out before.
-/

namespace TorrentHandle

/-! ### Addresses given out -/

lemma Journal.newHandle_engine (j : Journal) (e : Engine) :
    (j.newHandle e).2.2 = e.newHandle.2 := by
  unfold newHandle
  cases e.newHandle with
  | mk result e' => cases result <;> rfl

lemma Journal.newHandle_fst (j : Journal) (e : Engine) :
    (j.newHandle e).1 = e.newHandle.1 := by
  unfold newHandle
  cases e.newHandle with
  | mk result e' => cases result <;> rfl

/-- A stub either lets the engine do something or leaves it. -/
lemma Stub.guard_run {α : Type} (s : Stub) (e : Engine)
    {f : Engine → Except NativeError α × Engine} (op : Engine.Op) (acts : (f e).2 = (e.act op).2) :
    ∃ ops, (s.guard e f).2 = e.run ops := by
  unfold guard
  split
  · exact ⟨[], rfl⟩
  · exact ⟨[op], acts⟩

namespace Host

variable {h h' : Host} {given : List Address} {a : Address}

/-- Every engine has an owner of its own, and has issued those of the addresses that carry it. -/
def Given (h : Host) (given : List Address) : Prop :=
  ∀ i e, h.engines[i]? = some e → e.objects.owner = i + 1 ∧
    ∃ issued, e.objects.Sound issued ∧ ∀ a ∈ given, a.owner = i + 1 → a ∈ issued

/-- Every engine has gone on from what it was. -/
def Evolves (h h' : Host) : Prop :=
  ∀ (i : ℕ) (e' : Engine), h'.engines[i]? = some e' →
    ∃ (e : Engine) (ops : List Engine.Op), h.engines[i]? = some e ∧ e' = e.run ops

lemma Evolves.refl (h : Host) : h.Evolves h := fun _ e here => ⟨e, [], here, rfl⟩

lemma Evolves.trans {h'' : Host} (first : h.Evolves h') (second : h'.Evolves h'') :
    h.Evolves h'' := by
  intro i e'' there
  obtain ⟨e', ops', there', rfl⟩ := second i e'' there
  obtain ⟨e, ops, here, rfl⟩ := first i e' there'
  exact ⟨e, ops ++ ops', here, (e.run_append ops ops').symm⟩

lemma evolves_of_set {i : ℕ} {e : Engine} (here : h.engines[i]? = some e) (ops : List Engine.Op)
    (engines : h'.engines = h.engines.setIfInBounds i (e.run ops)) : h.Evolves h' := by
  intro j e' there
  rw [engines, getElem?_set here] at there
  split at there
  · rename_i same
    cases there
    exact ⟨e, ops, same ▸ here, rfl⟩
  · exact Evolves.refl h j e' there

section Evolves

variable {α : Type} (missing : α) (i : ℕ)

lemma evolves_onEngine {f : Engine → α × Engine} (goes : ∀ e, ∃ ops, (f e).2 = e.run ops) :
    h.Evolves (h.onEngine i missing f).2 := by
  unfold onEngine
  split
  · exact .refl h
  · rename_i e here
    obtain ⟨ops, eq⟩ := goes e
    exact evolves_of_set here ops (congrArg (h.engines.setIfInBounds i) eq)

lemma evolves_onRecorder {f : Journal → Engine → α × Journal × Engine}
    (goes : ∀ j e, ∃ ops, (f j e).2.2 = e.run ops) : h.Evolves (h.onRecorder i missing f).2 := by
  unfold onRecorder
  split
  · exact .refl h
  · rename_i engine j there
    split
    · exact .refl h
    · rename_i e here
      obtain ⟨ops, eq⟩ := goes j e
      exact evolves_of_set here ops (congrArg (h.engines.setIfInBounds engine) eq)

lemma evolves_onStub {f : Stub → Engine → α × Engine}
    (goes : ∀ s e, ∃ ops, (f s e).2 = e.run ops) : h.Evolves (h.onStub i missing f).2 := by
  unfold onStub
  split
  · exact .refl h
  · exact evolves_onEngine _ _ (goes _)

end Evolves

lemma evolves_perform (h : Host) (c : NativeCall) : h.Evolves (h.perform c) := by
  cases c with
  | newHandle endpoint =>
    cases endpoint with
    | engine i => exact evolves_onEngine _ i fun e => ⟨[.newHandle], rfl⟩
    | recorder i =>
      exact evolves_onRecorder _ i fun j e => ⟨[.newHandle], j.newHandle_engine e⟩
    | stub i =>
      exact evolves_onStub _ i fun s e => s.guard_run e .newHandle rfl
  | destroyHandle endpoint a =>
    cases endpoint with
    | engine i => exact evolves_onEngine _ i fun e => ⟨[.destroyHandle a], rfl⟩
    | recorder i => exact evolves_onRecorder _ i fun j e => ⟨[.destroyHandle a], rfl⟩
    | stub i =>
      exact evolves_onStub _ i fun s e => s.guard_run e (.destroyHandle a) rfl
  | call endpoint a c =>
    cases endpoint with
    | engine i => exact evolves_onEngine _ i fun e => ⟨[.call a c], rfl⟩
    | recorder i => exact evolves_onRecorder _ i fun j e => ⟨[.call a c], rfl⟩
    | stub i =>
      refine evolves_onStub _ i fun s e => ?_
      unfold Stub.call
      split
      · exact ⟨[.call a c], rfl⟩
      · exact s.guard_run e (.call a c) rfl
  | session engine a c => exact evolves_onEngine _ engine fun e => ⟨[.session a c], rfl⟩

lemma evolves_performAll (h : Host) (cs : List NativeCall) : h.Evolves (h.performAll cs) := by
  induction cs generalizing h with
  | nil => exact .refl h
  | cons c cs ih => exact (h.evolves_perform c).trans (ih (h.perform c))

lemma Given.evolves (sound : h.Given given) (evolves : h.Evolves h') : h'.Given given := by
  intro i e' there
  obtain ⟨e, ops, here, rfl⟩ := evolves i e' there
  obtain ⟨owner, issued, arena, carries⟩ := sound i e here
  obtain ⟨issued', sub, arena', same⟩ := Engine.sound_run arena ops
  exact ⟨same.trans owner, issued', arena', fun a inside mine => sub (carries a inside mine)⟩

lemma newHandle_eq_ok {endpoint : Endpoint} (made : (h.newHandle endpoint).1 = .ok a) :
    ∃ (i : ℕ) (e : Engine), h.engines[i]? = some e ∧ e.newHandle.1 = .ok a ∧
      (h.newHandle endpoint).2.engines = h.engines.setIfInBounds i e.newHandle.2 := by
  cases endpoint with
  | engine i =>
    simp only [newHandle, onEngine] at made ⊢
    cases here : h.engines[i]? with
    | none => simp [here] at made
    | some e =>
      simp only [here] at made ⊢
      exact ⟨i, e, here, made, rfl⟩
  | recorder i =>
    simp only [newHandle, onRecorder] at made ⊢
    cases there : h.recorders[i]? with
    | none => simp [there] at made
    | some recorder =>
      obtain ⟨engine, j⟩ := recorder
      simp only [there] at made ⊢
      cases here : h.engines[engine]? with
      | none => simp [here] at made
      | some e =>
        simp only [here, j.newHandle_fst, j.newHandle_engine] at made ⊢
        exact ⟨engine, e, here, made, rfl⟩
  | stub i =>
    simp only [newHandle, onStub] at made ⊢
    cases there : h.stubs[i]? with
    | none => simp [there] at made
    | some stub =>
      obtain ⟨engine, s⟩ := stub
      simp only [there, onEngine, Stub.guard] at made ⊢
      cases here : h.engines[engine]? with
      | none => simp [here] at made
      | some e =>
        simp only [here] at made ⊢
        cases works : s.failure with
        | some err => simp [works] at made
        | none =>
          simp only [works] at made ⊢
          exact ⟨engine, e, here, made, rfl⟩

/-- An address that is made is new, and given out from then on. -/
lemma Given.newHandle (sound : h.Given given) {endpoint : Endpoint}
    (made : (h.newHandle endpoint).1 = .ok a) :
    a ∉ given ∧ (h.newHandle endpoint).2.Given (a :: given) := by
  obtain ⟨i, e, here, made, engines⟩ := newHandle_eq_ok made
  obtain ⟨owner, issued, arena, carries⟩ := sound i e here
  have acts := Engine.acts_newHandle arena
  obtain ⟨issued', sub, arena', new⟩ := acts.sound
  rw [made] at new
  obtain ⟨inside, fresh⟩ := new a rfl
  have mine : a.owner = i + 1 := by
    rw [arena'.owner_of_mem inside, acts.owner, owner]
  refine ⟨fun old => fresh (carries a old mine), fun j e' there => ?_⟩
  rw [engines, getElem?_set here] at there
  split at there
  · rename_i same
    cases there
    refine ⟨by rw [acts.owner, owner, same], issued', arena', fun b old other => ?_⟩
    obtain rfl | old := List.mem_cons.1 old
    · exact inside
    · exact sub (carries b old (same ▸ other))
  · rename_i apart
    obtain ⟨owner', issued'', arena'', carries'⟩ := sound j e' there
    refine ⟨owner', issued'', arena'', fun b old other => ?_⟩
    obtain rfl | old := List.mem_cons.1 old
    · omega
    · exact carries' b old other

lemma Given.made (sound : h.Given given) {endpoint : Endpoint} {cs : List NativeCall}
    (made : (h.newHandle endpoint).1 = .ok a)
    (after : h' = (h.newHandle endpoint).2.performAll cs) : a ∉ given ∧ h'.Given (a :: given) := by
  obtain ⟨fresh, issued⟩ := sound.newHandle made
  rw [after]
  exact ⟨fresh, issued.evolves (evolves_performAll _ cs)⟩

end Host

end TorrentHandle
