import TorrentHandle.Engine.Host
import TorrentHandle.Proofs.Engine.Run

/-!
Engines side by side. In a host that has only engines, an operation on one of them opens a handle
object, closes one, or keeps the live ones as they are; the others do not notice. A call arrives at
its engine also through a recorder or a stub.
-/

namespace TorrentHandle

namespace Host

open Engine

variable {h h' h'' : Host} {i : ℕ} {a : Address} {e : Engine}

/-- There are only engines, all sound and each with an owner of its own. -/
structure Sound (h : Host) : Prop where
  recorders : h.recorders = #[]
  stubs : h.stubs = #[]
  engine : ∀ i e, h.engines[i]? = some e →
    e.objects.owner = i + 1 ∧ ∃ issued, e.objects.Sound issued

/-- An object lives at the address in an engine. -/
def Live (h : Host) (i : ℕ) (a : Address) : Prop :=
  ∃ e, h.engines[i]? = some e ∧ a ∈ e.objects.addresses

lemma Sound.owner_of_live (sound : h.Sound) (live : h.Live i a) : a.owner = i + 1 := by
  obtain ⟨e, here, inside⟩ := live
  obtain ⟨owner, -⟩ := sound.engine i e here
  obtain ⟨v, found⟩ := Arena.mem_addresses.1 inside
  exact (Arena.get?_eq_some_iff.1 found).1.trans owner

lemma live_iff (here : h.engines[i]? = some e) : h.Live i a ↔ a ∈ e.objects.addresses := by
  unfold Live
  simp [here]

/-! ### Ways to change -/

/-- The live objects stay. -/
structure Keeps (h h' : Host) : Prop where
  sound : h'.Sound
  live : ∀ j b, h'.Live j b ↔ h.Live j b

structure Opens (h : Host) (i : ℕ) (a : Address) (h' : Host) : Prop where
  sound : h'.Sound
  fresh : ¬ h.Live i a
  live : ∀ j b, h'.Live j b ↔ j = i ∧ b = a ∨ h.Live j b

structure Closes (h : Host) (i : ℕ) (a : Address) (h' : Host) : Prop where
  sound : h'.Sound
  live : ∀ j b, h'.Live j b ↔ h.Live j b ∧ ¬ (j = i ∧ b = a)

lemma Sound.keeps (sound : h.Sound) : h.Keeps h := ⟨sound, fun _ _ => .rfl⟩

/-! ### Operations on an engine -/

/-- What an operation on an engine comes to, told by its answer. -/
structure Acts (h : Host) (i : ℕ) (r : Record) (h' : Host) : Prop where
  sound : h'.Sound
  fresh : ∀ a, r.made? = some a → ¬ h.Live i a
  live : ∀ j b, h'.Live j b ↔
    j = i ∧ r.made? = some b ∨ h.Live j b ∧ ¬ (j = i ∧ r.destroyed? = some b)

lemma getElem?_set (here : h.engines[i]? = some e) (e' : Engine) (j : ℕ) :
    (h.engines.setIfInBounds i e')[j]? = if j = i then some e' else h.engines[j]? := by
  obtain ⟨below, -⟩ := Array.getElem?_eq_some_iff.1 here
  rw [Array.getElem?_setIfInBounds]
  grind

theorem Sound.act (sound : h.Sound) (i : ℕ) (op : Op) (missing : op.Answer)
    (made : Record.made? ⟨op, missing⟩ = none)
    (destroyed : Record.destroyed? ⟨op, missing⟩ = none) :
    h.Acts i ⟨op, (h.onEngine i missing (·.act op)).1⟩ (h.onEngine i missing (·.act op)).2 := by
  unfold onEngine
  cases here : h.engines[i]? with
  | none => exact ⟨sound, by simp [made], by simp [made, destroyed]⟩
  | some e =>
    obtain ⟨owner, issued, arena⟩ := sound.engine i e here
    have acts := acts_act arena op
    have addresses := mem_addresses_act arena op
    obtain ⟨issued', -, arena', new⟩ := acts.sound
    refine ⟨⟨sound.recorders, sound.stubs, fun j e' there => ?_⟩, fun a made => ?_, fun j b => ?_⟩
    · dsimp only at there
      rw [getElem?_set here] at there
      split at there
      · rename_i same
        cases there
        exact ⟨by rw [acts.owner, owner, same], issued', arena'⟩
      · exact sound.engine j e' there
    · rw [live_iff here]
      intro inside
      obtain ⟨v, found⟩ := Arena.mem_addresses.1 inside
      exact (new a made).2 (arena.mem_issued found)
    · by_cases same : j = i
      · subst same
        rw [live_iff here, live_iff ((getElem?_set here _ j).trans (if_pos rfl)), addresses]
        simp
      · unfold Live
        simp only [getElem?_set here, if_neg same]
        simp [same]

namespace Acts

variable {r : Record} (acts : h.Acts i r h')
include acts

lemma keeps (made : r.made? = none) (destroyed : r.destroyed? = none) : h.Keeps h' :=
  ⟨acts.sound, fun j b => by simpa [made, destroyed] using acts.live j b⟩

lemma opens (made : r.made? = some a) (destroyed : r.destroyed? = none) : h.Opens i a h' :=
  ⟨acts.sound, acts.fresh a made, fun j b => by
    simpa [made, destroyed, eq_comm (a := a)] using acts.live j b⟩

lemma closes (made : r.made? = none) (destroyed : r.destroyed? = some a) : h.Closes i a h' :=
  ⟨acts.sound, fun j b => by simpa [made, destroyed, eq_comm (a := a)] using acts.live j b⟩

end Acts

namespace Sound

variable (sound : h.Sound)
include sound

lemma call_keeps (a : Address) (c : Call) (endpoint : Endpoint) :
    h.Keeps (h.call a c endpoint).2 := by
  cases endpoint with
  | engine i => exact (sound.act i (.call a c) c.missing rfl rfl).keeps rfl rfl
  | recorder i => simpa [call, onRecorder, sound.recorders] using sound.keeps
  | stub i => simpa [call, onStub, sound.stubs] using sound.keeps

lemma session_keeps (i : ℕ) (a : Address) (c : SessionCall) : h.Keeps (h.session i a c).2 :=
  (sound.act i (.session a c) (.error .staleAddress) rfl rfl).keeps rfl rfl

lemma newHandle_cases (endpoint : Endpoint) :
    (∃ i a, endpoint = .engine i ∧ (h.newHandle endpoint).1 = .ok a ∧
      h.Opens i a (h.newHandle endpoint).2) ∨
    (∃ err, (h.newHandle endpoint).1 = .error err) ∧ h.Keeps (h.newHandle endpoint).2 := by
  cases endpoint with
  | engine i =>
    have acts : h.Acts i ⟨.newHandle, (h.newHandle (.engine i)).1⟩ (h.newHandle (.engine i)).2 :=
      sound.act i .newHandle (.error .staleAddress) rfl rfl
    cases answer : (h.newHandle (.engine i)).1 with
    | ok a =>
      rw [answer] at acts
      exact .inl ⟨i, a, rfl, rfl, acts.opens rfl rfl⟩
    | error err =>
      rw [answer] at acts
      exact .inr ⟨⟨err, rfl⟩, acts.keeps rfl rfl⟩
  | recorder i => exact .inr (by simpa [newHandle, onRecorder, sound.recorders] using sound.keeps)
  | stub i => exact .inr (by simpa [newHandle, onStub, sound.stubs] using sound.keeps)

lemma addTorrent_cases (i : ℕ) (params : TorrentParams) :
    (∃ a, (h.addTorrent i params).1 = .ok a ∧ h.Opens i a (h.addTorrent i params).2) ∨
    (∃ err, (h.addTorrent i params).1 = .error err) ∧ h.Keeps (h.addTorrent i params).2 := by
  have acts : h.Acts i ⟨.addTorrent params, (h.addTorrent i params).1⟩ (h.addTorrent i params).2 :=
    sound.act i (.addTorrent params) (.error .staleAddress) rfl rfl
  cases answer : (h.addTorrent i params).1 with
  | ok a =>
    rw [answer] at acts
    exact .inl ⟨a, rfl, acts.opens rfl rfl⟩
  | error err =>
    rw [answer] at acts
    exact .inr ⟨⟨err, rfl⟩, acts.keeps rfl rfl⟩

lemma destroyHandle_closes (live : h.Live i a) : (h.destroyHandle a (.engine i)).1 = .ok () ∧
    h.Closes i a (h.destroyHandle a (.engine i)).2 := by
  have acts : h.Acts i ⟨.destroyHandle a, (h.destroyHandle a (.engine i)).1⟩
      (h.destroyHandle a (.engine i)).2 :=
    sound.act i (.destroyHandle a) (.error .staleAddress) rfl rfl
  obtain ⟨e, here, inside⟩ := live
  have answer : (h.destroyHandle a (.engine i)).1 = .ok () := by
    obtain ⟨-, eq⟩ | ⟨dead, -⟩ := e.destroyHandle_cases a
    · simp [destroyHandle, onEngine, here, eq]
    · exact absurd inside dead
  rw [answer] at acts
  exact ⟨answer, acts.closes rfl rfl⟩

end Sound

/-! ### Fresh hosts -/

/-- A host with engines that have no objects yet. -/
def ofEngines (specs : List (EngineSettings × Bus Event)) : Host :=
  specs.foldl (fun h spec => h.addEngine spec.1 spec.2) {}

lemma fresh_ofEngines (specs : List (EngineSettings × Bus Event)) :
    (ofEngines specs).Sound ∧ ∀ i a, ¬ (ofEngines specs).Live i a := by
  refine List.foldlRecOn (motive := fun h : Host => h.Sound ∧ ∀ i a, ¬ h.Live i a) specs _
    ⟨⟨rfl, rfl, by simp⟩, by simp [Live]⟩ ?_
  rintro h ⟨sound, empty⟩ ⟨settings, bus⟩ -
  have getElem? : ∀ i, (h.addEngine settings bus).engines[i]? =
      if i = h.engines.size then some (create (i + 1) settings bus) else h.engines[i]? := by
    intro i
    simp only [addEngine, Array.getElem?_push]
    split <;> simp_all
  refine ⟨⟨sound.recorders, sound.stubs, fun i e here => ?_⟩, ?_⟩
  · rw [getElem?] at here
    split at here
    · cases here
      exact ⟨rfl, [], Arena.sound_empty _⟩
    · exact sound.engine i e here
  · rintro i a ⟨e, here, inside⟩
    rw [getElem?] at here
    split at here
    · cases here
      simp [create, Arena.addresses, Arena.get?] at inside
    · exact empty i a ⟨e, here, inside⟩

end Host

/-! ### Calls that arrive -/

section Arrive

variable {h : Host} {endpoint : Endpoint} {engine : ℕ} {a : Address} {e : Engine}

/-- The engine that carries out what is called at an endpoint; none where calls are refused. -/
def Host.target? (h : Host) : Endpoint → Option ℕ
  | .engine i => some i
  | .recorder i => h.recorders[i]?.map Prod.fst
  | .stub i => (h.stubs[i]?.filter fun stub => stub.2.failure.isNone).map Prod.fst

/-- A stub without failure passes everything on but what a reload answers. -/
lemma Stub.call_eq {s : Stub} {c : Call} (works : s.failure = none) (plain : c ≠ .reloadFile) :
    s.call e a c = e.call a c := by
  have same : s.substitute c = id := by
    cases c <;> first | rfl | contradiction
  unfold Stub.call Stub.guard
  rw [works, same]
  split
  · rfl
  · dsimp only
    rcases e.call a c with ⟨_ | _, _⟩ <;> rfl

/-- A call is carried out by the engine that the endpoint leads to, and it still leads there. -/
lemma Host.call_of_target {c : Call} (plain : c ≠ .reloadFile ∨ ∀ i, endpoint ≠ .stub i)
    (target : h.target? endpoint = some engine) (here : h.engines[engine]? = some e) :
    (h.call a c endpoint).1 = (e.call a c).1 ∧
      (h.call a c endpoint).2.engines = h.engines.setIfInBounds engine (e.call a c).2 ∧
      (h.call a c endpoint).2.target? endpoint = some engine := by
  cases endpoint with
  | engine i =>
    obtain rfl : i = engine := Option.some.inj target
    simp [Host.call, Host.onEngine, here, Host.target?]
  | recorder i =>
    obtain ⟨⟨_, j⟩, there, rfl⟩ := Option.map_eq_some_iff.1 target
    obtain ⟨below, -⟩ := Array.getElem?_eq_some_iff.1 there
    simp only [Host.call, Host.onRecorder, there, here, Journal.call, true_and]
    simp [Host.target?, below]
  | stub i =>
    obtain ⟨⟨_, s⟩, kept, rfl⟩ := Option.map_eq_some_iff.1 target
    obtain ⟨there, works⟩ := Option.filter_eq_some_iff.1 kept
    have passed : s.call e a c = e.call a c :=
      Stub.call_eq (Option.isNone_iff_eq_none.1 works)
        (plain.resolve_right fun other => other i rfl)
    simp only [Host.call, Host.onStub, there, Host.onEngine, here, passed, true_and]
    exact target

end Arrive

end TorrentHandle
