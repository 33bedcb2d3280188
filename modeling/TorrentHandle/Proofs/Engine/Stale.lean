import TorrentHandle.Ownership.Proxy
import TorrentHandle.Proofs.Engine.Hosts

/-!
Dead addresses. Where no object lives, every operation is refused and changes nothing. The address
is what an operation complains of, but for two that look at an argument first: a tracker without a
URL and metadata that does not fit are told even there.
-/

namespace TorrentHandle

open TorrentHandle.Text

variable {a : Address}

/-! ### Arguments that are looked at first -/

/-- Adds a tracker without a URL. -/
def Call.hasBlankUrl : Call → Bool
  | addTracker tracker => isBlankText tracker.url
  | _ => false

/-- Attaches a torrent with metadata that does not fit together. -/
def SessionCall.hasBrokenMetadata : SessionCall → Bool
  | startDownload params => params.metadata.any fun m => !m.isConsistent
  | _ => false

/-- Why a call is refused where no object lives. -/
def Call.refusal (c : Call) : NativeError :=
  if c.hasBlankUrl then .invalidInput "url" "tracker url must not be empty" else .staleAddress

/-- Why a call of a session is refused where no object lives. -/
def SessionCall.refusal (c : SessionCall) : NativeError :=
  if c.hasBrokenMetadata then
    .invalidInput "metadata" "file table does not match piece geometry"
  else .staleAddress

lemma Call.check_eq (c : Call) :
    c.check = if c.hasBlankUrl then .error c.refusal else .ok () := by
  cases c with
  | addTracker tracker =>
    cases blank : isBlankText tracker.url <;> simp [check, refusal, hasBlankUrl, blank]
  | _ => rfl

lemma Call.missing_eq {c : Call} (other : c ≠ .isValid) : c.missing = .error .staleAddress := by
  cases c with
  | isValid => exact absurd rfl other
  | _ => rfl

lemma Torrent.ofParams_eq_error {params : TorrentParams}
    (broken : (SessionCall.startDownload params).hasBrokenMetadata) :
    ofParams params = .error (SessionCall.startDownload params).refusal := by
  unfold SessionCall.refusal
  rw [if_pos broken]
  simp only [SessionCall.hasBrokenMetadata, Option.any_eq_true] at broken
  obtain ⟨m, given, broken⟩ := broken
  simp_all [ofParams, setMetadata]

lemma Torrent.exists_ofParams {params : TorrentParams}
    (fits : (SessionCall.startDownload params).hasBrokenMetadata = false) :
    ∃ t, ofParams params = .ok t := by
  simp only [SessionCall.hasBrokenMetadata, Option.any_eq_false] at fits
  unfold ofParams
  cases given : params.metadata with
  | none => exact ⟨_, rfl⟩
  | some m =>
    have consistent : m.isConsistent := by simpa using fits m given
    exact ⟨_, if_pos consistent⟩

lemma SessionCall.transition_eq_error {c : SessionCall} (defaults : List Tracker)
    (broken : c.hasBrokenMetadata) : c.transition defaults = .error c.refusal := by
  cases c with
  | startDownload params =>
    simp only [transition, Torrent.ofParams_eq_error broken]
    rfl
  | _ => cases broken

lemma SessionCall.exists_transition {c : SessionCall} (defaults : List Tracker)
    (fits : c.hasBrokenMetadata = false) : ∃ f, c.transition defaults = .ok f := by
  cases c with
  | startDownload params =>
    obtain ⟨t, made⟩ := Torrent.exists_ofParams fits
    simp only [transition, made]
    exact ⟨_, rfl⟩
  | _ => exact ⟨_, rfl⟩

/-! ### Refusals -/

namespace Engine

variable {e : Engine}

/-- Every operation at the address is refused, and the engine stays as it is. -/
structure Refuses (e : Engine) (a : Address) : Prop where
  destroyHandle : e.destroyHandle a = (.error .staleAddress, e)
  isValid : e.call a .isValid = (.ok false, e)
  call : ∀ c, c ≠ .isValid → e.call a c = (.error c.refusal, e)
  session : ∀ c, e.session a c = (.error c.refusal, e)

lemma call_of_none (dead : e.objects.get? a = none) {c : Call} (other : c ≠ .isValid) :
    e.call a c = (.error c.refusal, e) := by
  rw [call_eq_attempt, attempt_of_none dead, Call.attempt, c.check_eq]
  cases blank : c.hasBlankUrl with
  | true => rfl
  | false =>
    rw [Call.missing_eq other]
    simp [Except.map, Call.refusal, blank]

lemma session_of_none (dead : e.objects.get? a = none) (c : SessionCall) :
    e.session a c = (.error c.refusal, e) := by
  rw [session_eq_attempt, attempt_of_none dead]
  cases broken : c.hasBrokenMetadata with
  | true => rw [c.transition_eq_error _ broken]
  | false =>
    obtain ⟨f, passed⟩ := c.exists_transition e.defaultTrackers broken
    rw [passed]
    simp [SessionCall.refusal, broken]

theorem refuses_of_none (dead : e.objects.get? a = none) : e.Refuses a where
  destroyHandle := by
    obtain ⟨live, -⟩ | ⟨-, eq⟩ := e.destroyHandle_cases a
    · exact absurd dead live
    · exact eq
  isValid := by rw [call_eq_attempt, attempt_of_none dead]; rfl
  call _ other := call_of_none dead other
  session := session_of_none dead

end Engine

/-! ### Proxies -/

/-- Every call of a proxy at the address is refused by name, and the host stays as it is. -/
structure Proxy.Refuses (p : Proxy) (h : Host) : Prop where
  isValid : p.forward .isValid h = (.ok false, h)
  reload : p.reload h = (.error (.staleAddress "reload_file"), h)
  forward : ∀ c, c ≠ .isValid → p.forward c h = (.error (c.refusal.during c.operation), h)

lemma Host.onEngine_same {α : Type} {h : Host} {i : ℕ} {e : Engine} {missing answer : α}
    {f : Engine → α × Engine} (here : h.engines[i]? = some e) (same : f e = (answer, e)) :
    h.onEngine i missing f = (answer, h) := by
  simp [onEngine, here, same, Arena.setIfInBounds_self here]

lemma Host.call_same {h : Host} {i : ℕ} {e : Engine} {c : Call}
    {answer : Except NativeError c.Reply} (here : h.engines[i]? = some e)
    (same : e.call a c = (answer, e)) : h.call a c (.engine i) = (answer, h) :=
  onEngine_same (f := (·.call a c)) here same

theorem Proxy.refuses_of_engine {h : Host} {i : ℕ} {e : Engine} (here : h.engines[i]? = some e)
    (refuses : e.Refuses a) : (Proxy.wrap (.engine i) a).Refuses h := by
  have forward : ∀ c, c ≠ Call.isValid → (Proxy.wrap (.engine i) a).forward c h =
      (.error (c.refusal.during c.operation), h) := by
    intro c other
    simp only [Proxy.forward, wrap, Host.call_same here (refuses.call c other)]
    rfl
  refine ⟨?_, ?_, forward⟩
  · simp only [Proxy.forward, wrap, Host.call_same here refuses.isValid]
    rfl
  · rw [reload, forward .reloadFile (by decide)]
    rfl

/-! ### Dead addresses -/

namespace Engine

lemma not_live_of_owner {owner : ℕ} (other : a.owner ≠ owner) (settings : EngineSettings)
    (bus : Bus Event) (ops : List Op) : ¬ Live ((create owner settings bus).record ops) a := by
  obtain ⟨issued, told⟩ := told_run owner settings bus ops
  rw [← told.live]
  intro live
  obtain ⟨v, found⟩ := Arena.mem_addresses.1 live
  have mine := (Arena.get?_eq_some_iff.1 found).1
  exact other (mine.trans (frame_run owner settings bus ops).2)

/-- **Dead addresses are refused everywhere.** After any operations, at an address that another
engine made, that was never made here or whose object has been destroyed, the engine refuses every
operation and so does every proxy that wraps the address; the refusal tells a stale address unless a
tracker has no URL or metadata does not fit together. -/
theorem dead_address_refused (owner : ℕ) (settings : EngineSettings) (bus : Bus Event)
    (ops : List Op) (a : Address)
    (dead : a.owner ≠ owner ∨ ¬ Live ((create owner settings bus).record ops) a) :
    ((create owner settings bus).run ops).Refuses a ∧
      ∀ (h : Host) (i : ℕ), h.engines[i]? = some ((create owner settings bus).run ops) →
        (Proxy.wrap (.engine i) a).Refuses h := by
  have dead := dead.elim (fun other => not_live_of_owner other settings bus ops) id
  obtain ⟨issued, told⟩ := told_run owner settings bus ops
  rw [← told.live] at dead
  have refuses := refuses_of_none (not_not.1 dead)
  exact ⟨refuses, fun h i here => Proxy.refuses_of_engine here refuses⟩

theorem reused_address_refused :
    let e := create 1 {} ⟨1, by decide, #[], 1⟩
    let ops := [.newHandle, .destroyHandle ⟨1, 0, 1⟩, .newHandle]
    ¬ Live (e.record ops) ⟨1, 0, 1⟩ ∧ (e.run ops).Refuses ⟨1, 0, 1⟩ ∧
      ∀ (h : Host) (i : ℕ), h.engines[i]? = some (e.run ops) →
        (Proxy.wrap (.engine i) ⟨1, 0, 1⟩).Refuses h :=
  have dead : ¬ Live ((create 1 {} ⟨1, by decide, #[], 1⟩).record
      [.newHandle, .destroyHandle ⟨1, 0, 1⟩, .newHandle]) ⟨1, 0, 1⟩ := by decide
  ⟨dead, dead_address_refused 1 {} ⟨1, by decide, #[], 1⟩ _ _ (.inr dead)⟩

/-- The address of a destroyed object is not always what the engine complains of. -/
theorem dead_address_told_late :
    let e := create 1 {} ⟨1, by decide, #[], 1⟩
    let ops := [.newHandle, .destroyHandle ⟨1, 0, 1⟩]
    let broken := { Metadata.sample with pieceCount := 4 }
    ¬ Live (e.record ops) ⟨1, 0, 1⟩ ∧
      ((e.run ops).call ⟨1, 0, 1⟩ (.addTracker ⟨"", 0, 0⟩)).1 =
        .error (.invalidInput "url" "tracker url must not be empty") ∧
      ((e.run ops).session ⟨1, 0, 1⟩ (.startDownload (.ofMetadata broken))).1 =
        .error (.invalidInput "metadata" "file table does not match piece geometry") := by
  refine ⟨by decide, ?_, ?_⟩ <;> decide

end Engine

end TorrentHandle
