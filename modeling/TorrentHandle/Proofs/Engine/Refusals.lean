import TorrentHandle.Proofs.Engine.InPlace
import TorrentHandle.Proofs.Engine.Stale

/-!
Operations that are refused. Checks come before writes (`Call.makes_inPlace` and
`SessionCall.makes_inPlace` say so of each call), so a refused operation leaves the engine as it was,
with every slot of its arena. One operation takes a slot first: a handle with a torrent is made
before the torrent is looked at. If the torrent is rejected the slot is given back, and all that
stays of it is a dead address.
-/

namespace TorrentHandle

variable {α : Type}

/-! ### Calls that only look -/

/-- Calls that answer something about the handle and do no more. -/
def Call.isQuery : Call → Bool
  | id | infoView | isValid | state | makeMagnetUri => true
  | _ => false

/-- Calls that publish a report and do no more. -/
def Call.isPost : Call → Bool
  | postStatusUpdates | postSaveResume | postFileProgress => true
  | _ => false

/-- Calls of a session that answer something about the torrent and do no more. -/
def SessionCall.isQuery : SessionCall → Bool
  | pieceDeadlines | trackers | filePriorities | peerEndgame | isPaused => true
  | _ => false

namespace Transition

variable {f : Transition α}

/-- The object stays as it is. -/
def Keeps (f : Transition α) : Prop := ∀ ⦃h effect⦄, f h = .ok effect → effect.object = h

def Silent (f : Transition α) : Prop := ∀ ⦃h effect⦄, f h = .ok effect → effect.event = none

lemma keeps_query (g : Torrent → α) : (query g).Keeps := fun _ _ done => by
  obtain ⟨t, -, rfl⟩ := query_eq_ok.1 done
  rfl

lemma silent_query (g : Torrent → α) : (query g).Silent := fun _ _ done => by
  obtain ⟨t, -, rfl⟩ := query_eq_ok.1 done
  rfl

end Transition

lemma Call.keeps_of_isPost {c : Call} (post : c.isPost) : c.transition.Keeps := by
  cases c with
  | postStatusUpdates | postSaveResume | postFileProgress => rintro h effect ⟨⟩; rfl
  | _ => cases post

lemma Call.keeps_of_isQuery {c : Call} (query : c.isQuery) :
    c.transition.Keeps ∧ c.transition.Silent := by
  cases c with
  | state | makeMagnetUri => exact ⟨Transition.keeps_query _, Transition.silent_query _⟩
  | id | infoView | isValid => constructor <;> rintro h effect ⟨⟩ <;> rfl
  | _ => cases query

namespace Engine

variable {e : Engine} {a : Address} {missing : Except NativeError α} {f : Transition α}

lemma attempt_ok_cases (e : Engine) (a : Address) (missing : Except NativeError α)
    (f : Transition α) : (e.attempt a missing (.ok f)).2 = e ∨
      ∃ h effect, e.objects.get? a = some h ∧ f h = .ok effect ∧
        (e.attempt a missing (.ok f)).2 =
          { e with objects := e.objects.set a effect.object, bus := e.bus.publish? effect.event } := by
  unfold attempt apply
  cases found : e.objects.get? a with
  | none => exact .inl rfl
  | some h =>
    cases result : f h with
    | error err => exact .inl (by simp [result])
    | ok effect => exact .inr ⟨h, effect, rfl, result, by simp [result]⟩

lemma objects_attempt (keeps : f.Keeps) :
    (e.attempt a missing (.ok f)).2.objects = e.objects := by
  obtain same | ⟨h, effect, found, done, eq⟩ := e.attempt_ok_cases a missing f
  · rw [same]
  · rw [eq, keeps done, Arena.set_self found]

lemma attempt_same (keeps : f.Keeps) (silent : f.Silent) :
    (e.attempt a missing (.ok f)).2 = e := by
  obtain same | ⟨h, effect, found, done, eq⟩ := e.attempt_ok_cases a missing f
  · exact same
  · rw [eq, keeps done, silent done, Arena.set_self found]
    rfl

theorem call_of_isQuery {c : Call} (query : c.isQuery) : (e.call a c).2 = e := by
  have passed : c.attempt = .ok c.transition := by
    cases c with
    | addTracker tracker => cases query
    | _ => rfl
  obtain ⟨keeps, silent⟩ := Call.keeps_of_isQuery query
  rw [call_eq_attempt, passed]
  exact attempt_same keeps silent

theorem objects_call_of_isPost {c : Call} (post : c.isPost) :
    (e.call a c).2.objects = e.objects := by
  have passed : c.attempt = .ok c.transition := by
    cases c with
    | addTracker tracker => cases post
    | _ => rfl
  rw [call_eq_attempt, passed]
  exact objects_attempt (Call.keeps_of_isPost post)

theorem session_of_isQuery {c : SessionCall} (query : c.isQuery) : (e.session a c).2 = e := by
  rw [session_eq_attempt]
  cases c with
  | pieceDeadlines | trackers | filePriorities | peerEndgame | isPaused =>
    exact attempt_same (Transition.keeps_query _) (Transition.silent_query _)
  | _ => cases query

/-! ### Operations that are refused -/

def Record.isRefused : Record → Bool
  | ⟨.newHandle, .error _⟩ | ⟨.destroyHandle _, .error _⟩ | ⟨.call .., .error _⟩
  | ⟨.session .., .error _⟩ | ⟨.addTorrent _, .error _⟩ => true
  | _ => false

section Refused

variable {issued : List Address} (h : e.objects.Sound issued)
include h

/-- Operations that write at one place look before they write. -/
lemma act_of_refused {op : Op} (refused : Record.isRefused ⟨op, (e.act op).1⟩)
    (other : ∀ params, op ≠ .addTorrent params) : (e.act op).2 = e := by
  cases op with
  | newHandle =>
    obtain ⟨a, answer, -⟩ | ⟨-, same⟩ := newHandle_cases h
    · simp [act, answer, Record.isRefused] at refused
    · exact same
  | destroyHandle a =>
    obtain ⟨-, eq⟩ | ⟨-, eq⟩ := e.destroyHandle_cases a
    · simp [act, eq, Record.isRefused] at refused
    · exact congrArg Prod.snd eq
  | call a c =>
    cases answer : (e.act (.call a c)).1 with
    | ok reply => simp [answer, Record.isRefused] at refused
    | error err =>
      have answer : (e.call a c).1 = .error err := answer
      rw [call_eq_attempt] at answer
      exact (congrArg Prod.snd (call_eq_attempt c)).trans (attempt_of_refused answer)
  | session a c =>
    cases answer : (e.act (.session a c)).1 with
    | ok reply => simp [answer, Record.isRefused] at refused
    | error err =>
      have answer : (e.session a c).1 = .error err := answer
      rw [session_eq_attempt] at answer
      exact (congrArg Prod.snd (session_eq_attempt c)).trans (attempt_of_refused answer)
  | addTorrent params => exact absurd rfl (other params)

/-- A slot that is taken for a new object and given back shows in no count. -/
lemma destroy_inserted {a : Address} (made : (e.objects.insert {}).1 = some a) :
    ({ e with objects := (e.objects.insert {}).2 }.destroyHandle a).2.handleCount = e.handleCount ∧
      ({ e with objects := (e.objects.insert {}).2 }.destroyHandle a).2.bus = e.bus := by
  obtain ⟨free, -, -, -, live⟩ := h.insert_some made
  have found := h.get?_insert (b := a) made
  rw [if_pos rfl] at found
  obtain ⟨-, eq⟩ | ⟨dead, -⟩ :=
    { e with objects := (e.objects.insert {}).2 }.destroyHandle_cases a
  · rw [eq]
    refine ⟨?_, rfl⟩
    rw [handleCount, Arena.live_remove found, live, Nat.add_sub_cancel, handleCount]
  · exact absurd (Arena.mem_addresses.2 ⟨_, found⟩) dead

end Refused

/-- On the way from one engine to the other an address was taken and given up: it is dead now, and
all else answers as before. -/
structure GivesUp (e : Engine) (a : Address) (e' : Engine) : Prop where
  handleCount : e'.handleCount = e.handleCount
  bus : e'.bus = e.bus
  call : ∀ b c, (e'.call b c).1 = (e.call b c).1
  session : ∀ b c, (e'.session b c).1 = (e.session b c).1
  refuses : e'.Refuses a

/-- What is left of an engine by the making of a handle with a torrent that was refused. -/
def Survives (e e' : Engine) : Prop := e' = e ∨ ∃ a, e.newHandle.1 = .ok a ∧ e.GivesUp a e'

lemma survives_addTorrent {issued : List Address} (h : e.objects.Sound issued)
    {params : TorrentParams} {err : NativeError}
    (refused : (e.addTorrent params).1 = .error err) : e.Survives (e.addTorrent params).2 := by
  have acts := acts_addTorrent h params
  rw [refused] at acts
  obtain ⟨err', full, eq⟩ | ⟨a, made, ⟨-, eq⟩ | ⟨err', rejected, eq⟩⟩ := e.addTorrent_cases params
  · left
    obtain ⟨b, made, -⟩ | ⟨-, same⟩ := newHandle_cases h
    · rw [full] at made
      cases made
    · rw [eq, same]
  · rw [eq] at refused
    cases refused
  · right
    obtain ⟨b, made', inserted, taken⟩ | ⟨⟨err', full⟩, -⟩ := newHandle_cases h
    · obtain rfl : b = a := Except.ok.inj (made'.symm.trans made)
      rw [session_eq_attempt] at rejected eq
      rw [attempt_of_refused rejected] at eq
      obtain ⟨count, bus⟩ := destroy_inserted h inserted
      rw [taken] at eq
      have dead := h.get?_eq_none (h.insert_fresh inserted)
      refine ⟨b, made, ?_, ?_, fun b c => call_fst_congr (acts.get? b) c,
        fun b c => session_fst_congr (acts.get? b) acts.settings c,
        refuses_of_none ((acts.get? b).trans dead)⟩
      · rw [eq, count]
      · rw [eq, bus]
    · rw [full] at made
      cases made

/-- A proxy with a torrent is refused iff its engine refuses the torrent, and the engine is the only
one that changes. -/
lemma start_of_refused {host : Host} {i : ℕ} {params : TorrentParams} {err : HandleError}
    (here : host.engines[i]? = some e) (refused : (Proxy.start i params host).1 = .error err) :
    (∃ err', (e.addTorrent params).1 = .error err' ∧ err = err'.during "start") ∧
      (Proxy.start i params host).2 =
        { host with engines := host.engines.setIfInBounds i (e.addTorrent params).2 } := by
  have added : host.addTorrent i params = ((e.addTorrent params).1,
      { host with engines := host.engines.setIfInBounds i (e.addTorrent params).2 }) := by
    simp [Host.addTorrent, Host.onEngine, here]
  unfold Proxy.start at *
  rw [added] at refused ⊢
  cases answer : (e.addTorrent params).1 with
  | ok a =>
    rw [answer] at refused
    cases refused
  | error err' =>
    rw [answer] at refused
    cases refused
    exact ⟨⟨err', rfl, rfl⟩, rfl⟩

/-- **A refused operation changes nothing.** After any operations, one that is refused leaves the
engine as it is, in its arena and on its bus; only the making of a handle with a torrent, also
through a proxy, may leave a dead address behind. Queries change nothing when they succeed, and
reports change no object. All this holds too where the writes are done one by one and those of an
operation that fails are kept. -/
theorem refused_changes_nothing (owner : ℕ) (settings : EngineSettings) (bus : Bus Event)
    (ops : List Op) :
    let e := (create owner settings bus).run ops
    (∀ op, Record.isRefused ⟨op, (e.act op).1⟩ → (∀ params, op ≠ .addTorrent params) →
      (e.act op).2 = e) ∧
    (∀ params err, (e.addTorrent params).1 = .error err → e.Survives (e.addTorrent params).2) ∧
    (∀ params (host : Host) (i : ℕ) err, host.engines[i]? = some e →
      (Proxy.start i params host).1 = .error err → ∃ e', e.Survives e' ∧
        (Proxy.start i params host).2 =
          { host with engines := host.engines.setIfInBounds i e' }) ∧
    (∀ a c, c.isQuery → (e.call a c).2 = e) ∧
    (∀ a c, c.isPost → (e.call a c).2.objects = e.objects) ∧
    (∀ a c, c.isQuery → (e.session a c).2 = e) ∧
    (∀ op, e.actInPlace op = e.act op) := by
  intro e
  obtain ⟨issued, told⟩ := told_run owner settings bus ops
  have survives : ∀ params err, (e.addTorrent params).1 = .error err →
      e.Survives (e.addTorrent params).2 := fun _ _ => survives_addTorrent told.sound
  refine ⟨fun op refused other => act_of_refused told.sound refused other, survives, ?_,
    fun a c query => call_of_isQuery query, fun a c post => objects_call_of_isPost post,
    fun a c query => session_of_isQuery query, actInPlace_eq⟩
  intro params host i err here refused
  obtain ⟨⟨err', rejected, -⟩, eq⟩ := start_of_refused here refused
  exact ⟨_, survives params err' rejected, eq⟩

theorem broken_torrent_refused :
    let e := (create 1 {} ⟨1, by decide, #[], 1⟩).run [.newHandle, .destroyHandle ⟨1, 0, 1⟩]
    let broken := TorrentParams.ofMetadata { Metadata.sample with pieceCount := 4 }
    e.newHandle.1 = .ok ⟨1, 0, 2⟩ ∧
      (e.addTorrent broken).1 =
        .error (.invalidInput "metadata" "file table does not match piece geometry") ∧
      (e.addTorrent broken).2 ≠ e ∧ e.Survives (e.addTorrent broken).2 := by
  intro e broken
  have rejected : (e.addTorrent broken).1 =
      .error (.invalidInput "metadata" "file table does not match piece geometry") := by decide
  have given : e.newHandle.1 = .ok ⟨1, 0, 2⟩ := by decide
  refine ⟨given, rejected, fun same => ?_,
    (refused_changes_nothing 1 {} ⟨1, by decide, #[], 1⟩ _).2.1 broken _ rejected⟩
  have next : (e.addTorrent broken).2.newHandle.1 = .ok ⟨1, 0, 3⟩ := by decide
  rw [same, given] at next
  cases next

end Engine

end TorrentHandle
