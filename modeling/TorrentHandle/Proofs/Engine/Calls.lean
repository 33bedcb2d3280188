import TorrentHandle.Proofs.Engine.Hosts

/-!
Calls at the endpoints of a host. What is done to the engines of a host comes as a list of calls,
and the recorders write down those that go through them.
-/

namespace TorrentHandle

/-! ### Calls at endpoints -/

/-- One call at an endpoint, or by the owner of an engine. -/
inductive NativeCall where
  | newHandle (endpoint : Endpoint)
  | destroyHandle (endpoint : Endpoint) (a : Address)
  | call (endpoint : Endpoint) (a : Address) (c : Call)
  | session (engine : ℕ) (a : Address) (c : SessionCall)

/-- The address that is given to `destroy_handle`. -/
def NativeCall.destroyed? : NativeCall → Option Address
  | destroyHandle _ a => some a
  | _ => none

namespace Host

variable {h : Host} {i r : ℕ}

def perform (h : Host) : NativeCall → Host
  | .newHandle endpoint => (h.newHandle endpoint).2
  | .destroyHandle endpoint a => (h.destroyHandle a endpoint).2
  | .call endpoint a c => (h.call a c endpoint).2
  | .session engine a c => (h.session engine a c).2

def performAll (h : Host) (cs : List NativeCall) : Host := cs.foldl perform h

lemma performAll_append (h : Host) (cs cs' : List NativeCall) :
    h.performAll (cs ++ cs') = (h.performAll cs).performAll cs' := List.foldl_append

/-- The calls that the making of a handle with a torrent comes to. A token has the handle until
the torrent is attached, so it is destroyed if the torrent is rejected. -/
def addCalls (h : Host) (engine : ℕ) (params : TorrentParams) : List NativeCall :=
  .newHandle (.engine engine) ::
    match h.newHandle (.engine engine) with
    | (.error _, _) => []
    | (.ok a, h) => .session engine a (.startDownload params) ::
      match h.session engine a (.startDownload params) with
      | (.ok (), _) => []
      | (.error _, _) => [.destroyHandle (.engine engine) a]

def withEngine (h : Host) (i : ℕ) (e : Engine) : Host :=
  { h with engines := h.engines.setIfInBounds i e }

lemma engine_withEngine {e : Engine} (here : h.engines[i]? = some e) (e' : Engine) :
    (h.withEngine i e').engines[i]? = some e' :=
  (getElem?_set here e' i).trans (if_pos rfl)

lemma withEngine_withEngine (e e' : Engine) :
    (h.withEngine i e).withEngine i e' = h.withEngine i e' := by
  simp [withEngine]

lemma onEngine_of_some {α : Type} {e : Engine} (here : h.engines[i]? = some e) (missing : α)
    (f : Engine → α × Engine) :
    h.onEngine i missing f = ((f e).1, h.withEngine i (f e).2) := by
  simp [onEngine, here, withEngine]

lemma onEngine_withEngine {α : Type} {e : Engine} (here : h.engines[i]? = some e) (e' : Engine)
    (missing : α) (f : Engine → α × Engine) :
    (h.withEngine i e').onEngine i missing f = ((f e').1, h.withEngine i (f e').2) := by
  rw [onEngine_of_some (engine_withEngine here e'), withEngine_withEngine]

/-- How the making of a handle with a torrent goes, as calls and with its answer. -/
lemma addTorrent_cases (h : Host) (i : ℕ) (params : TorrentParams) :
    (h.addTorrent i params).2 = h.performAll (h.addCalls i params) ∧
      ((∃ err, (h.addTorrent i params).1 = .error err) ∧
          h.addCalls i params = [.newHandle (.engine i)] ∨
        ∃ a, (h.newHandle (.engine i)).1 = .ok a ∧
          ((h.addTorrent i params).1 = .ok a ∧ h.addCalls i params =
              [.newHandle (.engine i), .session i a (.startDownload params)] ∨
            (∃ err, (h.addTorrent i params).1 = .error err) ∧ h.addCalls i params =
              [.newHandle (.engine i), .session i a (.startDownload params),
                .destroyHandle (.engine i) a])) := by
  cases here : h.engines[i]? with
  | none => simp [addTorrent, addCalls, performAll, perform, newHandle, onEngine, here]
  | some e =>
    have added : h.addTorrent i params =
        ((e.addTorrent params).1, h.withEngine i (e.addTorrent params).2) :=
      onEngine_of_some here _ _
    have made : h.newHandle (.engine i) = (e.newHandle.1, h.withEngine i e.newHandle.2) :=
      onEngine_of_some here _ _
    have attached : ∀ a c, (h.withEngine i e.newHandle.2).session i a c =
        ((e.newHandle.2.session a c).1, h.withEngine i (e.newHandle.2.session a c).2) :=
      fun a c => onEngine_withEngine here _ _ _
    have destroyed : ∀ a e', ((h.withEngine i e').destroyHandle a (.engine i)).2 =
        h.withEngine i (e'.destroyHandle a).2 :=
      fun a e' => congrArg Prod.snd (onEngine_withEngine here _ _ _)
    rw [added]
    obtain ⟨err, full, eq⟩ | ⟨a, answer, ⟨accepted, eq⟩ | ⟨err, rejected, eq⟩⟩ :=
      e.addTorrent_cases params
    · simp [eq, addCalls, performAll, perform, made, full]
    · simp [eq, addCalls, performAll, perform, made, answer, attached, accepted]
    · simp [eq, addCalls, performAll, perform, made, answer, attached, rejected, destroyed]

lemma addTorrent_host (h : Host) (i : ℕ) (params : TorrentParams) :
    (h.addTorrent i params).2 = h.performAll (h.addCalls i params) :=
  (h.addTorrent_cases i params).1

end Host

/-! ### What recorders write down -/

/-- Operations and addresses that are written down. -/
def Journal.entries (j : Journal) : List (String × Address) :=
  j.calls.toList.map fun entry => (entry.operation, entry.address)

lemma Journal.entries_record (j : Journal) (operation : String) (a : Address) :
    (j.record operation a).entries = j.entries ++ [(operation, a)] := by
  simp [entries, record]

lemma Journal.entries_newHandle (j : Journal) (e : Engine) : (j.newHandle e).2.1.entries =
    j.entries ++ ((j.newHandle e).1.toOption.map ("new_handle", ·)).toList := by
  unfold newHandle
  cases e.newHandle with
  | mk result e' =>
    cases result with
    | error err => simp [Except.toOption]
    | ok a => exact j.entries_record "new_handle" a

namespace Host

variable {h : Host} {i r : ℕ}

/-- What a recorder writes down of a call. -/
def written (h : Host) (r : ℕ) : NativeCall → List (String × Address)
  | .newHandle (.recorder i) =>
    if i = r then ((h.newHandle (.recorder i)).1.toOption.map ("new_handle", ·)).toList else []
  | .destroyHandle (.recorder i) a => if i = r then [("destroy_handle", a)] else []
  | .call (.recorder i) a c => if i = r then [(c.operation, a)] else []
  | _ => []

def log (h : Host) (r : ℕ) : List NativeCall → List (String × Address)
  | [] => []
  | c :: cs => h.written r c ++ (h.perform c).log r cs

/-- The recorder is there, and its engine too. -/
def Records (h : Host) (r : ℕ) : Prop :=
  ∃ engine j, h.recorders[r]? = some (engine, j) ∧ engine < h.engines.size

section Recorder

variable {α : Type} (missing : α)

/-- Where a call is passed on, nothing is written down elsewhere, and no recorder goes. -/
structure Passes (h : Host) (r : ℕ) (h' : Host) : Prop where
  journal : h'.journal r = h.journal r
  records : h.Records r → h'.Records r

lemma passes_onEngine (f : Engine → α × Engine) : h.Passes r (h.onEngine i missing f).2 := by
  unfold onEngine
  split
  · exact ⟨rfl, id⟩
  · exact ⟨rfl, fun ⟨engine, j, there, below⟩ => ⟨engine, j, there, by simpa using below⟩⟩

lemma passes_onStub (f : Stub → Engine → α × Engine) : h.Passes r (h.onStub i missing f).2 := by
  unfold onStub
  split
  · exact ⟨rfl, id⟩
  · exact passes_onEngine _ _

lemma passes_onRecorder (other : i ≠ r) (f : Journal → Engine → α × Journal × Engine) :
    h.Passes r (h.onRecorder i missing f).2 := by
  unfold onRecorder
  split
  · exact ⟨rfl, id⟩
  · split
    · exact ⟨rfl, id⟩
    · refine ⟨by simp [journal, other], fun ⟨engine, j, there, below⟩ => ⟨engine, j, ?_, ?_⟩⟩
      · simpa [other] using there
      · simpa using below

lemma onRecorder_of_records (records : h.Records r)
    (f : Journal → Engine → α × Journal × Engine) : ∃ e,
      (h.onRecorder r missing f).1 = (f (h.journal r) e).1 ∧
      (h.onRecorder r missing f).2.journal r = (f (h.journal r) e).2.1 ∧
      (h.onRecorder r missing f).2.Records r := by
  obtain ⟨engine, j, there, below⟩ := records
  obtain ⟨inside, -⟩ := Array.getElem?_eq_some_iff.1 there
  have here : h.engines[engine]? = some h.engines[engine] := Array.getElem?_eq_getElem below
  have mine : h.journal r = j := by simp only [journal, there]
  rw [mine]
  simp only [onRecorder, there, here]
  refine ⟨h.engines[engine], rfl, ?_, engine, (f j h.engines[engine]).2.1, ?_, ?_⟩
  · simp [journal, inside]
  · simp [inside]
  · simpa using below

/-- What goes through a recorder is written down there, and nowhere else. -/
lemma entries_onRecorder (records : h.Records r) {f : Journal → Engine → α × Journal × Engine}
    (new : α → List (String × Address))
    (writes : ∀ j e, (f j e).2.1.entries = j.entries ++ new (f j e).1) :
    ((h.onRecorder i missing f).2.journal r).entries =
        (h.journal r).entries ++ (if i = r then new (h.onRecorder i missing f).1 else []) ∧
      (h.onRecorder i missing f).2.Records r := by
  by_cases here : i = r
  · subst here
    obtain ⟨e, answer, journal, kept⟩ := onRecorder_of_records missing records f
    rw [if_pos rfl, journal, answer]
    exact ⟨writes _ _, kept⟩
  · have passes := passes_onRecorder (h := h) missing here f
    rw [if_neg here, List.append_nil, passes.journal]
    exact ⟨rfl, passes.records records⟩

end Recorder

/-- A recorder writes down the calls that go through it, and no others. -/
lemma entries_perform (records : h.Records r) (c : NativeCall) :
    ((h.perform c).journal r).entries = (h.journal r).entries ++ h.written r c ∧
      (h.perform c).Records r := by
  have elsewhere : ∀ {h' : Host}, h.Passes r h' →
      (h'.journal r).entries = (h.journal r).entries ++ [] ∧ h'.Records r := by
    intro h' passes
    rw [passes.journal, List.append_nil]
    exact ⟨rfl, passes.records records⟩
  cases c with
  | newHandle endpoint =>
    cases endpoint with
    | engine i => exact elsewhere (passes_onEngine _ _)
    | stub i => exact elsewhere (passes_onStub _ _)
    | recorder i =>
      exact entries_onRecorder _ records
        (fun result : Except NativeError Address =>
          (result.toOption.map ("new_handle", ·)).toList) Journal.entries_newHandle
  | destroyHandle endpoint a =>
    cases endpoint with
    | engine i => exact elsewhere (passes_onEngine _ _)
    | stub i => exact elsewhere (passes_onStub _ _)
    | recorder i =>
      exact entries_onRecorder _ records (fun _ => [("destroy_handle", a)])
        fun j e => j.entries_record "destroy_handle" a
  | call endpoint a c =>
    cases endpoint with
    | engine i => exact elsewhere (passes_onEngine _ _)
    | stub i => exact elsewhere (passes_onStub _ _)
    | recorder i =>
      exact entries_onRecorder _ records (fun _ => [(c.operation, a)])
        fun j e => j.entries_record c.operation a
  | session engine a c => exact elsewhere (passes_onEngine _ _)

theorem entries_performAll (records : h.Records r) (cs : List NativeCall) :
    ((h.performAll cs).journal r).entries = (h.journal r).entries ++ h.log r cs ∧
      (h.performAll cs).Records r := by
  induction cs generalizing h with
  | nil => exact ⟨(List.append_nil _).symm, records⟩
  | cons c cs ih =>
    obtain ⟨first, kept⟩ := entries_perform records c
    obtain ⟨rest, kept⟩ := ih kept
    refine ⟨?_, kept⟩
    change (((h.perform c).performAll cs).journal r).entries = _
    rw [rest, first, List.append_assoc]
    rfl

end Host

end TorrentHandle
