import TorrentHandle.Ownership.Proxy
import TorrentHandle.Proofs.Engine.Hosts
import TorrentHandle.Proofs.Engine.Torrents

/-!
Views over runs of an engine. A reload copies the metadata into the handle, and what is there is
from then on the handle's own: nothing that happens to the torrent touches it. It goes when a
torrent is attached, so what a handle shows is told by its reloads since then.
-/

namespace TorrentHandle

variable {a : Address} {h : HandleObject}

/-! ### Reloads -/

def HandleObject.outcome (h : HandleObject) : ReloadOutcome :=
  match h.torrent with
  | none => .nullHandle
  | some t =>
    match t.metadata with
    | none => .nullFile
    | some _ => .success

/-- The outcome tells whether there is a torrent, and whether it has metadata. -/
lemma HandleObject.outcome_tells (h : HandleObject) :
    (h.outcome = .nullHandle ↔ h.torrent = none) ∧
      (h.outcome = .nullFile ↔ ∃ t, h.torrent = some t ∧ t.metadata = none) ∧
      (h.outcome = .success ↔ ∃ t m, h.torrent = some t ∧ t.metadata = some m) := by
  unfold outcome
  cases h.torrent with
  | none => simp
  | some t => cases known : t.metadata <;> simp [known]

lemma HandleObject.isSome_metadata? :
    h.metadata?.isSome ↔ ∃ t m, h.torrent = some t ∧ t.metadata = some m := by
  unfold metadata?
  cases h.torrent with
  | none => simp
  | some t => simp [Option.isSome_iff_exists]

lemma ReloadOutcome.code_injective : Function.Injective code := by
  intro o o' same
  cases o <;> cases o' <;> first | rfl | cases same

lemma ReloadOutcome.ofCode_code (o : ReloadOutcome) : ofCode o.code = .ok o := by
  cases o <;> rfl

lemma Call.reply_reload : (Call.reload h).reply = h.outcome.code := by
  unfold reload HandleObject.outcome
  cases h.torrent with
  | none => rfl
  | some t => cases known : t.metadata <;> simp [known]

namespace Engine

variable {e : Engine}

lemma infoView_of_some (found : e.objects.get? a = some h) :
    (e.call a .infoView).1 = .ok h.view := by
  rw [call_eq_attempt]
  exact congrArg Prod.fst (attempt_of_ok (f := Call.infoView.transition) found rfl)

lemma reloadFile_of_some (found : e.objects.get? a = some h) :
    (e.call a .reloadFile).1 = .ok h.outcome.code := by
  rw [call_eq_attempt, ← Call.reply_reload]
  exact congrArg Prod.fst (attempt_of_ok (f := Call.reloadFile.transition) found rfl)

lemma reloadFile_eq_ok {n : Int32} : (e.call a .reloadFile).1 = .ok n ↔
    ∃ h, e.objects.get? a = some h ∧ n = h.outcome.code := by
  cases found : e.objects.get? a with
  | none =>
    rw [call_eq_attempt, attempt_of_none found]
    simp [Call.attempt, Call.check, Except.map, Call.missing]
  | some h => simp [reloadFile_of_some found, eq_comm]

end Engine

/-! ### Views over runs -/

namespace Engine

/-- The metadata that the torrent at an address has. -/
def metadata? (e : Engine) (a : Address) : Option Metadata :=
  (e.objects.get? a).bind (·.metadata?)

namespace Record

/-- A torrent was attached at the address. -/
def starts (a : Address) : Record → Prop
  | ⟨.session b (.startDownload _), answer⟩ => b = a ∧ answer = .ok ()
  | _ => False

/-- The handle was made, or got a torrent. -/
def renews (a : Address) (r : Record) : Prop := r.made? = some a ∨ r.starts a

/-- The metadata was copied into the handle. -/
def reloads (a : Address) : Record → Prop
  | ⟨.call b .reloadFile, answer⟩ => b = a ∧ answer = .ok ReloadOutcome.success.code
  | _ => False

lemma not_reloads_of_renews {r : Record} (renews : r.renews a) : ¬ r.reloads a := by
  obtain ⟨op, answer⟩ := r
  cases op with
  | call b c =>
    obtain made | starts := renews
    · cases made
    · cases starts
  | _ => exact id

end Record

section Step

variable {e : Engine} {issued : List Address} {op : Op} {h' : HandleObject}

lemma view_of_renews (sound : e.objects.Sound issued)
    (found : (e.act op).2.objects.get? a = some h')
    (renews : Record.renews a ⟨op, (e.act op).1⟩) : h'.view = none := by
  rcases get?_act_cases sound found with ⟨h, before, rfl⟩ | rfl | ⟨params, rfl⟩
  · rcases renews with made | starts
    · obtain ⟨_, -, -, new⟩ := (acts_act sound op).sound
      exact absurd (sound.mem_issued before) (new a made).2
    · cases op with
      | session b c =>
        cases c with
        | startDownload params =>
          obtain ⟨rfl, answer⟩ := starts
          obtain ⟨detached, attached⟩ := (startDownload_eq_ok before).1 answer
          simp only [Op.edit, if_true]
          rw [leave_session, detached]
          exact if_pos ⟨rfl, attached⟩
        | _ => cases starts
      | _ => cases starts
  · rfl
  · rw [leave_session]
    split <;> rfl

lemma reloads_iff (found : e.objects.get? a = some h) :
    Record.reloads a ⟨.call a .reloadFile, (e.act (.call a .reloadFile)).1⟩ ↔
      h.metadata?.isSome := by
  rw [act, reloadFile_of_some found, HandleObject.isSome_metadata?, ← h.outcome_tells.2.2]
  change a = a ∧ Except.ok _ = Except.ok _ ↔ _
  rw [and_iff_right rfl, Except.ok.injEq, ReloadOutcome.code_injective.eq_iff]

lemma view_leave_call (found : e.objects.get? a = some h) (c : Call) :
    Record.reloads a ⟨.call a c, (e.act (.call a c)).1⟩ ∧ h.metadata?.isSome ∧
        (leave c.attempt h).view = h.metadata? ∨
      ¬ Record.reloads a ⟨.call a c, (e.act (.call a c)).1⟩ ∧
        (leave c.attempt h).view = h.view := by
  rw [leave_call]
  cases c with
  | reloadFile =>
    have answer := reloads_iff found
    cases known : h.metadata? with
    | none => exact .inr ⟨by simpa [known] using answer, by simp [Call.look, known]⟩
    | some m => exact .inl ⟨by simpa [known] using answer, by simp [Call.look, known]⟩
  | _ => exact .inr ⟨id, rfl⟩

lemma view_leave_session {c : SessionCall} (found : e.objects.get? a = some h)
    (old : ¬ Record.starts a ⟨.session a c, (e.act (.session a c)).1⟩) :
    (leave (c.transition e.defaultTrackers) h).view = h.view := by
  rw [leave_session]
  refine if_neg ?_
  rintro ⟨detached, attached⟩
  rw [Option.isNone_iff_eq_none] at detached
  rw [detached] at attached
  cases c with
  | startDownload params => exact old ⟨rfl, (startDownload_eq_ok found).2 ⟨detached, attached⟩⟩
  | _ => cases attached

/-- Where nothing is made or attached, the view is that of the object before, or its metadata if
the operation is a reload. -/
lemma view_of_not_renews (sound : e.objects.Sound issued)
    (found : (e.act op).2.objects.get? a = some h')
    (old : ¬ Record.renews a ⟨op, (e.act op).1⟩) :
    ∃ h, e.objects.get? a = some h ∧
      (Record.reloads a ⟨op, (e.act op).1⟩ ∧ h.metadata?.isSome ∧ h'.view = h.metadata? ∨
        ¬ Record.reloads a ⟨op, (e.act op).1⟩ ∧ h'.view = h.view) := by
  have live := (mem_addresses_act sound op a).1 (Arena.mem_addresses.2 ⟨h', found⟩)
  obtain ⟨there, -⟩ := live.resolve_left fun made => old (.inl made)
  obtain ⟨h, before⟩ := Arena.mem_addresses.1 there
  have kept : op ≠ .destroyHandle a := by
    rintro rfl
    cases (get?_destroyHandle.trans (if_pos rfl)).symm.trans found
  obtain rfl := Option.some.inj (found.symm.trans (get?_act_of_some sound before kept))
  refine ⟨h, before, ?_⟩
  cases op with
  | call b c =>
    by_cases here : a = b
    · subst here
      rw [Op.edit, if_pos rfl]
      exact view_leave_call before c
    · refine .inr ⟨?_, by rw [Op.edit, if_neg here]⟩
      cases c with
      | reloadFile => exact fun reloads => here reloads.1.symm
      | _ => exact id
  | session b c =>
    refine .inr ⟨id, ?_⟩
    by_cases here : a = b
    · subst here
      rw [Op.edit, if_pos rfl]
      exact view_leave_session before fun starts => old (.inr starts)
    · rw [Op.edit, if_neg here]
  | _ => exact .inr ⟨id, rfl⟩

end Step

/-! ### Reloads through proxies -/

variable {e : Engine} {host : Host} {p : Proxy}

lemma reload_of_target {engine : ℕ} (plain : ∀ i, p.endpoint ≠ .stub i)
    (address : p.address = some a) (target : host.target? p.endpoint = some engine)
    (here : host.engines[engine]? = some e) (found : e.objects.get? a = some h) :
    (p.reload host).1 = .ok h.outcome := by
  obtain ⟨answer, -, -⟩ := Host.call_of_target (a := a) (.inr plain) target here
  rw [reloadFile_of_some found] at answer
  simp only [Proxy.reload, Proxy.forward, address, answer, Except.mapError,
    ReloadOutcome.ofCode_code]

/-- What comes back from an engine or through a recorder is an engine's answer, if any. -/
lemma call_fst_cases (host : Host) (a : Address) (c : Call) {endpoint : Endpoint}
    (plain : ∀ i, endpoint ≠ .stub i) :
    (host.call a c endpoint).1 = c.missing ∨
      ∃ e : Engine, (host.call a c endpoint).1 = (e.call a c).1 := by
  cases endpoint with
  | engine i =>
    simp only [Host.call, Host.onEngine]
    split
    · exact .inl rfl
    · exact .inr ⟨_, rfl⟩
  | recorder i =>
    simp only [Host.call, Host.onRecorder]
    split
    · exact .inl rfl
    · split
      · exact .inl rfl
      · exact .inr ⟨_, rfl⟩
  | stub i => exact absurd rfl (plain i)

lemma reload_ne_unknownDiscriminant (plain : ∀ i, p.endpoint ≠ .stub i) (kind : String)
    (value : Int) : (p.reload host).1 ≠ .error (.unknownDiscriminant kind value) := by
  cases address : p.address with
  | none => simp [Proxy.reload, Proxy.forward, address]
  | some a =>
    have answers := call_fst_cases host a .reloadFile plain
    simp only [Proxy.reload, Proxy.forward, address]
    cases came : host.call a .reloadFile p.endpoint with
    | mk result host' =>
      rw [came] at answers
      cases result with
      | error err => cases err <;> exact nofun
      | ok n =>
        -- a number is an engine's, so it names an outcome
        obtain missing | ⟨e, answer⟩ := answers
        · cases missing
        · obtain ⟨h, -, rfl⟩ := reloadFile_eq_ok.1 answer.symm
          simp [Except.mapError, ReloadOutcome.ofCode_code]

/-! ### The history of a view -/

lemma isSome_view_iff (owner : ℕ) (settings : EngineSettings) (bus : Bus Event) (ops : List Op)
    (found : ((create owner settings bus).run ops).objects.get? a = some h) :
    h.view.isSome ↔ (create owner settings bus).Since (fun _ r => r.reloads a)
      (fun r => ¬ r.renews a) ops := by
  refine since_iff (V := fun h => h.view.isSome) ?_ ?_ owner settings bus ops found
  · intro e issued op h' sound found old
    obtain ⟨h, before, ⟨reloads, known, shown⟩ | ⟨other, same⟩⟩ :=
      view_of_not_renews sound found old
    · exact ⟨h, before, by simp [reloads, known, shown]⟩
    · exact ⟨h, before, by simp [other, same]⟩
  · intro e issued op h' sound found renewed
    rw [not_not] at renewed
    simp [view_of_renews sound found renewed, Record.not_reloads_of_renews renewed]

/-- What a handle shows is what the latest reload found that found any since it got its torrent. -/
lemma view_eq_some_iff {m : Metadata} (owner : ℕ) (settings : EngineSettings) (bus : Bus Event)
    (ops : List Op) (found : ((create owner settings bus).run ops).objects.get? a = some h) :
    h.view = some m ↔ (create owner settings bus).Since
      (fun e r => r.reloads a ∧ e.metadata? a = some m)
      (fun r => ¬ r.renews a ∧ ¬ r.reloads a) ops := by
  refine since_iff (V := fun h => h.view = some m) ?_ ?_ owner settings bus ops found
  · intro e issued op h' sound found old
    obtain ⟨h, before, ⟨reloads, -⟩ | ⟨other, same⟩⟩ := view_of_not_renews sound found old.1
    · exact absurd reloads old.2
    · exact ⟨h, before, by simp [other, same]⟩
  · intro e issued op h' sound found anew
    by_cases renewed : Record.renews a ⟨op, (e.act op).1⟩
    · simp [view_of_renews sound found renewed, Record.not_reloads_of_renews renewed]
    · obtain ⟨h, before, ⟨reloads, known, shown⟩ | ⟨other, -⟩⟩ :=
        view_of_not_renews sound found renewed
      · simp [reloads, shown, metadata?, before]
      · exact absurd ⟨renewed, other⟩ anew

/-- **The view of a handle** is the metadata that the torrent had at the latest reload that found
any since the handle was made or a torrent attached, whatever came after it. A reload finds no
torrent, no metadata, or both, and tells which; no proxy on an engine or a recorder meets a number
that it does not know. -/
theorem view_history (owner : ℕ) (settings : EngineSettings) (bus : Bus Event) (ops : List Op)
    (found : ((create owner settings bus).run ops).objects.get? a = some h) :
    let start := create owner settings bus
    let e := start.run ops
    (e.call a .infoView).1 = .ok h.view ∧
      (h.view.isSome ↔ start.Since (fun _ r => r.reloads a) (fun r => ¬ r.renews a) ops) ∧
      (∀ m, h.view = some m ↔ start.Since (fun e r => r.reloads a ∧ e.metadata? a = some m)
        (fun r => ¬ r.renews a ∧ ¬ r.reloads a) ops) ∧
      (∃ outcome : ReloadOutcome, (e.call a .reloadFile).1 = .ok outcome.code ∧
        (outcome = .nullHandle ↔ h.torrent = none) ∧
        (outcome = .nullFile ↔ ∃ t, h.torrent = some t ∧ t.metadata = none) ∧
        (outcome = .success ↔ ∃ t m, h.torrent = some t ∧ t.metadata = some m) ∧
        ∀ (host : Host) (p : Proxy) (engine : ℕ), (∀ i, p.endpoint ≠ .stub i) →
          p.address = some a → host.target? p.endpoint = some engine →
          host.engines[engine]? = some e → (p.reload host).1 = .ok outcome) ∧
      ∀ (host : Host) (p : Proxy), (∀ i, p.endpoint ≠ .stub i) →
        ∀ kind value, (p.reload host).1 ≠ .error (.unknownDiscriminant kind value) := by
  intro start e
  obtain ⟨nullHandle, nullFile, success⟩ := h.outcome_tells
  refine ⟨infoView_of_some found, isSome_view_iff owner settings bus ops found,
    fun m => view_eq_some_iff owner settings bus ops found,
    ⟨h.outcome, reloadFile_of_some found, nullHandle, nullFile, success, ?_⟩, ?_⟩
  · intro host p engine plain address target here
    exact reload_of_target plain address target here found
  · intro host p plain kind value
    exact reload_ne_unknownDiscriminant plain kind value

theorem sample_view_history :
    let start := create 1 {} ⟨1, by decide, #[], 1⟩
    let ops := [.addTorrent (.ofMetadata .sample), .call ⟨1, 0, 1⟩ .reloadFile,
      .session ⟨1, 0, 1⟩
        (.setMetadata (.ofFiles "Sample Show" .sample 16 [("Sample Show/01.mkv", 16)])),
      .session ⟨1, 0, 1⟩ .removeTorrent, .call ⟨1, 0, 1⟩ .reloadFile]
    let e := start.run ops
    ∃ h, e.objects.get? ⟨1, 0, 1⟩ = some h ∧
      (e.call ⟨1, 0, 1⟩ .infoView).1 = .ok (some .sample) ∧
      (e.call ⟨1, 0, 1⟩ .reloadFile).1 = .ok ReloadOutcome.nullHandle.code ∧
      start.Since (fun e r => r.reloads ⟨1, 0, 1⟩ ∧ e.metadata? ⟨1, 0, 1⟩ = some .sample)
        (fun r => ¬ r.renews ⟨1, 0, 1⟩ ∧ ¬ r.reloads ⟨1, 0, 1⟩) ops := by
  intro start ops e
  have found : e.objects.get? ⟨1, 0, 1⟩ = some { view := some .sample } := by decide +kernel
  obtain ⟨shown, -, latest, ⟨outcome, answer, detached, -⟩, -⟩ :=
    view_history 1 {} ⟨1, by decide, #[], 1⟩ ops found
  rw [detached.2 rfl] at answer
  exact ⟨_, found, shown, answer, (latest .sample).1 rfl⟩

end Engine

end TorrentHandle
