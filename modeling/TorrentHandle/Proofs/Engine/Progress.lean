import TorrentHandle.Proofs.Engine.Torrents
import TorrentHandle.Proofs.Torrent.State

/-!
Progress of torrents over runs of an engine. After any operations the reports of every torrent add
up, what is published is what they say, and the state of the torrent agrees with them.
-/

namespace TorrentHandle

/-! ### The state is up to date -/

namespace Torrent

variable {t t' : Torrent} {m : Metadata}

lemma derivedState_congr (metadata : t'.metadata = t.metadata)
    (priorities : t'.priorities = t.priorities) (finished : t'.finished = t.finished) :
    t'.derivedState = t.derivedState := by
  unfold derivedState hasFile priority
  rw [metadata, priorities, finished]

lemma refresh_current (t : Torrent) : t.refresh.state = t.refresh.derivedState :=
  (derivedState_congr rfl rfl rfl).symm

lemma Edits.current (current : t.state = t.derivedState) (edits : t.Edits t') :
    t'.state = t'.derivedState := by
  cases edits with
  | setDeadline done =>
    obtain ⟨-, rfl⟩ := setDeadline_eq_ok.1 done
    split
    · exact current
    · exact current.trans (derivedState_congr rfl rfl rfl).symm
  | setPriority done =>
    obtain ⟨-, -, rfl⟩ := setPriority_eq_ok.1 done
    exact refresh_current _
  | ignoreFiles done =>
    obtain ⟨-, rfl⟩ := ignoreFiles_eq_ok.1 done
    exact refresh_current _
  | finishPiece done =>
    obtain ⟨-, rfl⟩ := finishPiece_eq_ok.1 done
    exact refresh_current _
  | _ => exact current.trans (derivedState_congr rfl rfl rfl).symm

lemma setMetadata_current (done : t.setMetadata m = .ok t') : t'.state = t'.derivedState := by
  obtain ⟨-, rfl⟩ := setMetadata_eq_ok.1 done
  exact refresh_current _

end Torrent

namespace Engine

variable {a : Address}

lemma torrent_current_run (owner : ℕ) (settings : EngineSettings) (bus : Bus Event)
    (ops : List Op) {h : HandleObject} {t : Torrent}
    (found : ((create owner settings bus).run ops).objects.get? a = some h)
    (attached : h.torrent = some t) : t.state = t.derivedState :=
  torrents_run (P := fun t => t.state = t.derivedState) (fun _ _ _ => rfl)
    (fun _ _ current edits => edits.current current) (fun _ _ _ _ => Torrent.setMetadata_current)
    owner settings bus ops found attached

/-! ### Progress that is published -/

/-- What the engine publishes of the torrent's progress is what the reports say, number by
number. -/
structure Publishes (e : Engine) (a : Address) (id : Int64) (t : Torrent) : Prop where
  fileProgress : ∃ bytes : List UInt64, bytes.map UInt64.toNat = t.fileProgress ∧
    (e.call a .postFileProgress).1 = .ok () ∧
    (e.call a .postFileProgress).2.bus = e.bus.publish (.fileProgress id bytes)
  status : ∃ downloaded whole : UInt64, downloaded.toNat = t.bytesDownloaded ∧
    whole.toNat = t.bytesTotal ∧ (e.call a .postStatusUpdates).1 = .ok () ∧
    (e.call a .postStatusUpdates).2.bus =
      e.bus.publish (.statusUpdated id t.state.code t.paused downloaded whole)

section Publish

variable {e : Engine} {h : HandleObject} {t : Torrent} {m : Metadata}

lemma publishes (found : e.objects.get? a = some h) (attached : h.torrent = some t)
    (adds : t.AddsUp m) (range : t.StaysInRange m) (total : t.bytesTotal ≤ maxSize) :
    e.Publishes a h.id t := by
  have files : e.call a .postFileProgress = _ :=
    (call_eq_attempt .postFileProgress).trans (attempt_post
      (fun id t => .fileProgress id (t.fileProgress.map UInt64.ofNat)) found attached)
  have status : e.call a .postStatusUpdates = _ :=
    (call_eq_attempt .postStatusUpdates).trans (attempt_post Call.statusReport found attached)
  have entries : (t.fileProgress.map UInt64.ofNat).map UInt64.toNat = t.fileProgress := by
    rw [List.map_map]
    conv_rhs => rw [← List.map_id t.fileProgress]
    refine List.map_congr_left fun n inside => toNat_ofNat_size ?_
    have whole := range.entries t.fileProgress.length
    rw [List.take_length] at whole
    exact (List.le_sum_of_mem inside).trans whole
  refine ⟨⟨_, entries, ?_, ?_⟩, ⟨.ofNat t.bytesDownloaded, .ofNat t.bytesTotal, ?_, ?_, ?_, ?_⟩⟩
  · rw [files]
  · rw [files]
  · exact toNat_ofNat_size (adds.le_total.trans total)
  · exact toNat_ofNat_size total
  · rw [status]
  · rw [status]
    rfl

end Publish

/-- **Progress adds up.** After any operations, a torrent with metadata reports for each file the
number of its bytes in finished pieces; the files sum to the bytes downloaded, which are at most all
bytes; no number on the way is too large; and what is published is what is reported. -/
theorem progress_adds_up (owner : ℕ) (settings : EngineSettings) (bus : Bus Event)
    (ops : List Op) {h : HandleObject} {t : Torrent} {m : Metadata}
    (found : ((create owner settings bus).run ops).objects.get? a = some h)
    (attached : h.torrent = some t) (known : t.metadata = some m) :
    t.AddsUp m ∧ t.StaysInRange m ∧
      ((create owner settings bus).run ops).Publishes a h.id t := by
  have fits := (torrent_coherent_run owner settings bus ops found attached).fits m known
  have adds := Torrent.addsUp fits known
  have range := Torrent.staysInRange fits known
  have total : t.bytesTotal ≤ maxSize := by
    rw [Torrent.bytesTotal, known]
    exact m.totalSize_le
  exact ⟨adds, range, publishes found attached adds range total⟩

theorem sample_progress_adds_up :
    let e := (create 1 {} ⟨1, by decide, #[], 1⟩).run
      [.addTorrent (.ofMetadata .sample), .session ⟨1, 0, 1⟩ (.recordPieceFinished 1)]
    let t : Torrent := {
      infoHash := .sample, name := some "Sample Show", metadata := some .sample, paused := false
      state := .downloading, priorities := [.standard, .standard], finished := .ofList [1] }
    e.objects.get? ⟨1, 0, 1⟩ = some { torrent := some t } ∧ t.fileProgress = [8, 8] ∧
      t.AddsUp .sample ∧ t.StaysInRange .sample ∧ e.Publishes ⟨1, 0, 1⟩ 0 t := by
  intro e t
  have found : e.objects.get? ⟨1, 0, 1⟩ = some { torrent := some t } := by decide +kernel
  exact ⟨found, by decide +kernel, progress_adds_up 1 {} ⟨1, by decide, #[], 1⟩ _ found rfl rfl⟩

/-! ### The state and the bytes -/

/-- **The state tells the bytes.** After any operations, the state of a torrent is what follows from
its bytes, and it is what the engine answers. -/
theorem state_tells_bytes (owner : ℕ) (settings : EngineSettings) (bus : Bus Event)
    (ops : List Op) {h : HandleObject} {t : Torrent}
    (found : ((create owner settings bus).run ops).objects.get? a = some h)
    (attached : h.torrent = some t) :
    t.StateTells ∧ (((create owner settings bus).run ops).call a .state).1 = .ok t.state.code := by
  have tells := Torrent.stateTells (torrent_coherent_run owner settings bus ops found attached)
    (torrent_current_run owner settings bus ops found attached)
  refine ⟨tells, ?_⟩
  rw [call_eq_attempt]
  exact attempt_query_eq_ok.2 ⟨h, t, found, attached, rfl⟩

theorem sample_state_tells_bytes :
    let e := (create 1 {} ⟨1, by decide, #[], 1⟩).run
      [.addTorrent (.ofMetadata .sample), .call ⟨1, 0, 1⟩ (.setFilePriority 1 .dontDownload),
        .session ⟨1, 0, 1⟩ (.recordPieceFinished 0), .session ⟨1, 0, 1⟩ (.recordPieceFinished 1)]
    let t : Torrent := {
      infoHash := .sample, name := some "Sample Show", metadata := some .sample, paused := false
      state := .finished, priorities := [.standard, .dontDownload], finished := .ofList [0, 1] }
    e.objects.get? ⟨1, 0, 1⟩ = some { torrent := some t } ∧ t.StateTells ∧
      (e.call ⟨1, 0, 1⟩ .state).1 = .ok t.state.code := by
  intro e t
  have found : e.objects.get? ⟨1, 0, 1⟩ = some { torrent := some t } := by decide +kernel
  exact ⟨found, state_tells_bytes 1 {} ⟨1, by decide, #[], 1⟩ _ found rfl⟩

end Engine

end TorrentHandle
