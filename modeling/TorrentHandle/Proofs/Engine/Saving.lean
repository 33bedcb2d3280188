import TorrentHandle.Proofs.Engine.Torrents
import TorrentHandle.Proofs.Torrent.ResumeData

/-!
Saving torrents over runs of an engine. Whatever was done before, what is published when a torrent
is saved tells exactly what the torrent is, and it is read back from the text of the event.
-/

namespace TorrentHandle

/-! ### Numbers of pieces -/

namespace Torrent.Numbered

variable {t t' : Torrent} {m : Metadata}

lemma ofFresh (infoHash : InfoHash) (name : Option String) (paused : Bool) :
    Numbered { infoHash, name, paused } :=
  ⟨fun _ inside => absurd inside Std.ExtTreeSet.not_mem_empty,
    fun _ inside => absurd inside Std.ExtTreeMap.not_mem_empty⟩

lemma of_less (h : t.Numbered) (finished : ∀ piece ∈ t'.finished, piece ∈ t.finished)
    (deadlines : ∀ piece ∈ t'.deadlines, piece ∈ t.deadlines) : t'.Numbered where
  finished piece inside := h.finished piece (finished piece inside)
  deadlines piece inside := h.deadlines piece (deadlines piece inside)

lemma finishPiece (h : t.Numbered) {piece : UInt32} (done : t.finishPiece piece = .ok t') :
    t'.Numbered := by
  obtain ⟨-, rfl⟩ := finishPiece_eq_ok.1 done
  refine ⟨fun other inside => ?_, fun other due => ?_⟩
  · obtain same | inside := Std.ExtTreeSet.mem_insert.1 inside
    · rw [← Nat.compare_eq_eq.1 same]
      exact piece.toNat_lt_size
    · exact h.finished other inside
  · exact h.deadlines other (Std.ExtTreeMap.mem_of_mem_erase due)

lemma setDeadline (h : t.Numbered) {piece milliseconds : UInt32}
    (done : t.setDeadline piece milliseconds = .ok t') : t'.Numbered := by
  obtain ⟨-, rfl⟩ := setDeadline_eq_ok.1 done
  split
  · exact h
  · refine ⟨h.finished, fun other due => ?_⟩
    obtain same | due := Std.ExtTreeMap.mem_insert.1 due
    · rw [← Nat.compare_eq_eq.1 same]
      exact piece.toNat_lt_size
    · exact h.deadlines other due

lemma edits (h : t.Numbered) (edits : t.Edits t') : t'.Numbered := by
  cases edits with
  | setDeadline done => exact h.setDeadline done
  | resetDeadline piece =>
    exact h.of_less (fun _ => id) fun _ due => Std.ExtTreeMap.mem_of_mem_erase due
  | clearDeadlines =>
    exact h.of_less (fun _ => id) fun _ due => absurd due Std.ExtTreeMap.not_mem_empty
  | setPriority done =>
    obtain ⟨-, -, rfl⟩ := setPriority_eq_ok.1 done
    exact h.of_less (fun _ => id) fun _ => id
  | ignoreFiles done =>
    obtain ⟨-, rfl⟩ := ignoreFiles_eq_ok.1 done
    exact h.of_less (fun _ => id) fun _ => id
  | finishPiece done => exact h.finishPiece done
  | _ => exact h.of_less (fun _ => id) fun _ => id

lemma setMetadata (h : t.Numbered) (done : t.setMetadata m = .ok t') : t'.Numbered := by
  obtain ⟨-, rfl⟩ := setMetadata_eq_ok.1 done
  exact h.of_less (fun _ inside => Std.ExtTreeSet.mem_of_mem_filter inside) fun _ => id

end Torrent.Numbered

namespace Engine

variable {a : Address} {h : HandleObject} {t : Torrent}

lemma torrent_numbered_run (owner : ℕ) (settings : EngineSettings) (bus : Bus Event)
    (ops : List Op) (found : ((create owner settings bus).run ops).objects.get? a = some h)
    (attached : h.torrent = some t) : t.Numbered :=
  torrents_run Torrent.Numbered.ofFresh (fun _ _ h => h.edits) (fun _ _ _ h => h.setMetadata)
    owner settings bus ops found attached

/-! ### What is published -/

/-- To save the torrent at an address publishes a text that is read as exactly what is saved of the
torrent, and the event with that text in it is read back from its own text. -/
structure Saves (e : Engine) (a : Address) (id : Int64) (t : Torrent) : Prop where
  published : (e.call a .postSaveResume).1 = .ok () ∧
    (e.call a .postSaveResume).2.bus = e.bus.publish (.resumeDataSaved id t.resumePayload)
  event : Json.decode (Json.encode (Event.resumeDataSaved id t.resumePayload)) =
    .ok (Event.resumeDataSaved id t.resumePayload)
  payload : ∃ d : ResumeData, Json.decode t.resumePayload = .ok d ∧ d.Describes t

lemma saves {e : Engine} (found : e.objects.get? a = some h) (attached : h.torrent = some t)
    (numbered : t.Numbered) : e.Saves a h.id t := by
  have saved : e.call a .postSaveResume = _ := (call_eq_attempt .postSaveResume).trans
    (attempt_post (fun id t => .resumeDataSaved id t.resumePayload) found attached)
  refine ⟨⟨?_, ?_⟩, Json.decode_encode (by decide) _, ?_⟩
  · rw [saved]
  · rw [saved]
  · exact ⟨t.resumeData, Torrent.decode_resumePayload numbered.finished,
      Torrent.describes_resumeData numbered⟩

/-- **What is saved tells the torrent.** After any operations, to save a torrent publishes a text
whose members, read by the forms of their types, are exactly its hash, its name if it has one, its
flags, its trackers in order, its deadlines and its finished pieces in ascending order and the
priorities of its files in order. So two torrents, of one engine or of two, have one text just if
they agree on all of these. -/
theorem resume_data_tells_torrent (owner : ℕ) (settings : EngineSettings) (bus : Bus Event)
    (ops : List Op)
    (found : ((create owner settings bus).run ops).objects.get? a = some h)
    (attached : h.torrent = some t) :
    ((create owner settings bus).run ops).Saves a h.id t ∧
      ∀ owner' settings' bus' ops' a' h' t',
        ((create owner' settings' bus').run ops').objects.get? a' = some h' →
        h'.torrent = some t' → (t.resumePayload = t'.resumePayload ↔ t.SavedAlike t') := by
  have numbered := torrent_numbered_run owner settings bus ops found attached
  refine ⟨saves found attached numbered, ?_⟩
  intro owner' settings' bus' ops' a' h' t' found' attached'
  exact Torrent.resumePayload_eq_iff numbered
    (torrent_numbered_run owner' settings' bus' ops' found' attached')

theorem sample_resume_data_tells_torrent :
    let start := create 1 {} ⟨1, by decide, #[], 1⟩
    let start' := create 2 {} ⟨8, by decide, #[], 1⟩
    let renamed : Metadata := { Metadata.sample with name := "Other Show" }
    let params : TorrentParams := { TorrentParams.ofMetadata .sample with
      trackers := [⟨"http://a/\"b\" \\ \n", 1, 5⟩] }
    let ops : List Op := [.addTorrent params, .call ⟨1, 0, 1⟩ (.setPieceDeadline 1 100),
      .session ⟨1, 0, 1⟩ (.recordPieceFinished 0), .session ⟨1, 0, 1⟩ (.recordPieceFinished 2)]
    let ops' : List Op := [.addTorrent { params with metadata := some renamed },
      .call ⟨2, 0, 1⟩ (.setId 7), .session ⟨2, 0, 1⟩ (.recordPieceFinished 2),
      .session ⟨2, 0, 1⟩ (.recordPieceFinished 0), .call ⟨2, 0, 1⟩ (.setPieceDeadline 1 100)]
    let t : Torrent := {
      infoHash := .sample, name := some "Sample Show", metadata := some .sample, paused := false
      state := .downloading, trackers := params.trackers, deadlines := .ofList [(1, (100 : UInt32))]
      priorities := [.standard, .standard], finished := .ofList [0, 2] }
    let t' : Torrent := { t with metadata := some renamed, finished := .ofList [2, 0] }
    (start.run ops).objects.get? ⟨1, 0, 1⟩ = some { torrent := some t } ∧
      (start'.run ops').objects.get? ⟨2, 0, 1⟩ = some { id := 7, torrent := some t' } ∧
      (start.run ops).Saves ⟨1, 0, 1⟩ 0 t ∧ t.resumePayload = t'.resumePayload := by
  intro start start' renamed params ops ops' t t'
  have found : (start.run ops).objects.get? ⟨1, 0, 1⟩ = some { torrent := some t } := by
    decide +kernel
  have found' : (start'.run ops').objects.get? ⟨2, 0, 1⟩ =
      some { id := 7, torrent := some t' } := by
    decide +kernel
  obtain ⟨saves, alike⟩ := resume_data_tells_torrent 1 {} ⟨1, by decide, #[], 1⟩ ops found rfl
  have agrees : t.SavedAlike t' := ⟨rfl, rfl, rfl, rfl, rfl, rfl, rfl, by decide +kernel⟩
  exact ⟨found, found', saves, (alike 2 {} ⟨8, by decide, #[], 1⟩ ops' _ _ t' found' rfl).2 agrees⟩

end Engine

end TorrentHandle
