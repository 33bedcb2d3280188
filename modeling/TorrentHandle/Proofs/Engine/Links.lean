import TorrentHandle.Proofs.Engine.Trackers
import TorrentHandle.Proofs.MagnetLink

/-!
The link that an engine makes for a torrent. Its hash and its name are those of the metadata as soon
as there is some, whatever the torrent was added with; before that they are what it was added with.
-/

namespace TorrentHandle

/-! ### Links of torrents -/

lemma Torrent.parameters_magnetLink (t : Torrent) : ∃ ordered, ByTier t.trackers ordered ∧
    MagnetLink.parameters t.magnetLink.render =
      ("magnet:?xt", some ("urn:btih:" ++ t.infoHash.toHex)) ::
        (if t.displayName = "" then [] else [("dn", some t.displayName)]) ++
        ordered.map fun tracker => ("tr", some tracker.url) := by
  refine ⟨_, byTier_mergeSort t.trackers, ?_⟩
  have named : t.magnetLink.name = if t.displayName.isEmpty then none else some t.displayName := rfl
  have urls : t.magnetLink.trackers =
    (t.trackers.mergeSort fun a b => a.tier ≤ b.tier).map (·.url) := rfl
  have hash : t.magnetLink.infoHash = t.infoHash := rfl
  rw [MagnetLink.parameters_render, MagnetLink.facts, hash, named, urls]
  by_cases empty : t.displayName = "" <;> simp [empty, Function.comp_def]

namespace Engine

variable {e : Engine} {a : Address} {h : HandleObject} {t : Torrent}

lemma makeMagnetUri_eq_ok (found : e.objects.get? a = some h) (attached : h.torrent = some t) :
    (e.call a .makeMagnetUri).1 = .ok t.magnetLink.render := by
  rw [call_eq_attempt]
  exact attempt_query_eq_ok.2 ⟨h, t, found, attached, rfl⟩

/-! ### Links over runs -/

/-- **A link says what the torrent is now.** After any operations, the link of a torrent has the
hash of the metadata that was accepted last or that the torrent was added with, or without any the
hash that it was added with. It has a name just if there is one that is not empty, of the metadata
or, without any, of what the torrent was added with. And it has the addresses of the trackers, by
tier and in a tier as they came. -/
theorem link_tells_torrent (owner : ℕ) (settings : EngineSettings) (bus : Bus Event)
    (ops : List Op)
    (found : ((create owner settings bus).run ops).objects.get? a = some h)
    (attached : h.torrent = some t) :
    let start := create owner settings bus
    ∃ params since, Added (start.record ops) a params since ∧
      let current := (since.filterMap (Record.installed? a)).getLast?.or params.metadata
      let hash := current.elim params.infoHash (·.infoHash)
      let name := current.elim (params.name.getD "") (·.name)
      t.metadata = current ∧ ∃ uri trackers ordered,
        ((start.run ops).call a .makeMagnetUri).1 = .ok uri ∧
        ((start.run ops).session a .trackers).1 = .ok trackers ∧ ByTier trackers ordered ∧
        MagnetLink.parameters uri =
          ("magnet:?xt", some ("urn:btih:" ++ hash.toHex)) ::
            (if name = "" then [] else [("dn", some name)]) ++
            ordered.map fun tracker => ("tr", some tracker.url) := by
  intro start
  obtain ⟨params, since, added, history⟩ := history_run owner settings bus ops found attached
  refine ⟨params, since, added, ?_⟩
  intro current hash name
  have known : t.metadata = current := history.metadata
  have fits := (torrent_coherent_run owner settings bus ops found attached).fits
  have same : t.infoHash = hash ∧ t.displayName = name := by
    unfold hash name Torrent.displayName
    rw [← known]
    cases installed : t.metadata with
    | none =>
      obtain ⟨given, called⟩ := history.given installed
      exact ⟨given, congrArg (·.getD "") called⟩
    | some m => exact ⟨(fits m installed).infoHash, rfl⟩
  obtain ⟨ordered, byTier, read⟩ := t.parameters_magnetLink
  rw [same.1, same.2] at read
  exact ⟨known, _, _, ordered, makeMagnetUri_eq_ok found attached,
    trackers_eq_ok.2 ⟨h, t, found, attached, rfl⟩, byTier, read⟩

theorem sample_link_tells_torrent :
    let start := create 1 {} ⟨1, by decide, #[], 1⟩
    let params : TorrentParams := {
      infoHash := ⟨Vector.replicate 20 1⟩, name := some "Working Title"
      trackers := [⟨"http://b/?x=1&y", 1, 0⟩, ⟨"http://a/", 0, 0⟩] }
    let ops : List Op := [.addTorrent params,
      .call ⟨1, 0, 1⟩ (.addTracker ⟨"http://c/", 1, 5⟩), .session ⟨1, 0, 1⟩ (.setMetadata .sample)]
    let t : Torrent := {
      infoHash := .sample, name := some "Working Title", metadata := some .sample, paused := false
      state := .downloading, priorities := [.standard, .standard]
      trackers := params.trackers ++ [⟨"http://c/", 1, 5⟩] }
    (start.run ops).objects.get? ⟨1, 0, 1⟩ = some { torrent := some t } ∧
      ∃ uri trackers ordered, ((start.run ops).call ⟨1, 0, 1⟩ .makeMagnetUri).1 = .ok uri ∧
        ((start.run ops).session ⟨1, 0, 1⟩ .trackers).1 = .ok trackers ∧
        ByTier trackers ordered ∧
        MagnetLink.parameters uri =
          ("magnet:?xt", some ("urn:btih:" ++ InfoHash.sample.toHex)) ::
            [("dn", some "Sample Show")] ++
            ordered.map fun tracker => ("tr", some tracker.url) := by
  intro start params ops t
  have found : (start.run ops).objects.get? ⟨1, 0, 1⟩ = some { torrent := some t } := by
    decide +kernel
  obtain ⟨params', since, -, known, uri, trackers, ordered, link, answer, byTier, read⟩ :=
    link_tells_torrent 1 {} ⟨1, by decide, #[], 1⟩ ops found rfl
  have current : (since.filterMap (Record.installed? ⟨1, 0, 1⟩)).getLast?.or params'.metadata =
      some .sample := known.symm
  rw [current] at read
  exact ⟨found, uri, trackers, ordered, link, answer, byTier, read⟩

end Engine

end TorrentHandle
