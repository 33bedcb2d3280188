import Mathlib.Data.List.Basic
import Mathlib.Logic.Unique
import Mathlib.Data.Nat.Notation
import Mathlib.Tactic.Lemma
import TorrentHandle.Proofs.Stages
import TorrentHandle.Settings.Validate

/-!
Settings that pass are those that keep every rule, whichever is looked at first.
-/

namespace TorrentHandle

open TorrentHandle.Text

namespace EngineSettings

variable {s : EngineSettings}

/-- The settings keep every rule. -/
structure Valid (s : EngineSettings) : Prop where
  fingerprint : isFingerprint s.peerFingerprint = true
  userAgent : isBlankText s.userAgent = false
  download : s.downloadRateLimit.toNat ≤ maxRateLimit
  upload : s.uploadRateLimit.toNat ≤ maxRateLimit
  trackers : ∀ url ∈ s.defaultTrackers, hasTrackerScheme url = true
  level : isBlankText s.logging.level = false

lemma checkRateLimit_eq_ok {field : String} {limit : UInt64} :
    checkRateLimit field limit = .ok () ↔ limit.toNat ≤ maxRateLimit := by
  unfold checkRateLimit
  split <;> simp_all

lemma checkTrackers_eq_ok :
    s.checkTrackers = .ok () ↔ ∀ url ∈ s.defaultTrackers, hasTrackerScheme url = true := by
  unfold checkTrackers
  cases found : s.defaultTrackers.find? (!hasTrackerScheme ·) with
  | none =>
    rw [List.find?_eq_none] at found
    simpa using found
  | some url =>
    have lacks := List.find?_some found
    have inside := List.mem_of_find?_eq_some found
    refine ⟨nofun, fun every => ?_⟩
    rw [every url inside] at lacks
    cases lacks

theorem validate_eq_ok : s.validate = .ok () ↔ s.Valid := by
  have fingerprint : s.checkFingerprint = .ok () ↔ isFingerprint s.peerFingerprint = true := by
    unfold checkFingerprint
    split <;> simp_all
  have userAgent : s.checkUserAgent = .ok () ↔ isBlankText s.userAgent = false := by
    unfold checkUserAgent
    split <;> simp_all
  have level : s.checkLevel = .ok () ↔ isBlankText s.logging.level = false := by
    unfold checkLevel
    split <;> simp_all
  unfold validate
  simp only [bind_eq_ok, Unique.exists_iff, PUnit.default_eq_unit, checkRateLimit_eq_ok,
    checkTrackers_eq_ok, fingerprint, userAgent, level]
  constructor
  · rintro ⟨fingerprint, userAgent, download, upload, trackers, level⟩
    exact ⟨fingerprint, userAgent, download, upload, trackers, level⟩
  · intro valid
    exact ⟨valid.fingerprint, valid.userAgent, valid.download, valid.upload, valid.trackers,
      valid.level⟩

lemma not_blank_of_scheme {url : String} (has : hasTrackerScheme url = true) :
    isBlankText url = false := by
  obtain ⟨scheme, listed, begins⟩ := List.any_eq_true.1 has
  obtain ⟨rest, split⟩ := List.isPrefixOf_iff_prefix.1 begins
  have shown : ∀ scheme ∈ trackerSchemes, scheme.toList.all isBlank = false := by decide
  rw [isBlankText, ← split, List.all_append, shown scheme listed, Bool.false_and]

end EngineSettings

end TorrentHandle
