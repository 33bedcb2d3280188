import TorrentHandle.Proofs.Streaming.Plan

/-!
Which pieces a plan selects. After any events, and whatever became of the plans before, the plan is
told by metadata, window and events alone: the missing pieces that few others precede from the
playhead on, and before the first seek those at the ends of the payload.
-/

namespace TorrentHandle

variable {m : Metadata} {window : StreamingWindow} {events : List Progress} {piece : ℕ}

instance (m : Metadata) (events : List Progress) (piece : ℕ) :
    Decidable (m.Missing events piece) :=
  inferInstanceAs (Decidable (_ ∧ _))

/-- The missing pieces from `first` up to but not including `stop`. -/
def Metadata.missingBetween (m : Metadata) (events : List Progress) (first stop : ℕ) :
    Finset ℕ :=
  (Finset.Ico first stop).filter (m.Missing events)

namespace Controller

/-! ### Parts of a plan -/

/-- The window has the missing pieces from the playhead on that fewer than its size precede
there. -/
lemma mem_window_run : piece ∈ ((ofMetadata m window).run events).window ↔
    m.Missing events piece ∧ Progress.playhead events ≤ piece ∧
      (m.missingBetween events (Progress.playhead events) piece).card <
        window.windowSize.toNat := by
  have sizes := sameSizes_run (ofMetadata m window) events
  have same : (Finset.Ico (Progress.playhead events) piece).filter
      (· ∈ ((ofMetadata m window).run events).unfinished.toList) =
        m.missingBetween events (Progress.playhead events) piece :=
    Finset.filter_congr fun _ _ => mem_unfinished_run
  rw [Controller.window, Runs.mem_takeBetween_iff (ascending_unfinished_run m window events),
    mem_unfinished_run, playhead_run, same, sizes.pieceCount, sizes.windowSize]
  constructor
  · rintro ⟨missing, above, -, few⟩
    exact ⟨missing, above, few⟩
  · rintro ⟨missing, above, few⟩
    exact ⟨missing, above, missing.1, few⟩

lemma mem_plan_run : piece ∈ ((ofMetadata m window).run events).plan.pieces ↔
    piece ∈ ((ofMetadata m window).run events).window ∨
      (∀ event ∈ events, event.isSeek = false) ∧ m.Missing events piece ∧
        (piece < piecesFor m window.headerSize ∨
          m.pieceCount.toNat - piecesFor m window.footerSize ≤ piece) := by
  have ascending := ascending_unfinished_run m window events
  have sizes := sameSizes_run (ofMetadata m window) events
  rw [mem_plan, mem_header ascending, mem_footer ascending, mem_unfinished_run, edges_run,
    sizes.headerPieces, sizes.footerPieces, sizes.pieceCount]
  refine or_congr_right (and_congr_right fun _ => ?_)
  constructor
  · rintro (⟨missing, below⟩ | ⟨missing, above, -⟩)
    · exact ⟨missing, .inl below⟩
    · exact ⟨missing, .inr above⟩
  · rintro ⟨missing, below | above⟩
    · exact .inl ⟨missing, below⟩
    · exact .inr ⟨missing, above, missing.1⟩

lemma piecesFor_le (m : Metadata) (bytes : UInt64) : piecesFor m bytes ≤ m.pieceCount.toNat := by
  unfold piecesFor
  split
  · exact Nat.zero_le _
  · exact Nat.min_le_right _ _

/-! ### What a plan selects -/

/-- The plan after events is the one that metadata and window ask for. -/
structure Selects (c : Controller) (m : Metadata) (window : StreamingWindow)
    (events : List Progress) : Prop where
  ascending : c.plan.pieces.Pairwise (· < ·)
  missing : ∀ piece ∈ c.plan.pieces, m.Missing events piece
  mem_iff : ∀ piece, m.Missing events piece → (piece ∈ c.plan.pieces ↔
    Progress.playhead events ≤ piece ∧
        (m.missingBetween events (Progress.playhead events) piece).card <
          window.windowSize.toNat ∨
      (∀ event ∈ events, event.isSeek = false) ∧
        (piece < piecesFor m window.headerSize ∨
          m.pieceCount.toNat ≤ piece + piecesFor m window.footerSize))
  possibleFooter_of_seek : (∃ event ∈ events, event.isSeek = true) →
    c.plan.possibleFooter = none
  possibleFooter_range : ∀ first last, c.plan.possibleFooter = some (first, last) →
    first ≤ last ∧ last < m.pieceCount.toNat
  /-- Nothing larger is taken from a number on the way to the plan. -/
  differences : c.footerPieces ≤ c.pieceCount ∧
    (0 < c.possibleFooterPieces → c.possibleFooterPieces ≤ c.pieceCount ∧ 1 ≤ c.pieceCount)

lemma selects_run (m : Metadata) (window : StreamingWindow) (events : List Progress) :
    ((ofMetadata m window).run events).Selects m window events := by
  have sizes := sameSizes_run (ofMetadata m window) events
  have footer : ((ofMetadata m window).run events).footerPieces ≤ m.pieceCount.toNat :=
    sizes.footerPieces.trans_le (piecesFor_le m window.footerSize)
  have possible : ((ofMetadata m window).run events).possibleFooterPieces ≤ m.pieceCount.toNat :=
    sizes.possibleFooterPieces.trans_le (piecesFor_le m window.possibleFooterSize)
  have count : ((ofMetadata m window).run events).pieceCount = m.pieceCount.toNat :=
    sizes.pieceCount
  refine ⟨ascending_plan (ascending_unfinished_run m window events),
    fun piece planned => mem_unfinished_run.1 (mem_unfinished_of_mem_plan planned), ?_, ?_, ?_,
    by omega, fun some => by omega⟩
  · intro piece missing
    rw [mem_plan_run, mem_window_run, and_iff_right missing, and_iff_right missing,
      Nat.sub_le_iff_le_add]
  · rintro ⟨event, inside, seek⟩
    have gone : ¬ ((ofMetadata m window).run events).edges = true := fun edges =>
      absurd (edges_run.1 edges event inside) (by simp [seek])
    rw [plan, if_neg gone]
  · intro first last named
    unfold plan at named
    split at named
    · dsimp only at named
      split at named
      · rename_i some
        obtain ⟨rfl, rfl⟩ := Prod.mk.inj (Option.some.inj named)
        exact ⟨by omega, by omega⟩
      · cases named
    · cases named

end Controller

/-- **What a plan selects.** After any events, each taken in whether the plan before was accepted or
not, the plan is the set of pieces that metadata and window ask for, also where the metadata is not
consistent. -/
theorem Playback.plan_selects {sink : Sink} {p : Playback}
    (goes : Playback.Goes ⟨.ofMetadata m window, sink⟩ events p) :
    p.controller.Selects m window events := by
  rw [goes.controller_eq]
  exact Controller.selects_run m window events

theorem Playback.sample_plan_selects :
    let window : StreamingWindow := ⟨1, 16, 16, 16⟩
    let start : Playback := ⟨.ofMetadata .sample window, .log { failOn := [1] }⟩
    ∃ p, start.Goes [.resumed, .downloaded 0] p ∧ (start.handle .resumed {}).1.isOk = false ∧
      p.controller.Selects .sample window [.resumed, .downloaded 0] ∧
      p.controller.plan = { pieces := [1, 2], possibleFooter := some (2, 2) } := by
  intro window start
  have goes := (Playback.Goes.start (p := start)).handle .resumed {} |>.handle (.downloaded 0) {}
  exact ⟨_, goes, by decide +kernel, plan_selects goes, by decide +kernel⟩

end TorrentHandle
