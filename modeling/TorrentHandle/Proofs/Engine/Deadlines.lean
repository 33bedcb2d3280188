import TorrentHandle.Proofs.Engine.Torrents

/-!
Deadlines over runs of an engine. A deadline is set for a piece that the torrent has, and finished
pieces lose theirs; but metadata that is installed later may have fewer pieces, and the deadlines
beyond them stay. They are the only ones that go beyond: the pieces with deadlines are the torrent's
throughout a run iff no metadata is installed that lacks one of them.
-/

namespace TorrentHandle

/-! ### Deadlines of a torrent -/

namespace Torrent

variable {t t' : Torrent} {m : Metadata} {d : PieceDeadline}

lemma mem_pieceDeadlines : d ∈ t.pieceDeadlines ↔
    ∃ piece, t.deadlines[piece]? = some d.milliseconds ∧ UInt32.ofNat piece = d.piece := by
  obtain ⟨number, milliseconds⟩ := d
  simp only [pieceDeadlines, List.mem_map, Prod.exists, PieceDeadline.mk.injEq,
    Std.ExtTreeMap.mem_toList_iff_getElem?_eq_some]
  constructor
  · rintro ⟨piece, value, there, same, rfl⟩
    exact ⟨piece, there, same⟩
  · rintro ⟨piece, there, same⟩
    exact ⟨piece, milliseconds, there, same, rfl⟩

/-- Every piece with a deadline is one of the torrent's. -/
def DueInRange (t : Torrent) : Prop :=
  ∀ d ∈ t.pieceDeadlines, ∃ m, t.metadata = some m ∧ d.piece < m.pieceCount

namespace DueInRange

lemma of_less (h : t.DueInRange) (metadata : t'.metadata = t.metadata)
    (less : ∀ d ∈ t'.pieceDeadlines, d ∈ t.pieceDeadlines) : t'.DueInRange := by
  intro d due
  rw [metadata]
  exact h d (less d due)

lemma of_erase (h : t.DueInRange) (metadata : t'.metadata = t.metadata) {piece : ℕ}
    (erased : t'.deadlines = t.deadlines.erase piece) : t'.DueInRange := by
  refine h.of_less metadata fun d due => ?_
  obtain ⟨other, there, same⟩ := mem_pieceDeadlines.1 due
  rw [erased, Std.ExtTreeMap.getElem?_erase, Option.ite_none_left_eq_some] at there
  exact mem_pieceDeadlines.2 ⟨other, there.2, same⟩

lemma setDeadline (h : t.DueInRange) {piece milliseconds : UInt32}
    (done : t.setDeadline piece milliseconds = .ok t') : t'.DueInRange := by
  obtain ⟨check, rfl⟩ := setDeadline_eq_ok.1 done
  obtain ⟨m, known, below⟩ := checkPiece_eq_ok.1 check
  split
  · exact h
  · intro d due
    obtain ⟨other, there, same⟩ := mem_pieceDeadlines.1 due
    dsimp only at there
    rw [Std.ExtTreeMap.getElem?_insert] at there
    split at there
    · rename_i new
      rw [← same, ← Nat.compare_eq_eq.1 new, UInt32.ofNat_toNat]
      exact ⟨m, known, below⟩
    · exact h d (mem_pieceDeadlines.2 ⟨other, there, same⟩)

lemma edits (h : t.DueInRange) (edits : t.Edits t') : t'.DueInRange := by
  cases edits with
  | setDeadline done => exact h.setDeadline done
  | resetDeadline piece => exact h.of_erase rfl rfl
  | finishPiece done =>
    obtain ⟨-, rfl⟩ := finishPiece_eq_ok.1 done
    exact h.of_erase rfl rfl
  | clearDeadlines =>
    intro d due
    obtain ⟨piece, there, -⟩ := mem_pieceDeadlines.1 due
    cases there
  | setPriority done =>
    obtain ⟨-, -, rfl⟩ := setPriority_eq_ok.1 done
    exact h.of_less rfl fun _ => id
  | ignoreFiles done =>
    obtain ⟨-, rfl⟩ := ignoreFiles_eq_ok.1 done
    exact h.of_less rfl fun _ => id
  | _ => exact h.of_less rfl fun _ => id

end DueInRange

lemma deadlines_setMetadata (done : t.setMetadata m = .ok t') : t'.deadlines = t.deadlines := by
  obtain ⟨-, rfl⟩ := setMetadata_eq_ok.1 done
  rfl

/-- After metadata is installed, the pieces are in range iff they are by that metadata. -/
lemma dueInRange_setMetadata (done : t.setMetadata m = .ok t') :
    t'.DueInRange ↔ ∀ d ∈ t.pieceDeadlines, d.piece < m.pieceCount := by
  have same : t'.pieceDeadlines = t.pieceDeadlines := by
    rw [pieceDeadlines, deadlines_setMetadata done, pieceDeadlines]
  obtain ⟨-, rfl⟩ := setMetadata_eq_ok.1 done
  rw [DueInRange, same]
  refine forall₂_congr fun d _ => ⟨?_, fun below => ⟨m, rfl, below⟩⟩
  rintro ⟨_, ⟨⟩, below⟩
  exact below

end Torrent

/-! ### Deadlines that an engine reports -/

namespace Engine

variable {e : Engine} {a : Address} {t : Torrent} {m : Metadata}

lemma pieceDeadlines_eq_ok {reported : List PieceDeadline} :
    (e.session a .pieceDeadlines).1 = .ok reported ↔
      ∃ h t, e.objects.get? a = some h ∧ h.torrent = some t ∧ reported = t.pieceDeadlines := by
  rw [session_eq_attempt]
  exact attempt_query_eq_ok

/-- Every piece that the engine reports a deadline of is one of the torrent's, so that a deadline
may be set for it again. -/
def DueInRange (e : Engine) (a : Address) : Prop :=
  ∀ reported, (e.session a .pieceDeadlines).1 = .ok reported → ∀ d ∈ reported,
    (∃ h t m, e.objects.get? a = some h ∧ h.torrent = some t ∧ t.metadata = some m ∧
      d.piece < m.pieceCount) ∧
    ∀ milliseconds, (e.call a (.setPieceDeadline d.piece milliseconds)).1 = .ok ()

lemma dueInRange_iff : e.DueInRange a ↔
    ∀ h t, e.objects.get? a = some h → h.torrent = some t → t.DueInRange := by
  constructor
  · intro range h t found attached d due
    obtain ⟨⟨h', t', m, found', attached', known, below⟩, -⟩ :=
      range _ (pieceDeadlines_eq_ok.2 ⟨h, t, found, attached, rfl⟩) d due
    obtain rfl : h = h' := Option.some.inj (found.symm.trans found')
    obtain rfl : t = t' := Option.some.inj (attached.symm.trans attached')
    exact ⟨m, known, below⟩
  · intro range reported answer d due
    obtain ⟨h, t, found, attached, rfl⟩ := pieceDeadlines_eq_ok.1 answer
    obtain ⟨m, known, below⟩ := range h t found attached d due
    refine ⟨⟨h, t, m, found, attached, known, below⟩, fun milliseconds => ?_⟩
    obtain ⟨t', accepted⟩ : ∃ t', t.setDeadline d.piece milliseconds = .ok t' :=
      ⟨_, Torrent.setDeadline_eq_ok.2 ⟨Torrent.checkPiece_eq_ok.2 ⟨m, known, below⟩, rfl⟩⟩
    have set : e.call a (.setPieceDeadline d.piece milliseconds) = _ :=
      (call_eq_attempt _).trans (attempt_update found attached accepted)
    rw [set]

/-- The metadata would be refused, or has all pieces that the engine reports deadlines of. -/
def MayInstall (e : Engine) (a : Address) (m : Metadata) : Prop :=
  m.isConsistent = true → ∀ reported, (e.session a .pieceDeadlines).1 = .ok reported →
    ∀ d ∈ reported, d.piece < m.pieceCount

/-! ### Deadlines over runs -/

lemma deadlines_ofParams {params : TorrentParams} (made : Torrent.ofParams params = .ok t)
    (defaults : List Tracker) : (defaults.foldl Torrent.withTracker t).deadlines = ∅ := by
  have track : ∀ (t : Torrent) (tracker : Tracker), t.deadlines = ∅ →
    (t.withTracker tracker).deadlines = ∅ := fun _ _ => id
  refine withTrackers_keeps (P := fun t => t.deadlines = ∅) track defaults ?_
  exact ofParams_keeps (fun _ _ _ => rfl) track
    (fun t m t' none done => (Torrent.deadlines_setMetadata done).trans none) made

/-- If the pieces are in range after metadata was to be installed, it lacked none of them. -/
lemma DueInRange.mayInstall (after : (e.session a (.setMetadata m)).2.DueInRange a) :
    e.MayInstall a m := by
  intro consistent reported answer
  obtain ⟨h, t, found, attached, rfl⟩ := pieceDeadlines_eq_ok.1 answer
  obtain ⟨t', done⟩ : ∃ t', t.setMetadata m = .ok t' :=
    ⟨_, Torrent.setMetadata_eq_ok.2 ⟨consistent, rfl⟩⟩
  have there : (e.session a (.setMetadata m)).2.objects.get? a =
      some (leave ((SessionCall.setMetadata m).transition e.defaultTrackers) h) := by
    rw [session_eq_attempt, get?_attempt, if_pos rfl, found]
    rfl
  refine (Torrent.dueInRange_setMetadata done).1 (dueInRange_iff.1 after _ t' there ?_)
  rw [torrent_leave_session, attached]
  exact congrArg (fun result => some (t.orSame result)) done

/-- What is in range stays so with any operation that installs no metadata that lacks a piece. -/
lemma DueInRange.act {issued : List Address} (sound : e.objects.Sound issued)
    (range : e.DueInRange a) {op : Op}
    (kept : ∀ m, op = .session a (.setMetadata m) → e.MayInstall a m) :
    (e.act op).2.DueInRange a := by
  rw [dueInRange_iff] at range ⊢
  intro h t found attached
  rcases torrent_act_cases sound found attached with
    ⟨params, t₀, made, rfl⟩ | ⟨h₀, t₀, found₀, attached₀, edits | ⟨m, rfl, done⟩⟩
  · intro d due
    obtain ⟨piece, there, -⟩ := Torrent.mem_pieceDeadlines.1 due
    simp [deadlines_ofParams made] at there
  · exact (range h₀ t₀ found₀ attached₀).edits edits
  · have consistent := (Torrent.setMetadata_eq_ok.1 done).1
    exact (Torrent.dueInRange_setMetadata done).2
      (kept m rfl consistent _ (pieceDeadlines_eq_ok.2 ⟨h₀, t₀, found₀, attached₀, rfl⟩))

/-- **Deadlines and pieces.** Throughout a run of any operations the pieces with deadlines are the
torrent's, iff no metadata is installed while the engine reports a deadline of a piece beyond it. -/
theorem due_in_range_run_iff (owner : ℕ) (settings : EngineSettings) (bus : Bus Event)
    (ops : List Op) :
    (∀ before, before <+: ops → ((create owner settings bus).run before).DueInRange a) ↔
      ∀ before m, before ++ [.session a (.setMetadata m)] <+: ops →
        ((create owner settings bus).run before).MayInstall a m := by
  constructor
  · intro range before m installs
    have after := range _ installs
    rw [run_append] at after
    exact DueInRange.mayInstall after
  · intro kept before
    induction before using List.reverseRecOn with
    | nil =>
      refine fun _ => dueInRange_iff.2 fun h t found => ?_
      simp [run, create, Arena.get?] at found
    | append_singleton before op ih =>
      intro inside
      obtain ⟨issued, told⟩ := told_run owner settings bus before
      have range := ih ((List.prefix_append _ _).trans inside)
      rw [run_append]
      exact range.act told.sound fun m installs => kept before m (installs ▸ inside)

/-- The torrent has three pieces when a deadline is set for the last, and then metadata with one
piece is installed: the deadline is still reported, though it could not be set again. -/
theorem due_beyond_last_piece :
    let e := (create 1 {} ⟨1, by decide, #[], 1⟩).run [
      .addTorrent (.ofMetadata .sample), .call ⟨1, 0, 1⟩ (.setPieceDeadline 2 100),
      .session ⟨1, 0, 1⟩
        (.setMetadata (.ofFiles "Sample Show" .sample 16 [("Sample Show/01.mkv", 16)]))]
    (e.session ⟨1, 0, 1⟩ .pieceDeadlines).1 = .ok [⟨2, 100⟩] ∧
      (e.call ⟨1, 0, 1⟩ (.setPieceDeadline 2 100)).1 = .error (.outOfRange "piece" 2 1) ∧
      ¬ e.DueInRange ⟨1, 0, 1⟩ := by
  intro e
  have reported : (e.session ⟨1, 0, 1⟩ .pieceDeadlines).1 = .ok [⟨2, 100⟩] := by decide +kernel
  have refused : (e.call ⟨1, 0, 1⟩ (.setPieceDeadline 2 100)).1 =
      .error (.outOfRange "piece" 2 1) := by
    decide +kernel
  refine ⟨reported, refused, fun range => ?_⟩
  have accepted := (range _ reported ⟨2, 100⟩ List.mem_cons_self).2 100
  cases refused.symm.trans accepted

end Engine

end TorrentHandle
