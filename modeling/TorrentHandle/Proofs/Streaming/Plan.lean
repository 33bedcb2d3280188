import Mathlib.Data.Finset.Card
import Mathlib.Data.List.Basic
import Mathlib.Data.List.Induction
import Mathlib.Order.Interval.Finset.Nat
import TorrentHandle.Streaming.Sink

/-!
Plans of a playback. A plan names unfinished pieces in ascending order, and when a piece finishes it
loses no other piece: each of its parts is the first so many of some unfinished pieces, and these
come closer to the front. What a playback knows after some events is read off the events: sinks and
worlds have no part in it.
-/

namespace TorrentHandle

/-! ### First pieces -/

/-- What is among the first stays there when something else goes. -/
lemma mem_take_filter_ne {pieces : List ℕ} {piece gone count : ℕ} (stays : piece ≠ gone)
    (there : piece ∈ pieces.take count) : piece ∈ (pieces.filter (· != gone)).take count := by
  induction pieces generalizing count with
  | nil => simp at there
  | cons first rest ih =>
    cases count with
    | zero => simp at there
    | succ count =>
      rw [List.take_succ_cons, List.mem_cons] at there
      by_cases here : first = gone
      · -- the piece is after the one that goes, so it moves on by one place
        rw [List.filter_cons_of_neg (by simpa using here)]
        have later : piece ∈ rest.take count := there.resolve_left (here ▸ stays)
        exact List.take_subset_take_left _ (Nat.le_succ count) (ih later)
      · rw [List.filter_cons_of_pos (by simpa using here), List.take_succ_cons, List.mem_cons]
        exact there.imp_right ih

/-- In ascending order, a piece is among the first `count` iff fewer than `count` come before it. -/
lemma mem_take_iff {pieces : List ℕ} {piece count : ℕ} (ascending : pieces.Pairwise (· < ·)) :
    piece ∈ pieces.take count ↔
      piece ∈ pieces ∧ (pieces.filter (· < piece)).length < count := by
  induction ascending generalizing count with
  | nil => simp
  | @cons first rest above _ ih =>
    cases count with
    | zero => simp
    | succ count =>
      rw [List.take_succ_cons, List.mem_cons, List.mem_cons, ih]
      rcases Nat.lt_trichotomy first piece with before | rfl | after
      · rw [List.filter_cons_of_pos (by simpa using before), List.length_cons]
        have other : piece ≠ first := before.ne'
        simp only [other, false_or, Nat.add_lt_add_iff_right]
      · have none : rest.filter (· < first) = [] :=
          List.filter_eq_nil_iff.2 fun p inside => by simpa using (above p inside).le
        rw [List.filter_cons_of_neg (by simp), none]
        simp
      · -- the piece is below all of the list
        have new : piece ∉ rest := fun inside => by
          have := above piece inside
          omega
        have other : piece ≠ first := after.ne
        simp [new, other]

namespace Runs

variable {s : Runs} {piece gone first stop count : ℕ}

lemma mem_of_mem_takeBetween (there : piece ∈ s.takeBetween first stop count) :
    piece ∈ s.toList := by
  rw [takeBetween_eq] at there
  exact List.mem_of_mem_filter (List.mem_of_mem_take there)

lemma mem_takeBetween_erase (stays : piece ≠ gone)
    (there : piece ∈ s.takeBetween first stop count) :
    piece ∈ (s.erase gone).takeBetween first stop count := by
  rw [takeBetween_eq] at there ⊢
  rw [toList_erase, List.filter_comm]
  exact mem_take_filter_ne stays there

lemma bounds_of_mem_takeBetween (there : piece ∈ s.takeBetween first stop count) :
    first ≤ piece ∧ piece < stop := by
  rw [takeBetween_eq] at there
  simpa using (List.mem_filter.1 (List.mem_of_mem_take there)).2

/-- A piece is among the first `count` from `first` on iff fewer than `count` of the set come before
it there. -/
lemma mem_takeBetween_iff (ascending : s.toList.Pairwise (· < ·)) :
    piece ∈ s.takeBetween first stop count ↔ piece ∈ s.toList ∧ first ≤ piece ∧ piece < stop ∧
      ((Finset.Ico first piece).filter (· ∈ s.toList)).card < count := by
  have inside := ascending.filter fun p => first ≤ p && p < stop
  rw [takeBetween_eq, mem_take_iff inside, List.mem_filter, Bool.and_eq_true, decide_eq_true_eq,
    decide_eq_true_eq, and_assoc, and_assoc]
  refine and_congr_right fun _ => and_congr_right fun _ => and_congr_right fun below => ?_
  have distinct := (inside.filter (· < piece)).imp Nat.ne_of_lt
  have same : ((s.toList.filter fun p => first ≤ p && p < stop).filter (· < piece)).toFinset =
      (Finset.Ico first piece).filter (· ∈ s.toList) := by
    ext p
    simp only [List.mem_toFinset, List.mem_filter, Bool.and_eq_true, decide_eq_true_eq,
      Finset.mem_filter, Finset.mem_Ico]
    constructor
    · rintro ⟨⟨there, above, -⟩, before⟩
      exact ⟨⟨above, before⟩, there⟩
    · rintro ⟨⟨above, before⟩, there⟩
      exact ⟨⟨there, above, before.trans below⟩, before⟩
  rw [← List.toFinset_card_of_nodup distinct, same]

/-- The number of pieces asked for does not matter as far as it reaches. -/
lemma mem_takeBetween_of_lt (ascending : s.toList.Pairwise (· < ·)) (there : piece ∈ s.toList)
    (above : first ≤ piece) (below : piece < stop) (near : piece < first + count) :
    piece ∈ s.takeBetween first stop count := by
  have few : ((Finset.Ico first piece).filter (· ∈ s.toList)).card ≤ piece - first :=
    (Finset.card_filter_le _ _).trans_eq (Nat.card_Ico first piece)
  exact (mem_takeBetween_iff ascending).2 ⟨there, above, below, by omega⟩

lemma takeBetween_congr {s' : Runs} (same : s'.toList = s.toList) :
    s'.takeBetween first stop count = s.takeBetween first stop count := by
  rw [takeBetween_eq, takeBetween_eq, same]

lemma ascending_takeBetween (ascending : s.toList.Pairwise (· < ·)) :
    (s.takeBetween first stop count).Pairwise (· < ·) := by
  rw [takeBetween_eq]
  exact (ascending.filter _).sublist (List.take_sublist _ _)

end Runs

/-! ### Plans -/

namespace Controller

variable {c : Controller} {piece : ℕ}

lemma mem_plan : piece ∈ c.plan.pieces ↔
    piece ∈ c.window ∨ c.edges = true ∧ (piece ∈ c.header ∨ piece ∈ c.footer) := by
  unfold plan
  split
  · rename_i edges
    rw [PieceSet.mem_toList_ofList]
    simp [edges]
  · rename_i none
    simp [none]

lemma ascending_plan (ascending : c.unfinished.toList.Pairwise (· < ·)) :
    c.plan.pieces.Pairwise (· < ·) := by
  unfold plan
  split
  · exact PieceSet.ascending_toList (.ofList (c.window ++ c.header ++ c.footer))
  · exact Runs.ascending_takeBetween ascending

lemma mem_unfinished_of_mem_plan (planned : piece ∈ c.plan.pieces) :
    piece ∈ c.unfinished.toList := by
  rcases mem_plan.1 planned with window | ⟨-, header | footer⟩
  · exact Runs.mem_of_mem_takeBetween window
  · exact Runs.mem_of_mem_takeBetween header
  · exact Runs.mem_of_mem_takeBetween footer

lemma mem_header (ascending : c.unfinished.toList.Pairwise (· < ·)) :
    piece ∈ c.header ↔ piece ∈ c.unfinished.toList ∧ piece < c.headerPieces := by
  constructor
  · intro there
    exact ⟨Runs.mem_of_mem_takeBetween there, (Runs.bounds_of_mem_takeBetween there).2⟩
  · rintro ⟨there, below⟩
    exact Runs.mem_takeBetween_of_lt ascending there (Nat.zero_le _) below (by omega)

lemma mem_footer (ascending : c.unfinished.toList.Pairwise (· < ·)) :
    piece ∈ c.footer ↔ piece ∈ c.unfinished.toList ∧
      c.pieceCount - c.footerPieces ≤ piece ∧ piece < c.pieceCount := by
  constructor
  · intro there
    exact ⟨Runs.mem_of_mem_takeBetween there, Runs.bounds_of_mem_takeBetween there⟩
  · rintro ⟨there, above, below⟩
    exact Runs.mem_takeBetween_of_lt ascending there above below (by omega)

/-- A piece that finishes takes no other piece out of the plan. -/
lemma mem_plan_downloaded {gone : UInt32} (stays : piece ≠ gone.toNat)
    (planned : piece ∈ c.plan.pieces) : piece ∈ (c.advance (.downloaded gone)).plan.pieces := by
  rw [mem_plan] at planned ⊢
  rcases planned with window | ⟨edges, header | footer⟩
  · exact .inl (Runs.mem_takeBetween_erase stays window)
  · exact .inr ⟨edges, .inl (Runs.mem_takeBetween_erase stays header)⟩
  · exact .inr ⟨edges, .inr (Runs.mem_takeBetween_erase stays footer)⟩

/-- The plan depends on the unfinished pieces as a list only. -/
lemma plan_downloaded {gone : UInt32}
    (same : (c.advance (.downloaded gone)).unfinished.toList = c.unfinished.toList) :
    (c.advance (.downloaded gone)).plan = c.plan := by
  have parts : ∀ first stop count,
      (c.advance (.downloaded gone)).unfinished.takeBetween first stop count =
        c.unfinished.takeBetween first stop count :=
    fun _ _ _ => Runs.takeBetween_congr same
  unfold plan window header footer
  simp only [parts]
  rfl

end Controller

/-! ### What a playback knows -/

def Progress.isSeek : Progress → Bool
  | .seek _ => true
  | .resumed | .downloaded _ => false

/-- Where playback goes, if elsewhere. -/
def Progress.target? : Progress → Option ℕ
  | .seek piece => some piece.toNat
  | .resumed | .downloaded _ => none

/-- Where playback is after events: where the latest seek has taken it, or at the first piece. -/
def Progress.playhead (events : List Progress) : ℕ :=
  (events.reverse.findSome? target?).getD 0

lemma Progress.playhead_of_still {events : List Progress}
    (still : ∀ event ∈ events, event.isSeek = false) : playhead events = 0 := by
  have none : events.reverse.findSome? target? = none := by
    rw [List.findSome?_eq_none_iff]
    intro event inside
    cases event with
    | seek target => cases still _ (List.mem_reverse.1 inside)
    | resumed => rfl
    | downloaded piece => rfl
  rw [playhead, none, Option.getD_none]

/-- A piece that the torrent has and that no event has told to be there. -/
def Metadata.Missing (m : Metadata) (events : List Progress) (piece : ℕ) : Prop :=
  piece < m.pieceCount.toNat ∧ .downloaded (.ofNat piece) ∉ events

namespace Controller

variable {c : Controller} {events : List Progress} {m : Metadata} {window : StreamingWindow}

def run (c : Controller) (events : List Progress) : Controller := events.foldl advance c

lemma run_concat (c : Controller) (events : List Progress) (event : Progress) :
    c.run (events ++ [event]) = (c.run events).advance event := List.foldl_concat ..

/-- The sizes and the number of pieces are the same. -/
structure SameSizes (c c' : Controller) : Prop where
  pieceCount : c.pieceCount = c'.pieceCount
  headerPieces : c.headerPieces = c'.headerPieces
  footerPieces : c.footerPieces = c'.footerPieces
  possibleFooterPieces : c.possibleFooterPieces = c'.possibleFooterPieces
  windowSize : c.windowSize = c'.windowSize

lemma sameSizes_run (c : Controller) (events : List Progress) : (c.run events).SameSizes c := by
  induction events using List.reverseRecOn with
  | nil => exact ⟨rfl, rfl, rfl, rfl, rfl⟩
  | append_singleton events event ih =>
    obtain ⟨pieceCount, headerPieces, footerPieces, possibleFooterPieces, windowSize⟩ := ih
    rw [run_concat]
    cases event <;>
      exact ⟨pieceCount, headerPieces, footerPieces, possibleFooterPieces, windowSize⟩

lemma playhead_run (m : Metadata) (window : StreamingWindow) (events : List Progress) :
    ((ofMetadata m window).run events).playhead = Progress.playhead events := by
  induction events using List.reverseRecOn with
  | nil => rfl
  | append_singleton events event ih =>
    rw [run_concat, Progress.playhead, List.reverse_concat, List.findSome?_cons]
    cases event with
    | seek target => rfl
    | resumed => exact ih
    | downloaded piece => exact ih

lemma edges_run : ((ofMetadata m window).run events).edges = true ↔
    ∀ event ∈ events, event.isSeek = false := by
  induction events using List.reverseRecOn with
  | nil => simp [run, ofMetadata]
  | append_singleton events event ih =>
    rw [run_concat, List.forall_mem_append, List.forall_mem_singleton]
    cases event with
    | seek target => simp [advance, Progress.isSeek]
    | resumed => simpa [advance, Progress.isSeek] using ih
    | downloaded piece => simpa [advance, Progress.isSeek] using ih

lemma toList_unfinished_run (m : Metadata) (window : StreamingWindow) (events : List Progress) :
    ((ofMetadata m window).run events).unfinished.toList =
      (List.range m.pieceCount.toNat).filter fun piece => .downloaded (.ofNat piece) ∉ events := by
  induction events using List.reverseRecOn with
  | nil =>
    rw [List.filter_eq_self.2 fun _ _ => by simp]
    exact Runs.toList_below _
  | append_singleton events event ih =>
    rw [run_concat]
    cases event with
    | downloaded gone =>
      refine (Runs.toList_erase _ _).trans ?_
      rw [ih, List.filter_filter]
      refine List.filter_congr fun piece inside => ?_
      -- a piece of the torrent and its number as a word are the same
      have small : piece < UInt32.size :=
        Nat.lt_trans (List.mem_range.1 inside) m.pieceCount.toNat_lt
      have same : UInt32.ofNat piece = gone ↔ piece = gone.toNat := by
        rw [← UInt32.toNat_inj, UInt32.toNat_ofNat_of_lt' small]
      by_cases here : piece = gone.toNat <;> simp [same, here]
    | resumed => simpa [advance] using ih
    | seek target => simpa [advance] using ih

lemma ascending_unfinished_run (m : Metadata) (window : StreamingWindow)
    (events : List Progress) :
    ((ofMetadata m window).run events).unfinished.toList.Pairwise (· < ·) := by
  rw [toList_unfinished_run]
  exact List.pairwise_lt_range.filter _

lemma mem_unfinished_run {piece : ℕ} :
    piece ∈ ((ofMetadata m window).run events).unfinished.toList ↔ m.Missing events piece := by
  rw [toList_unfinished_run, List.mem_filter, List.mem_range, decide_eq_true_eq]
  rfl

end Controller

/-- A playback takes in events one after the other, each in any world, whether its plans are
accepted or not. -/
inductive Playback.Goes (p : Playback) : List Progress → Playback → Prop where
  | start : Goes p [] p
  | handle {events : List Progress} {p' : Playback} (before : Goes p events p')
      (event : Progress) (w : World) : Goes p (events ++ [event]) (p'.handle event w).2.1

lemma Playback.Goes.controller_eq {p p' : Playback} {events : List Progress}
    (goes : p.Goes events p') : p'.controller = p.controller.run events := by
  induction goes with
  | start => rfl
  | handle before event w ih =>
    rw [Controller.run_concat, ← ih]
    unfold Playback.handle
    split <;> rfl

end TorrentHandle
