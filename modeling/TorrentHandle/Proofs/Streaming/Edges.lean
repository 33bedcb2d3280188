import Mathlib.Data.Set.Defs
import TorrentHandle.Proofs.Streaming.Selection
import TorrentHandle.Proofs.Torrent.Geometry

/-!
The ends of the payload in a plan. As long as playback goes nowhere else, every missing piece of the
header is planned. At the other end bytes are turned into pieces as if the last piece were as long
as all others: where it is shorter, the first of the last bytes may lie one piece before those that
are counted. `Metadata.TailFits` says when it does not, and then all of the footer is planned and
all of the possible footer is named.
-/

namespace TorrentHandle

/-- Rounding down commutes with a difference iff there is nothing to borrow. -/
lemma sub_div_le_iff {a b l : ℕ} (positive : 0 < l) (le : a ≤ b) :
    b / l - a / l ≤ (b - a) / l ↔ a % l ≤ b % l := by
  have whole_a := Nat.div_add_mod' a l
  have whole_b := Nat.div_add_mod' b l
  have order : a / l * l ≤ b / l * l := Nat.mul_le_mul_right l (Nat.div_le_div_right le)
  rw [Nat.le_div_iff_mul_le positive, Nat.sub_mul]
  omega

lemma ceilDiv_of_pos {a l : ℕ} (some : 0 < a) (positive : 0 < l) :
    a ⌈/⌉ l = (a - 1) / l + 1 := by
  rw [Nat.ceilDiv_eq_add_pred_div, show a + l - 1 = a - 1 + l by omega,
    Nat.add_div_right _ positive]

namespace Metadata

variable {m : Metadata} {size byte : ℕ}

def head (m : Metadata) (size : ℕ) : Set ℕ := {byte | byte < m.totalSize.toNat ∧ byte < size}

def tail (m : Metadata) (size : ℕ) : Set ℕ :=
  {byte | byte < m.totalSize.toNat ∧ m.totalSize.toNat ≤ byte + size}

/-- Where the last bytes of the payload begin. -/
def tailStart (m : Metadata) (size : ℕ) : ℕ := m.totalSize.toNat - size

/-- The last bytes fit into as many pieces as so many bytes fill: the part that is no whole piece is
not larger than the last piece, or they are the whole payload. -/
def TailFits (m : Metadata) (size : ℕ) : Prop :=
  m.totalSize.toNat ≤ size ∨
    (size - 1) % m.pieceLength.toNat ≤ (m.totalSize.toNat - 1) % m.pieceLength.toNat

instance (m : Metadata) (size : ℕ) : Decidable (m.TailFits size) :=
  inferInstanceAs (Decidable (_ ∨ _))

lemma tailStart_mem (some : 0 < size) (short : size < m.totalSize.toNat) :
    m.tailStart size ∈ m.tail size := by
  unfold tailStart tail
  rw [Set.mem_ofPred_eq]
  omega

lemma tailStart_le (inside : byte ∈ m.tail size) : m.tailStart size ≤ byte := by
  obtain ⟨-, reaches⟩ := inside
  unfold tailStart
  omega

section Consistent

variable (consistent : m.isConsistent = true) (positive : 0 < m.pieceLength.toNat)
include consistent positive

lemma pieceCount_eq : m.pieceCount.toNat = m.totalSize.toNat ⌈/⌉ m.pieceLength.toNat :=
  eq_of_forall_lt_iff fun piece => by
    rw [lt_pieceCount_iff consistent, lt_ceilDiv_iff positive]

/-- The first of the last bytes is in the pieces counted from the end iff these bytes fit. -/
lemma le_pieceOf_tailStart_iff (some : 0 < size) (short : size < m.totalSize.toNat) :
    m.pieceCount.toNat - size ⌈/⌉ m.pieceLength.toNat ≤ m.pieceOf (m.tailStart size) ↔
      m.TailFits size := by
  have difference : m.tailStart size = m.totalSize.toNat - 1 - (size - 1) := by
    unfold tailStart
    omega
  rw [pieceCount_eq consistent positive, ceilDiv_of_pos (by omega) positive,
    ceilDiv_of_pos some positive, Nat.add_sub_add_right, pieceOf, difference,
    sub_div_le_iff positive (by omega), TailFits, or_iff_right (by omega)]

/-- **What the pieces counted from the end hold.** They hold all of the last bytes iff these fit. -/
theorem forall_tail_iff :
    (∀ byte ∈ m.tail size,
      m.pieceCount.toNat - size ⌈/⌉ m.pieceLength.toNat ≤ m.pieceOf byte) ↔
        m.TailFits size := by
  by_cases whole : m.totalSize.toNat ≤ size
  · -- every piece is counted
    have all := (gc_mul_ceilDiv positive).monotone_l whole
    rw [← pieceCount_eq consistent positive] at all
    exact iff_of_true (fun byte _ => by omega) (.inl whole)
  rcases Nat.eq_zero_or_pos size with none | some
  · -- there is nothing to hold
    refine iff_of_true (fun byte inside => ?_) (.inr (by simp [none]))
    obtain ⟨below, reaches⟩ := inside
    omega
  have short : size < m.totalSize.toNat := by omega
  rw [← le_pieceOf_tailStart_iff consistent positive some short]
  -- the first byte is the one in question
  constructor
  · intro holds
    exact holds _ (tailStart_mem some short)
  · intro holds byte inside
    exact holds.trans (Nat.div_le_div_right (tailStart_le inside))

/-- The piece before those counted from the end is the only one that may be left out. -/
lemma le_pieceOf_succ (inside : byte ∈ m.tail size) :
    m.pieceCount.toNat - size ⌈/⌉ m.pieceLength.toNat ≤ m.pieceOf byte + 1 := by
  obtain ⟨below, reaches⟩ := inside
  have some : 0 < size := by omega
  have count := pieceCount_eq consistent positive
  rw [ceilDiv_of_pos (by omega) positive] at count
  have last : (m.totalSize.toNat - 1) / m.pieceLength.toNat ≤
      byte / m.pieceLength.toNat + (size - 1) / m.pieceLength.toNat + 1 := by
    have whole_byte := Nat.lt_div_mul_add positive (a := byte)
    have whole_size := Nat.lt_div_mul_add positive (a := size - 1)
    rw [← Nat.lt_succ_iff, Nat.div_lt_iff_lt_mul positive, Nat.succ_mul, Nat.succ_mul, Nat.add_mul]
    omega
  rw [count, ceilDiv_of_pos some positive, Nat.add_sub_add_right, Nat.sub_le_iff_le_add, pieceOf]
  omega

omit consistent in
lemma lt_min_ceilDiv_iff {piece : ℕ} :
    piece < min (size ⌈/⌉ m.pieceLength.toNat) m.pieceCount.toNat ↔
      piece < m.pieceCount.toNat ∧ piece * m.pieceLength.toNat < size := by
  rw [lt_min_iff, lt_ceilDiv_iff positive, and_comm]

end Consistent

end Metadata

/-! ### Edges of a plan -/

namespace Controller

open Metadata

variable {m : Metadata} {window : StreamingWindow} {events : List Progress} {piece : ℕ}

lemma piecesFor_eq (positive : 0 < m.pieceLength.toNat) (bytes : UInt64) :
    piecesFor m bytes = min (bytes.toNat ⌈/⌉ m.pieceLength.toNat) m.pieceCount.toNat := by
  refine if_neg fun none => ?_
  rw [none] at positive
  exact absurd positive (Nat.lt_irrefl 0)

/-- What a plan names while playback has gone nowhere else: missing pieces, in the window or at one
of the ends. -/
lemma mem_plan_of_still (still : ∀ event ∈ events, event.isSeek = false) :
    piece ∈ ((ofMetadata m window).run events).plan.pieces ↔
      piece ∈ ((ofMetadata m window).run events).window ∨ m.Missing events piece ∧
        (piece < piecesFor m window.headerSize ∨
          m.pieceCount.toNat - piecesFor m window.footerSize ≤ piece) := by
  rw [mem_plan_run, and_iff_right still]

lemma mem_window_of_lt (still : ∀ event ∈ events, event.isSeek = false)
    (missing : m.Missing events piece) (near : piece < window.windowSize.toNat) :
    piece ∈ ((ofMetadata m window).run events).window := by
  have few : (m.missingBetween events 0 piece).card ≤ piece - 0 :=
    (Finset.card_filter_le _ _).trans_eq (Nat.card_Ico 0 piece)
  rw [mem_window_run, Progress.playhead_of_still still]
  exact ⟨missing, Nat.zero_le piece, by omega⟩

lemma lt_of_mem_window (inside : piece ∈ (ofMetadata m window).window) :
    piece < window.windowSize.toNat := by
  change piece ∈ (Runs.below m.pieceCount.toNat).takeBetween 0 m.pieceCount.toNat
    window.windowSize.toNat at inside
  rw [Runs.takeBetween_eq, Runs.toList_below, List.filter_eq_self.2 fun p below => by
    simpa using below, List.take_range, List.mem_range] at inside
  omega

end Controller

/-! ### What is requested before playback goes elsewhere -/

namespace StreamingWindow

open Metadata Controller

variable {m : Metadata} {window : StreamingWindow}

/-- While playback has gone nowhere else, every missing piece that holds one of the bytes is
planned, whatever becomes of the plans. -/
def Requests (window : StreamingWindow) (m : Metadata) (bytes : Set ℕ) : Prop :=
  ∀ sink events p, Playback.Goes ⟨.ofMetadata m window, sink⟩ events p →
    (∀ event ∈ events, event.isSeek = false) →
    ∀ byte ∈ bytes, m.Missing events (m.pieceOf byte) → m.pieceOf byte ∈ p.controller.plan.pieces

/-- While playback has gone nowhere else, the plan names pieces up to the last one as those that
may hold the index of the container. -/
def Names (window : StreamingWindow) (m : Metadata) (first : ℕ) : Prop :=
  ∀ sink events p, Playback.Goes ⟨.ofMetadata m window, sink⟩ events p →
    (∀ event ∈ events, event.isSeek = false) →
    p.controller.plan.possibleFooter = some (first, m.pieceCount.toNat - 1)

section Consistent

variable (consistent : m.isConsistent = true) (positive : 0 < m.pieceLength.toNat)
include consistent positive

omit consistent in
lemma requests_head : window.Requests m (m.head window.headerSize.toNat) := by
  intro sink events p goes still byte inside missing
  rw [goes.controller_eq, mem_plan_of_still still, piecesFor_eq positive]
  have begins : m.pieceOf byte * m.pieceLength.toNat < window.headerSize.toNat :=
    (Nat.div_mul_le_self _ _).trans_lt inside.2
  exact .inr ⟨missing, .inl ((lt_min_ceilDiv_iff positive).2 ⟨missing.1, begins⟩)⟩

/-- The footer is requested if it fits, or if the one piece that may be left out of it is in the
window from the start or in the header. -/
lemma requests_tail
    (covered : m.TailFits window.footerSize.toNat ∨
      m.pieceOf (m.tailStart window.footerSize.toNat) < window.windowSize.toNat ∨
      m.pieceOf (m.tailStart window.footerSize.toNat) * m.pieceLength.toNat <
        window.headerSize.toNat) :
    window.Requests m (m.tail window.footerSize.toNat) := by
  intro sink events p goes still byte inside missing
  rw [goes.controller_eq, mem_plan_of_still still, piecesFor_eq positive, piecesFor_eq positive]
  by_cases counted : m.pieceCount.toNat - window.footerSize.toNat ⌈/⌉ m.pieceLength.toNat ≤
      m.pieceOf byte
  · exact .inr ⟨missing, .inr (by omega)⟩
  -- the piece is the one before those that are counted
  have start : m.pieceOf (m.tailStart window.footerSize.toNat) ≤ m.pieceOf byte :=
    Nat.div_le_div_right (tailStart_le inside)
  have some : 0 < window.footerSize.toNat := by
    obtain ⟨below, reaches⟩ := inside
    omega
  have short : window.footerSize.toNat < m.totalSize.toNat := by
    by_contra whole
    exact counted ((forall_tail_iff consistent positive).2 (.inl (by omega)) byte inside)
  have near := le_pieceOf_succ consistent positive (tailStart_mem some short)
  have same : m.pieceOf (m.tailStart window.footerSize.toNat) = m.pieceOf byte := by omega
  rw [same] at covered
  rcases covered with fits | window | header
  · exact absurd ((forall_tail_iff consistent positive).2 fits byte inside) counted
  · exact .inl (mem_window_of_lt still missing window)
  · exact .inr ⟨missing, .inl ((lt_min_ceilDiv_iff positive).2 ⟨missing.1, header⟩)⟩

lemma of_requests_tail (requests : window.Requests m (m.tail window.footerSize.toNat)) :
    m.TailFits window.footerSize.toNat ∨
      m.pieceOf (m.tailStart window.footerSize.toNat) < window.windowSize.toNat ∨
      m.pieceOf (m.tailStart window.footerSize.toNat) * m.pieceLength.toNat <
        window.headerSize.toNat := by
  by_cases trivially : window.footerSize.toNat = 0 ∨
      m.totalSize.toNat ≤ window.footerSize.toNat
  · left
    rcases trivially with none | whole
    · exact .inr (by simp [none])
    · exact .inl whole
  have some : 0 < window.footerSize.toNat := by omega
  have short : window.footerSize.toNat < m.totalSize.toNat := by omega
  -- the plan of the very first moment decides
  have missing : m.Missing [] (m.pieceOf (m.tailStart window.footerSize.toNat)) :=
    ⟨pieceOf_lt consistent (tailStart_mem some short).1, nofun⟩
  have still : ∀ event ∈ ([] : List Progress), event.isSeek = false := by simp
  have planned := requests (.log {}) [] _ .start still _ (tailStart_mem some short) missing
  change _ ∈ ((ofMetadata m window).run []).plan.pieces at planned
  rw [mem_plan_of_still still, piecesFor_eq positive, piecesFor_eq positive] at planned
  rcases planned with inside | ⟨-, header | footer⟩
  · exact .inr (.inl (lt_of_mem_window inside))
  · exact .inr (.inr ((lt_min_ceilDiv_iff positive).1 header).2)
  · exact .inl ((le_pieceOf_tailStart_iff consistent positive some short).1 (by omega))

omit consistent in
lemma names (some : 0 < window.possibleFooterSize.toNat) (pieces : 0 < m.pieceCount.toNat) :
    window.Names m
      (m.pieceCount.toNat - window.possibleFooterSize.toNat ⌈/⌉ m.pieceLength.toNat) := by
  intro sink events p goes still
  have edges : ((ofMetadata m window).run events).edges = true := edges_run.2 still
  have counted : 0 < window.possibleFooterSize.toNat ⌈/⌉ m.pieceLength.toNat := by
    rw [ceilDiv_of_pos some positive]
    exact Nat.succ_pos _
  have sizes := sameSizes_run (ofMetadata m window) events
  have possible : (ofMetadata m window).possibleFooterPieces =
      min (window.possibleFooterSize.toNat ⌈/⌉ m.pieceLength.toNat) m.pieceCount.toNat :=
    piecesFor_eq positive _
  have pieceCount : (ofMetadata m window).pieceCount = m.pieceCount.toNat := rfl
  rw [goes.controller_eq, plan, if_pos edges, sizes.possibleFooterPieces, sizes.pieceCount,
    possible, pieceCount]
  dsimp only
  rw [if_pos (by omega)]
  congr 2
  omega

end Consistent

/-- **The ends of the payload are requested.** Before playback goes elsewhere, every missing piece
of the header is planned. Every missing piece of the footer is planned iff the footer fits, unless
the piece that it begins in is in the window from the start or in the header. The pieces named for
the index of the container go up to the last one, and hold all of the possible footer iff it
fits. -/
theorem edges_requested_iff (consistent : m.isConsistent = true)
    (positive : 0 < m.pieceLength.toNat) (window : StreamingWindow) :
    let footer := window.footerSize.toNat
    let possible := window.possibleFooterSize.toNat
    window.Requests m (m.head window.headerSize.toNat) ∧
    (window.Requests m (m.tail footer) ↔ m.TailFits footer ∨
      m.pieceOf (m.tailStart footer) < window.windowSize.toNat ∨
      m.pieceOf (m.tailStart footer) * m.pieceLength.toNat < window.headerSize.toNat) ∧
    (0 < possible → 0 < m.pieceCount.toNat → ∃ first, window.Names m first ∧
      ((∀ byte ∈ m.tail possible, m.pieceOf byte ∈ Set.Icc first (m.pieceCount.toNat - 1)) ↔
        m.TailFits possible)) := by
  dsimp only
  refine ⟨requests_head positive, ⟨of_requests_tail consistent positive,
    requests_tail consistent positive⟩, fun some pieces => ⟨_, names positive some pieces, ?_⟩⟩
  rw [← forall_tail_iff consistent positive]
  refine forall₂_congr fun byte inside => ?_
  have below := pieceOf_lt consistent inside.1
  rw [Set.mem_Icc]
  omega

theorem uneven_edges_requested :
    let m := Metadata.ofFiles "episode" .sample 16 [("episode.mkv", 50)]
    let window : StreamingWindow := ⟨1, 16, 18, 16⟩
    m.isConsistent = true ∧ 0 < m.pieceLength.toNat ∧ window.Requests m (m.head 16) ∧
      window.Requests m (m.tail 18) ∧ ∃ first, window.Names m first ∧
        ¬ ∀ byte ∈ m.tail 16, m.pieceOf byte ∈ Set.Icc first 3 := by
  intro m window
  have consistent : m.isConsistent = true := by decide +kernel
  have positive : 0 < m.pieceLength.toNat := by decide +kernel
  obtain ⟨head, tail, named⟩ := edges_requested_iff consistent positive window
  obtain ⟨first, names, holds⟩ := named (by decide) (by decide +kernel)
  refine ⟨consistent, positive, head, tail.2 (.inl (by decide +kernel)), first, names, ?_⟩
  exact fun all => absurd (holds.1 all) (by decide +kernel)

/-- Sixteen of fifty bytes reach back into the piece before the last one, but only the last one is
requested and named. -/
theorem short_last_piece_cuts_footer :
    let m := Metadata.ofFiles "episode" .sample 16 [("episode.mkv", 50)]
    let window : StreamingWindow := ⟨1, 16, 16, 16⟩
    m.isConsistent = true ∧ 34 ∈ m.tail 16 ∧ m.pieceOf 34 = 2 ∧ m.Missing [] 2 ∧
      (Controller.ofMetadata m window).plan = { pieces := [0, 3], possibleFooter := some (3, 3) } ∧
      ¬ window.Requests m (m.tail 16) ∧ ¬ ∃ first, window.Names m first ∧
        ∀ byte ∈ m.tail 16, m.pieceOf byte ∈ Set.Icc first 3 := by
  intro m window
  have inside : 34 ∈ m.tail 16 := by
    show 34 < m.totalSize.toNat ∧ m.totalSize.toNat ≤ 34 + 16
    decide +kernel
  have piece : m.pieceOf 34 = 2 := by decide +kernel
  have missing : m.Missing [] 2 := ⟨by decide +kernel, nofun⟩
  have plan : (Controller.ofMetadata m window).plan =
      { pieces := [0, 3], possibleFooter := some (3, 3) } := by
    decide +kernel
  have still : ∀ event ∈ ([] : List Progress), event.isSeek = false := by simp
  refine ⟨by decide +kernel, inside, piece, missing, plan, fun requests => ?_, ?_⟩
  · have planned := requests (.log {}) [] _ .start still 34 inside (piece ▸ missing)
    rw [piece, plan] at planned
    exact absurd planned (by decide)
  · rintro ⟨first, names, holds⟩
    have named := names (.log {}) [] _ .start still
    rw [plan] at named
    obtain rfl : 3 = first := congrArg Prod.fst (Option.some.inj named)
    have reached := (holds 34 inside).1
    rw [piece] at reached
    exact absurd reached (by decide)

end StreamingWindow

end TorrentHandle
