import TorrentHandle.Proofs.Streaming.Selection

/-!
What a finished piece does to a plan. Each part of a plan is the first so many of some missing
pieces: a piece that is not among them leaves them as they are, and one that is makes room for the
next after them and for no other. Header and footer are all that is missing there, so only the
window is refilled.
-/

namespace TorrentHandle

/-! ### First pieces -/

section First

variable {pieces : List ℕ} {piece gone count : ℕ}

/-- What is not among the first makes no room when it goes. -/
lemma take_filter_ne (apart : gone ∉ pieces.take count) :
    (pieces.filter (· != gone)).take count = pieces.take count := by
  induction pieces generalizing count with
  | nil => rfl
  | cons first rest ih =>
    cases count with
    | zero => simp
    | succ count =>
      rw [List.take_succ_cons, List.mem_cons, not_or] at apart
      have stays : first ≠ gone := Ne.symm apart.1
      rw [List.filter_cons_of_pos (by simpa using stays), List.take_succ_cons,
        List.take_succ_cons, ih apart.2]

/-- When a piece goes, the first are among those that were the first and the one after them. -/
lemma mem_take_succ_of_filter_ne (distinct : pieces.Nodup)
    (there : piece ∈ (pieces.filter (· != gone)).take count) : piece ∈ pieces.take (count + 1) := by
  induction distinct generalizing count with
  | nil => simp at there
  | @cons first rest new _ ih =>
    rw [List.take_succ_cons, List.mem_cons]
    by_cases here : first = gone
    · -- it goes at the front, and all others move up
      rw [List.filter_cons_of_neg (by simpa using here)] at there
      have later : gone ∉ rest.take count := fun inside =>
        new gone (List.mem_of_mem_take inside) here
      rw [take_filter_ne later] at there
      exact .inr there
    · rw [List.filter_cons_of_pos (by simpa using here)] at there
      cases count with
      | zero => simp at there
      | succ count =>
        rw [List.take_succ_cons, List.mem_cons] at there
        exact there.imp_right ih

end First

namespace Runs

variable {s : Runs} {piece gone first stop count : ℕ}

lemma takeBetween_erase (apart : gone ∉ s.takeBetween first stop count) :
    (s.erase gone).takeBetween first stop count = s.takeBetween first stop count := by
  rw [takeBetween_eq] at apart
  rw [takeBetween_eq, takeBetween_eq, toList_erase, List.filter_comm]
  exact take_filter_ne apart

/-- A piece that is new among the first is the one that came after them. -/
lemma new_in_takeBetween_erase (gone first stop count : ℕ)
    (ascending : s.toList.Pairwise (· < ·)) : ∃ next : Option ℕ,
    ∀ piece ∈ (s.erase gone).takeBetween first stop count,
      piece ∉ s.takeBetween first stop count →
      next = some piece ∧ ∀ other ∈ s.takeBetween first stop count, other < piece := by
  have inside := ascending.filter fun p => first ≤ p && p < stop
  generalize split : (s.toList.filter fun p => first ≤ p && p < stop) = pieces at inside
  have order := inside.sublist (List.take_sublist (count + 1) pieces)
  rw [List.take_add_one, List.pairwise_append] at order
  refine ⟨pieces[count]?, fun piece there new => ?_⟩
  rw [takeBetween_eq, toList_erase, List.filter_comm, split] at there
  rw [takeBetween_eq, split] at new ⊢
  have among := mem_take_succ_of_filter_ne (inside.imp Nat.ne_of_lt) there
  rw [List.take_add_one, List.mem_append] at among
  have next := among.resolve_left new
  exact ⟨Option.mem_toList.1 next, fun other before => order.2.2 other before piece next⟩

end Runs

/-! ### A finished piece -/

namespace Controller

variable {c : Controller} {gone : UInt32} {piece : ℕ}

lemma plan_downloaded_of_notMem (unplanned : gone.toNat ∉ c.plan.pieces) :
    (c.advance (.downloaded gone)).plan = c.plan := by
  rw [mem_plan, not_or] at unplanned
  obtain ⟨outside, edges⟩ := unplanned
  have window : (c.advance (.downloaded gone)).window = c.window :=
    Runs.takeBetween_erase outside
  unfold plan
  rw [window]
  by_cases requested : c.edges = true
  · have ends : gone.toNat ∉ c.header ∧ gone.toNat ∉ c.footer := by
      rw [← not_or]
      exact fun inside => edges ⟨requested, inside⟩
    have header : (c.advance (.downloaded gone)).header = c.header :=
      Runs.takeBetween_erase ends.1
    have footer : (c.advance (.downloaded gone)).footer = c.footer :=
      Runs.takeBetween_erase ends.2
    rw [header, footer]
    rfl
  · have still : (c.advance (.downloaded gone)).edges = c.edges := rfl
    rw [still, if_neg requested, if_neg requested]

lemma toList_unfinished_downloaded (c : Controller) (gone : UInt32) :
    (c.advance (.downloaded gone)).unfinished.toList =
      c.unfinished.toList.filter (· != gone.toNat) := Runs.toList_erase _ _

lemma mem_unfinished_downloaded : piece ∈ (c.advance (.downloaded gone)).unfinished.toList ↔
    piece ∈ c.unfinished.toList ∧ piece ≠ gone.toNat := by
  rw [toList_unfinished_downloaded, List.mem_filter, bne_iff_ne]

lemma mem_window_of_new (ascending : c.unfinished.toList.Pairwise (· < ·))
    (planned : piece ∈ (c.advance (.downloaded gone)).plan.pieces)
    (new : piece ∉ c.plan.pieces) :
    piece ∈ (c.advance (.downloaded gone)).window ∧ piece ∉ c.window := by
  have ascending' : (c.advance (.downloaded gone)).unfinished.toList.Pairwise (· < ·) := by
    rw [toList_unfinished_downloaded]
    exact ascending.filter _
  have missing := (mem_unfinished_downloaded.1 (mem_unfinished_of_mem_plan planned)).1
  rw [mem_plan, not_or] at new
  rcases mem_plan.1 planned with window | ⟨edges, header | footer⟩
  · exact ⟨window, new.1⟩
  · have below := ((mem_header ascending').1 header).2
    exact absurd ⟨edges, .inl ((mem_header ascending).2 ⟨missing, below⟩)⟩ new.2
  · have bounds := ((mem_footer ascending').1 footer).2
    exact absurd ⟨edges, .inr ((mem_footer ascending).2 ⟨missing, bounds⟩)⟩ new.2

/-- What becomes of a plan when a piece has finished. A plan that does not name the piece stays as
it is. One that does keeps all others, and gets at most one more, which is missing and beyond the
window as it was. -/
structure Refills (c c' : Controller) (m : Metadata) (events : List Progress) (gone : ℕ) :
    Prop where
  same : gone ∉ c.plan.pieces → c'.plan = c.plan
  keeps : ∀ piece ∈ c.plan.pieces, piece ∈ c'.plan.pieces ↔ piece ≠ gone
  single : ∀ piece ∈ c'.plan.pieces, ∀ other ∈ c'.plan.pieces,
    piece ∉ c.plan.pieces → other ∉ c.plan.pieces → piece = other
  beyond : ∀ piece ∈ c'.plan.pieces, piece ∉ c.plan.pieces →
    m.Missing events piece ∧ ∀ other ∈ c.window, other < piece
  possibleFooter : c'.plan.possibleFooter = c.plan.possibleFooter

lemma possibleFooter_downloaded (c : Controller) (gone : UInt32) :
    (c.advance (.downloaded gone)).plan.possibleFooter = c.plan.possibleFooter := by
  have still : (c.advance (.downloaded gone)).edges = c.edges := rfl
  unfold plan
  rw [still]
  split <;> rfl

lemma refills_run (m : Metadata) (window : StreamingWindow) (events : List Progress)
    (gone : UInt32) : ((ofMetadata m window).run events).Refills
      ((ofMetadata m window).run (events ++ [.downloaded gone])) m (events ++ [.downloaded gone])
      gone.toNat := by
  have ascending := ascending_unfinished_run m window events
  have missing : ∀ piece ∈ ((ofMetadata m window).run (events ++ [.downloaded gone])).plan.pieces,
      m.Missing (events ++ [.downloaded gone]) piece :=
    fun piece planned => mem_unfinished_run.1 (mem_unfinished_of_mem_plan planned)
  rw [run_concat] at missing ⊢
  generalize (ofMetadata m window).run events = c at ascending missing
  obtain ⟨next, refilled⟩ :=
    Runs.new_in_takeBetween_erase gone.toNat c.playhead c.pieceCount c.windowSize ascending
  have new : ∀ piece ∈ (c.advance (.downloaded gone)).plan.pieces, piece ∉ c.plan.pieces →
      next = some piece ∧ ∀ other ∈ c.window, other < piece := by
    intro piece planned new
    obtain ⟨inside, outside⟩ := mem_window_of_new ascending planned new
    exact refilled piece inside outside
  refine ⟨plan_downloaded_of_notMem, fun piece planned => ⟨?_, fun stays => ?_⟩, ?_, ?_,
    possibleFooter_downloaded c gone⟩
  · intro still
    exact (mem_unfinished_downloaded.1 (mem_unfinished_of_mem_plan still)).2
  · exact mem_plan_downloaded stays planned
  · intro piece planned other planned' new₁ new₂
    have same := (new piece planned new₁).1.symm.trans (new other planned' new₂).1
    exact Option.some.inj same
  · intro piece planned unplanned
    exact ⟨missing piece planned, (new piece planned unplanned).2⟩

end Controller

/-- **A finished piece moves the window by at most one.** After any events, each taken in whether
the plan before was accepted or not, a piece that is told to be there leaves the plan, and at most
one takes its place; the range that may hold the index of the container is the same. -/
theorem Playback.finished_piece_refills {m : Metadata} {window : StreamingWindow} {sink : Sink}
    {events : List Progress} {p : Playback}
    (goes : Playback.Goes ⟨.ofMetadata m window, sink⟩ events p) (piece : UInt32) (w : World) :
    p.controller.Refills (p.handle (.downloaded piece) w).2.1.controller m
      (events ++ [.downloaded piece]) piece.toNat := by
  have goes' := goes.handle (.downloaded piece) w
  rw [goes.controller_eq, goes'.controller_eq]
  exact Controller.refills_run m window events piece

theorem Playback.sample_piece_refills :
    let window : StreamingWindow := ⟨1, 0, 16, 16⟩
    let start : Playback := ⟨.ofMetadata .sample window, .log { failOn := [2] }⟩
    ∃ p, start.Goes [.resumed] p ∧ p.controller.plan.pieces = [0, 2] ∧
      (p.handle (.downloaded 0) {}).1.isOk = false ∧
      (p.handle (.downloaded 0) {}).2.1.controller.plan.pieces = [1, 2] ∧
      p.controller.Refills (p.handle (.downloaded 0) {}).2.1.controller .sample
        [.resumed, .downloaded 0] 0 := by
  intro window start
  have goes := (Playback.Goes.start (p := start)).handle .resumed {}
  exact ⟨_, goes, by decide +kernel, by decide +kernel, by decide +kernel,
    finished_piece_refills goes 0 {}⟩

end TorrentHandle
