import Mathlib.Data.List.Sort
import Mathlib.Order.RelClasses
import TorrentHandle.Proofs.Engine.Hosts
import TorrentHandle.Proofs.Torrent.Coherence
import TorrentHandle.Streaming.Sink

/-!
What a deadline sink does to the torrent of its proxy. Calls that are passed on arrive at the
torrent whatever stands in between; taking a plan away and setting the next one then comes to a
change of the torrent's deadlines, and those of the plan are left if no others escape.
-/

namespace TorrentHandle

/-! ### Calls that arrive -/

lemma toNat_ofNat_of_lt {m : Metadata} {piece : ℕ} (inside : piece < m.pieceCount.toNat) :
    (UInt32.ofNat piece).toNat = piece :=
  UInt32.toNat_ofNat_of_lt' (inside.trans m.pieceCount.toNat_lt)

section Arrive

variable {h h' : Host} {engine : ℕ} {a : Address} {e e' : Engine} {t t' : Torrent}

def Host.torrent? (h : Host) (engine : ℕ) (a : Address) : Option Torrent :=
  h.engines[engine]?.bind fun e => (e.objects.get? a).bind HandleObject.torrent

lemma Host.torrent?_eq_some : h.torrent? engine a = some t ↔
    ∃ e o, h.engines[engine]? = some e ∧ e.objects.get? a = some o ∧ o.torrent = some t := by
  simp only [Host.torrent?, Option.bind_eq_some_iff]
  grind

lemma Host.torrent?_set (here : h.engines[engine]? = some e)
    (engines : h'.engines = h.engines.setIfInBounds engine e') :
    h'.torrent? engine a = (e'.objects.get? a).bind HandleObject.torrent := by
  rw [Host.torrent?, engines, Host.getElem?_set here, if_pos rfl, Option.bind_some]

/-- A proxy refers to the torrent at an address of an engine, and calls arrive there. -/
structure Proxy.Holds (p : Proxy) (h : Host) (engine : ℕ) (a : Address) (t : Torrent) : Prop where
  address : p.address = some a
  target : h.target? p.endpoint = some engine
  torrent : h.torrent? engine a = some t

namespace Proxy.Holds

variable {p : Proxy} {m : Metadata} {piece : ℕ}

lemma forward (holds : p.Holds h engine a t) {c : Call} {reply : c.Reply} (plain : c ≠ .reloadFile)
    (done : ∀ (e : Engine) (o : HandleObject), e.objects.get? a = some o → o.torrent = some t →
      e.call a c =
        (.ok reply, { e with objects := e.objects.set a { o with torrent := some t' } })) :
    ∃ h', p.forward c h = (.ok reply, h') ∧ p.Holds h' engine a t' := by
  obtain ⟨e, o, here, found, attached⟩ := Host.torrent?_eq_some.1 holds.torrent
  obtain ⟨answer, engines, target⟩ := Host.call_of_target (a := a) (.inl plain) holds.target here
  rw [done e o found attached] at answer engines
  refine ⟨(h.call a c p.endpoint).2, ?_, holds.address, target, ?_⟩
  · simp only [Proxy.forward, holds.address, answer, Except.mapError]
  · rw [Host.torrent?_set here engines]
    simp [Arena.get?_set, found]

lemma resetDeadline (holds : p.Holds h engine a t) (inside : piece < m.pieceCount.toNat) :
    ∃ h', p.forward (.resetPieceDeadline (UInt32.ofNat piece)) h = (.ok (), h') ∧
      p.Holds h' engine a { t with deadlines := t.deadlines.erase piece } := by
  have done : t.resetDeadline (UInt32.ofNat piece) =
      { t with deadlines := t.deadlines.erase piece } := by
    rw [Torrent.resetDeadline, toNat_ofNat_of_lt inside]
  exact holds.forward nofun fun e o found attached =>
    (Engine.call_eq_attempt _).trans (Engine.attempt_update found attached (congrArg _ done))

lemma setDeadline (holds : p.Holds h engine a t) (known : t.metadata = some m)
    (inside : piece < m.pieceCount.toNat) (missing : piece ∉ t.finished) (milliseconds : UInt32) :
    ∃ h', p.forward (.setPieceDeadline (UInt32.ofNat piece) milliseconds) h = (.ok (), h') ∧
      p.Holds h' engine a { t with deadlines := t.deadlines.insert piece milliseconds } := by
  have exact : (UInt32.ofNat piece).toNat = piece := toNat_ofNat_of_lt inside
  have check : t.checkPiece (UInt32.ofNat piece) = .ok () :=
    Torrent.checkPiece_eq_ok.2 ⟨m, known, by rwa [UInt32.lt_iff_toNat_lt, exact]⟩
  have done : t.setDeadline (UInt32.ofNat piece) milliseconds =
      .ok { t with deadlines := t.deadlines.insert piece milliseconds } :=
    Torrent.setDeadline_eq_ok.2 ⟨check, by rw [exact, if_neg missing]⟩
  exact holds.forward nofun fun e o found attached =>
    (Engine.call_eq_attempt _).trans (Engine.attempt_update found attached done)

end Proxy.Holds

end Arrive

/-! ### Deadlines of a plan -/

/-- The deadline of a place in a plan: a step later than the one before, up to the largest. -/
def deadlineAt (step : UInt32) (place : ℕ) : ℕ := min (place * step.toNat) maxDeadline

/-- The pieces of a plan with their deadlines. -/
def PiecePlan.schedule (plan : PiecePlan) (step : UInt32) : List (ℕ × ℕ) :=
  plan.pieces.zipIdx.map fun (piece, place) => (piece, deadlineAt step place)

/-- The torrent has exactly the deadlines of the plan. -/
def Torrent.Scheduled (t : Torrent) (plan : PiecePlan) (step : UInt32) : Prop :=
  ∀ piece milliseconds, t.deadlines[piece]? = some milliseconds ↔
    (piece, milliseconds.toNat) ∈ plan.schedule step

section Deadlines

variable {t : Torrent} {m : Metadata} {plan : PiecePlan} {step milliseconds : UInt32}
  {piece place : ℕ}

@[simp] lemma deadlineAt_zero (step : UInt32) : deadlineAt step 0 = 0 := by simp [deadlineAt]

lemma deadlineAt_succ :
    deadlineAt step (place + 1) = min (deadlineAt step place + step.toNat) maxDeadline := by
  unfold deadlineAt
  rw [Nat.succ_mul]
  omega

lemma toNat_deadlineAt : (UInt32.ofNat (deadlineAt step place)).toNat = deadlineAt step place := by
  refine UInt32.toNat_ofNat_of_lt' ?_
  unfold deadlineAt maxDeadline
  rw [UInt32.size]
  omega

lemma mem_schedule : (piece, milliseconds.toNat) ∈ plan.schedule step ↔
    ∃ i, (piece, i) ∈ plan.pieces.zipIdx ∧ milliseconds = UInt32.ofNat (deadlineAt step i) := by
  simp only [PiecePlan.schedule, List.mem_map, Prod.exists, Prod.mk.injEq,
    ← UInt32.toNat_inj, toNat_deadlineAt]
  grind

lemma Torrent.Scheduled.planned (scheduled : t.Scheduled plan step) (due : piece ∈ t.deadlines) :
    piece ∈ plan.pieces := by
  obtain ⟨i, there, -⟩ := mem_schedule.1
    ((scheduled piece _).1 (Std.ExtTreeMap.getElem?_eq_some_getElem due))
  exact List.fst_mem_of_mem_zipIdx there

lemma ascending_schedule (ascending : plan.pieces.Pairwise (· < ·)) :
    (plan.schedule step).Pairwise (Order.Preimage Prod.fst (· < ·)) := by
  have places : plan.pieces.zipIdx.Pairwise fun a b => a.1 < b.1 := by
    rw [← List.pairwise_map, List.zipIdx_map_fst]
    exact ascending
  exact List.pairwise_map.2 places

/-- Both lists are in the order of the pieces and have the same members. -/
lemma Torrent.Scheduled.toList_eq (scheduled : t.Scheduled plan step)
    (ascending : plan.pieces.Pairwise (· < ·)) :
    t.deadlines.toList.map (fun d => (d.1, d.2.toNat)) = plan.schedule step := by
  have order : (t.deadlines.toList.map fun d => (d.1, d.2.toNat)).Pairwise
      (Order.Preimage Prod.fst (· < ·)) :=
    List.pairwise_map.2 (t.deadlines.ordered_keys_toList.imp Nat.compare_eq_lt.1)
  refine order.eq_of_mem_iff (ascending_schedule ascending) fun ⟨piece, number⟩ => ?_
  simp only [List.mem_map, Prod.exists, Prod.mk.injEq,
    Std.ExtTreeMap.mem_toList_iff_getElem?_eq_some]
  constructor
  · rintro ⟨_, milliseconds, due, rfl, rfl⟩
    exact (scheduled _ _).1 due
  · intro due
    obtain ⟨⟨_, i⟩, there, same⟩ := List.mem_map.1 due
    obtain ⟨rfl, rfl⟩ := Prod.mk.inj same
    exact ⟨_, _, (scheduled _ _).2 (mem_schedule.2 ⟨i, there, rfl⟩), rfl, toNat_deadlineAt⟩

lemma Torrent.Scheduled.pieceDeadlines (scheduled : t.Scheduled plan step)
    (ascending : plan.pieces.Pairwise (· < ·))
    (inside : ∀ piece ∈ plan.pieces, piece < m.pieceCount.toNat) :
    t.pieceDeadlines.map (fun d => (d.piece.toNat, d.milliseconds.toNat)) =
      plan.schedule step := by
  have exact : ∀ d ∈ t.deadlines.toList, (UInt32.ofNat d.1).toNat = d.1 := by
    rintro ⟨piece, milliseconds⟩ due
    rw [Std.ExtTreeMap.mem_toList_iff_getElem?_eq_some] at due
    have there : piece ∈ t.deadlines := Std.ExtTreeMap.mem_iff_isSome_getElem?.2 (by simp [due])
    exact toNat_ofNat_of_lt (inside piece (scheduled.planned there))
  rw [← scheduled.toList_eq ascending, Torrent.pieceDeadlines, List.map_map]
  exact List.map_congr_left fun d due => Prod.ext (exact d due) rfl

end Deadlines

/-! ### Applying a plan -/

namespace DeadlineSink

variable {s : DeadlineSink} {plan : PiecePlan} {p : Proxy} {h : Host} {engine : ℕ} {a : Address}
  {t : Torrent} {m : Metadata} {pieces : List ℕ} {piece : ℕ}

lemma mem_dropped : piece ∈ s.dropped plan ↔
    piece ∈ s.active ∧ piece ∉ plan.pieces ∧ keeps plan piece = false := by
  have wanted : (PieceSet.ofList plan.pieces).contains piece = true ↔ piece ∈ plan.pieces := by
    rw [← Std.ExtTreeSet.mem_iff_contains, ← Std.ExtTreeSet.mem_toList,
      PieceSet.mem_toList_ofList]
  simp only [dropped, List.mem_filter, Std.ExtTreeSet.mem_toList, Bool.and_eq_true,
    Bool.not_eq_true', ← Bool.not_eq_true, wanted]

/-- The pieces lose their deadlines, and no other piece does. -/
lemma resetAll_ok (holds : p.Holds h engine a t)
    (inside : ∀ piece ∈ pieces, piece < m.pieceCount.toNat) :
    ∃ (active : PieceSet) (h' : Host) (deadlines : PieceMap UInt32),
      resetAll p pieces s h = (.ok (), { s with active }, h') ∧
      p.Holds h' engine a { t with deadlines } ∧
      (∀ piece, piece ∈ active ↔ piece ∈ s.active ∧ piece ∉ pieces) ∧
      ∀ piece, deadlines[piece]? = if piece ∈ pieces then none else t.deadlines[piece]? := by
  induction pieces generalizing s h t with
  | nil => exact ⟨s.active, h, t.deadlines, rfl, holds, by simp, by simp⟩
  | cons first rest ih =>
    obtain ⟨h₁, answer, holds₁⟩ := holds.resetDeadline (inside first List.mem_cons_self)
    obtain ⟨active, h', deadlines, done, holds', actives, others⟩ :=
      ih (s := { s with active := s.active.erase first }) holds₁
        fun piece later => inside piece (List.mem_cons_of_mem first later)
    refine ⟨active, h', deadlines, by rw [resetAll, answer]; exact done, holds', ?_, ?_⟩
    · intro piece
      rw [actives, Std.ExtTreeSet.mem_erase, List.mem_cons]
      grind
    · intro piece
      rw [others, Std.ExtTreeMap.getElem?_erase]
      simp only [List.mem_cons, Nat.compare_eq_eq]
      grind

/-- The pieces get the deadlines of their places, and no other piece gets one. -/
lemma setAll_ok (place : ℕ) (holds : p.Holds h engine a t) (known : t.metadata = some m)
    (distinct : pieces.Nodup)
    (missing : ∀ piece ∈ pieces, piece < m.pieceCount.toNat ∧ piece ∉ t.finished) :
    ∃ (active : PieceSet) (h' : Host) (deadlines : PieceMap UInt32),
      setAll p (deadlineAt s.step place) pieces s h = (.ok (), { s with active }, h') ∧
      p.Holds h' engine a { t with deadlines } ∧
      (∀ piece, piece ∈ active ↔ piece ∈ s.active ∨ piece ∈ pieces) ∧
      ∀ piece milliseconds, deadlines[piece]? = some milliseconds ↔
        (∃ i, (piece, i) ∈ pieces.zipIdx place ∧
          milliseconds = UInt32.ofNat (deadlineAt s.step i)) ∨
        piece ∉ pieces ∧ t.deadlines[piece]? = some milliseconds := by
  induction distinct generalizing s h t place with
  | nil => exact ⟨s.active, h, t.deadlines, rfl, holds, by simp, by simp⟩
  | @cons first rest new distinct ih =>
    obtain ⟨below, unfinished⟩ := missing first List.mem_cons_self
    obtain ⟨h₁, answer, holds₁⟩ := holds.setDeadline known below unfinished
      (UInt32.ofNat (deadlineAt s.step place))
    obtain ⟨active, h', deadlines, done, holds', actives, others⟩ :=
      ih (s := { s with active := s.active.insert first }) (place + 1) holds₁ known
        fun piece later => missing piece (List.mem_cons_of_mem first later)
    refine ⟨active, h', deadlines, ?_, holds', ?_, ?_⟩
    · rw [setAll, answer, ← deadlineAt_succ]
      exact done
    · intro piece
      rw [actives, Std.ExtTreeSet.mem_insert, List.mem_cons]
      grind
    · intro piece milliseconds
      rw [others, Std.ExtTreeMap.getElem?_insert, List.zipIdx_cons]
      have absent : ∀ i, (first, i) ∉ rest.zipIdx (place + 1) :=
        fun i later => new first (List.fst_mem_of_mem_zipIdx later) rfl
      simp only [List.mem_cons, Prod.mk.injEq, Nat.compare_eq_eq]
      grind

/-- A plan of missing pieces is applied: its deadlines are those of the torrent, provided that every
other piece that has one loses it. -/
lemma downloadOnly_ok (holds : p.Holds h engine a t) (known : t.metadata = some m)
    (ascending : plan.pieces.Pairwise (· < ·))
    (missing : ∀ piece ∈ plan.pieces, piece < m.pieceCount.toNat ∧ piece ∉ t.finished)
    (inside : ∀ piece ∈ s.active, piece < m.pieceCount.toNat)
    (covered : ∀ piece ∈ t.deadlines, piece ∈ plan.pieces ∨ piece ∈ s.dropped plan) :
    ∃ (active : PieceSet) (h' : Host) (deadlines : PieceMap UInt32),
      s.downloadOnly plan p h = (.ok (), { s with active }, h') ∧
      p.Holds h' engine a { t with deadlines } ∧
      (∀ piece ∈ plan.pieces, piece ∈ active) ∧
      (∀ piece ∈ active, piece < m.pieceCount.toNat) ∧
      ({ t with deadlines } : Torrent).Scheduled plan s.step := by
  obtain ⟨active₁, h₁, deadlines₁, reset, holds₁, actives₁, others₁⟩ :=
    resetAll_ok (s := s) holds fun piece gone => inside piece (mem_dropped.1 gone).1
  obtain ⟨active, h', deadlines, set, holds', actives, others⟩ :=
    setAll_ok (s := { s with active := active₁ }) 0 holds₁ known
      (ascending.imp Nat.ne_of_lt) missing
  refine ⟨active, h', deadlines, ?_, holds', ?_, ?_, ?_⟩
  · rw [downloadOnly, reset, ← deadlineAt_zero s.step]
    exact set
  · intro piece planned
    exact (actives piece).2 (.inr planned)
  · intro piece there
    rcases (actives piece).1 there with before | planned
    · exact inside piece ((actives₁ piece).1 before).1
    · exact (missing piece planned).1
  · intro piece milliseconds
    -- a piece outside the plan that had a deadline has lost it
    have none : piece ∉ plan.pieces → deadlines₁[piece]? = none := by
      intro unplanned
      rw [others₁]
      by_cases due : piece ∈ t.deadlines
      · rw [if_pos ((covered piece due).resolve_left unplanned)]
      · rw [Std.ExtTreeMap.getElem?_eq_none due, ite_self]
    rw [others, mem_schedule]
    constructor
    · rintro (planned | ⟨unplanned, due⟩)
      · exact planned
      · simp [none unplanned] at due
    · exact .inl

end DeadlineSink

end TorrentHandle
