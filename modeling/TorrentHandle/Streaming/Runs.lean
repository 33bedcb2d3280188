/-!
Sets of pieces, kept as runs of consecutive pieces. A download leaves few runs however many pieces
there are, so the next pieces of a set are found without a look at each piece that is not in it.

The pieces in the order of the runs are the view; each operation is stated on it.
-/

namespace TorrentHandle

/-- The pieces from `first` up to but not including `stop`. -/
structure Run where
  first : Nat
  stop : Nat
  deriving DecidableEq

namespace Run

def size (r : Run) : Nat := r.stop - r.first

def pieces (r : Run) : List Nat := List.range' r.first r.size

/-- The pieces of a run from `first` up to but not including `stop`. -/
def clip (r : Run) (first stop : Nat) : Run := ⟨max r.first first, min r.stop stop⟩

def take (r : Run) (count : Nat) : Run := ⟨r.first, min r.stop (r.first + count)⟩

/-- What is left of a run without a piece: the part before it and the part after it, as far as they
hold pieces. -/
def without (r : Run) (piece : Nat) : List Run :=
  [r.clip 0 piece, r.clip (piece + 1) r.stop].filter (0 < ·.size)

/-! ### Pieces of the parts -/

theorem filter_range' (first stop start count : Nat) :
    (List.range' start count).filter (fun piece => first ≤ piece && piece < stop) =
      List.range' (max start first) (min (start + count) stop - max start first) := by
  induction count generalizing start with
  | zero => rw [show min (start + 0) stop - max start first = 0 by omega]; rfl
  | succ count ih =>
    rw [List.range'_succ, List.filter_cons, ih]
    by_cases h : first ≤ start ∧ start < stop
    · rw [if_pos (by simpa using h), show max (start + 1) first = start + 1 by omega,
        show max start first = start by omega,
        show min (start + (count + 1)) stop - start =
          (min (start + 1 + count) stop - (start + 1)) + 1 by omega, List.range'_succ]
    · rw [if_neg (by simpa using h)]
      by_cases low : start < first
      · rw [show max (start + 1) first = max start first by omega,
          show start + 1 + count = start + (count + 1) by omega]
      · rw [show min (start + 1 + count) stop - max (start + 1) first = 0 by omega,
          show min (start + (count + 1)) stop - max start first = 0 by omega]
        rfl

theorem pieces_clip (r : Run) (first stop : Nat) :
    (r.clip first stop).pieces =
      r.pieces.filter fun piece => first ≤ piece && piece < stop := by
  rw [pieces, pieces, filter_range', clip, size, size]
  by_cases h : r.first ≤ r.stop
  · rw [show r.first + (r.stop - r.first) = r.stop by omega]
  · rw [show min r.stop stop - max r.first first = 0 by omega,
      show min (r.first + (r.stop - r.first)) stop - max r.first first = 0 by omega]

theorem length_pieces (r : Run) : r.pieces.length = r.size := List.length_range'

theorem pieces_take (r : Run) (count : Nat) : (r.take count).pieces = r.pieces.take count := by
  refine List.ext_getElem ?_ fun i _ _ => by simp [pieces, take]
  simp only [length_pieces, List.length_take, size, take]
  omega

theorem ascending_pieces (r : Run) : r.pieces.Pairwise (· < ·) := List.pairwise_lt_range'

theorem mem_pieces {r : Run} {piece : Nat} :
    piece ∈ r.pieces ↔ r.first ≤ piece ∧ piece < r.stop := by
  rw [pieces, List.mem_range'_1, size]
  omega

theorem filter_ne_of_ascending {pieces : List Nat} (h : pieces.Pairwise (· < ·)) (piece : Nat) :
    pieces.filter (· != piece) = pieces.filter (· < piece) ++ pieces.filter (piece < ·) := by
  induction h with
  | nil => rfl
  | @cons p rest first _ ih =>
    rcases Nat.lt_trichotomy p piece with low | same | high
    · rw [List.filter_cons_of_pos (by simp; omega), List.filter_cons_of_pos (by simpa using low),
        List.filter_cons_of_neg (by simp; omega), ih, List.cons_append]
    · have none : rest.filter (· < piece) = [] :=
        List.filter_eq_nil_iff.2 fun q hq => by have := first q hq; simp; omega
      rw [List.filter_cons_of_neg (by simpa using same), List.filter_cons_of_neg (by simp; omega),
        List.filter_cons_of_neg (by simp; omega), ih]
    · have none : rest.filter (· < piece) = [] :=
        List.filter_eq_nil_iff.2 fun q hq => by have := first q hq; simp; omega
      rw [List.filter_cons_of_pos (by simp; omega), List.filter_cons_of_neg (by simp; omega),
        List.filter_cons_of_pos (by simpa using high), ih, none, List.nil_append, List.nil_append]

theorem flatMap_pieces_filter_size (runs : List Run) :
    (runs.filter (0 < ·.size)).flatMap pieces = runs.flatMap pieces := by
  induction runs with
  | nil => rfl
  | cons r rest ih =>
    rw [List.filter_cons]
    split
    · rw [List.flatMap_cons, ih, List.flatMap_cons]
    · rename_i h
      have none : r.pieces = [] := by rw [pieces, show r.size = 0 by simpa using h]; rfl
      rw [ih, List.flatMap_cons, none, List.nil_append]

theorem flatMap_pieces_without (r : Run) (piece : Nat) :
    (r.without piece).flatMap pieces = r.pieces.filter (· != piece) := by
  have before : (r.clip 0 piece).pieces = r.pieces.filter (· < piece) := by
    rw [pieces_clip]
    exact List.filter_congr fun p _ => by simp
  have after : (r.clip (piece + 1) r.stop).pieces = r.pieces.filter (piece < ·) := by
    rw [pieces_clip]
    refine List.filter_congr fun p hp => ?_
    have below := (mem_pieces.1 hp).2
    rw [decide_eq_true below, Bool.and_true]
    rfl
  rw [without, flatMap_pieces_filter_size, filter_ne_of_ascending r.ascending_pieces,
    List.flatMap_cons, List.flatMap_cons, List.flatMap_nil, List.append_nil, before, after]

end Run

/-- A set of pieces. -/
structure Runs where
  runs : List Run
  deriving DecidableEq

namespace Runs

def below (count : Nat) : Runs := ⟨[⟨0, count⟩]⟩

def toList (s : Runs) : List Nat := s.runs.flatMap Run.pieces

def erase (s : Runs) (piece : Nat) : Runs := ⟨s.runs.flatMap (·.without piece)⟩

/-- The first `count` pieces of some runs. -/
def takePieces (count : Nat) : List Run → List Nat
  | [] => []
  | r :: rest =>
    if count = 0 then []
    else (r.take count).pieces ++ takePieces (count - r.size) rest

/-- The first `count` pieces from `first` up to but not including `stop`. -/
def takeBetween (s : Runs) (first stop count : Nat) : List Nat :=
  takePieces count (s.runs.map (·.clip first stop))

theorem toList_below (count : Nat) : (below count).toList = List.range count := by
  simp [below, toList, Run.pieces, Run.size, List.range_eq_range']

theorem toList_erase (s : Runs) (piece : Nat) :
    (s.erase piece).toList = s.toList.filter (· != piece) := by
  rw [erase, toList, toList, List.flatMap_assoc, List.filter_flatMap]
  exact congrArg (s.runs.flatMap ·) (funext (Run.flatMap_pieces_without · piece))

theorem takePieces_eq (count : Nat) (runs : List Run) :
    takePieces count runs = (runs.flatMap Run.pieces).take count := by
  induction runs generalizing count with
  | nil => simp [takePieces]
  | cons r rest ih =>
    rw [takePieces]
    split
    · simp [*]
    · rw [ih, List.flatMap_cons, List.take_append, Run.length_pieces, Run.pieces_take]

theorem takeBetween_eq (s : Runs) (first stop count : Nat) :
    s.takeBetween first stop count =
      (s.toList.filter fun piece => first ≤ piece && piece < stop).take count := by
  rw [takeBetween, takePieces_eq, toList, List.filter_flatMap, List.flatMap_map]
  exact congrArg (fun f => (s.runs.flatMap f).take count)
    (funext (Run.pieces_clip · first stop))

end Runs

end TorrentHandle
