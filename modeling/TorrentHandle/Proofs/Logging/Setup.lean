import TorrentHandle.Logging.Setup
import TorrentHandle.Proofs.Logging.Directive
import TorrentHandle.Proofs.Logging.Filter
import TorrentHandle.Proofs.Text.Quoted

/-!
The log of a process over all attempts to set it up. The first attempt succeeds and all later ones
fail, whatever they ask for, and the build identifier stays that of the first. The line that the
first writes tells the format and the build identifier, and stays one line.
-/

namespace TorrentHandle.Logging

open TorrentHandle.Text

variable {cs : List Char} {level : Level} {format format' : LineFormat} {sha sha' s : String}

/-! ### Filters of one level -/

lemma Filter.parts_of_names (named : level.Names cs) : Filter.parts cs = [cs] := by
  have single : ',' ∉ cs := fun inside => absurd (named.isAlpha inside) (by decide)
  have some : (!cs.isEmpty) = true := by simpa using named.ne_nil
  rw [Filter.parts, List.splitOn_eq_singleton single, List.filter_cons, if_pos some]
  rfl

lemma Filter.ofText?_of_names (named : level.Names s.toList) :
    Filter.ofText? s = some [{ level }] := by
  rw [Filter.ofText?, Filter.parts_of_names named, List.mapM_cons,
    Directive.ofChars?_of_names named]
  rfl

namespace State

lemma filter_of_names {environment : Option String}
    (named : level.Names (environment.getD s).toList) : filter environment s = [{ level }] := by
  cases environment with
  | none => exact Filter.ofTextLossy_eq (Filter.ofText?_of_names named)
  | some e =>
    have read := Filter.ofText?_of_names (s := e) named
    rw [filter, Option.bind_some, read]

/-! ### The line -/

theorem line_inj : line format sha = line format' sha' ↔ format = format' ∧ sha = sha' := by
  constructor
  · intro same
    cases format <;> cases format' <;>
      simp only [line, Line.json.injEq, Line.pretty.injEq, reduceCtorEq] at same
    · simpa using same
    · simp only [String.append_assoc, String.append_right_inj, Quoted.encode_append_inj] at same
      exact ⟨rfl, same.1⟩
  · rintro ⟨rfl, rfl⟩
    rfl

/-- **The line stays one line**, whatever the build identifier is. -/
theorem printable_line {c : Char} (written : line .pretty sha = .pretty s)
    (inside : c ∈ s.toList) : isUnprintable c = false := by
  cases written
  have ascii : ∀ text ∈ [" INFO ", lineMessage, " build_sha=", " format=", "Pretty"],
      ∀ c ∈ text.toList, 0x20 ≤ c.toNat ∧ c.toNat < 0x7f := by simp [lineMessage]
  have fixed : ∀ text ∈ [" INFO ", lineMessage, " build_sha=", " format=", "Pretty"],
      c ∈ text.toList → isUnprintable c = false := fun text listed there =>
    printable_of_ascii (ascii text listed c there).1 (ascii text listed c there).2
  simp only [String.toList_append, List.mem_append] at inside
  obtain ((((inside | inside) | inside) | inside) | inside) | inside := inside
  · exact fixed _ (by decide) inside
  · exact fixed _ (by decide) inside
  · exact fixed _ (by decide) inside
  · exact Quoted.printable_encode inside
  · exact fixed _ (by decide) inside
  · exact fixed _ (by decide) inside

/-! ### Attempts -/

/-- An attempt to set the log up: the filter of the process, and the configuration. -/
structure Attempt where
  environment : Option String
  config : Config

/-- The lines of an attempt that succeeds. -/
def Attempt.lines (a : Attempt) : List Line :=
  if (filter a.environment a.config.level).enables .info target.toList
    (lineFields.map String.toList) then [line a.config.format a.config.buildSha]
  else []

def run (s : State) : List Attempt → List (Except String Unit × List Line) × State
  | [] => ([], s)
  | a :: rest =>
    let (answer, lines, s) := s.init a.environment a.config
    let (answers, s) := s.run rest
    ((answer, lines) :: answers, s)

lemma run_of_installed (attempts : List Attempt) : run ⟨some sha, true⟩ attempts =
    (attempts.map fun _ => (.error installError, []), ⟨some sha, true⟩) := by
  induction attempts with
  | nil => rfl
  | cons a attempts ih =>
    have refused : init ⟨some sha, true⟩ a.environment a.config =
        (.error installError, [], ⟨some sha, true⟩) := rfl
    rw [run, refused]
    simp only [ih, List.map_cons]

/-- **The log is set up once.** -/
theorem set_up_once (a : Attempt) (later : List Attempt) : run {} (a :: later) =
    ((.ok (), a.lines) :: later.map fun _ => (.error installError, []),
      ⟨some a.config.buildSha, true⟩) := by
  have done : init {} a.environment a.config =
      (.ok (), a.lines, ⟨some a.config.buildSha, true⟩) := rfl
  rw [run, done]
  simp only [run_of_installed]

/-- Where the filter is a level, the line is written iff that lets information through. -/
theorem lines_of_names {a : Attempt}
    (named : level.Names (a.environment.getD a.config.level).toList) :
    a.lines = if Level.info.rank ≤ level.rank then [line a.config.format a.config.buildSha]
      else [] := by
  rw [Attempt.lines, filter_of_names named]
  exact if_congr Filter.enables_level rfl rfl

end State

end TorrentHandle.Logging
