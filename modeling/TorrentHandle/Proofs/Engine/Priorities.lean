import TorrentHandle.Proofs.Engine.Progress
import TorrentHandle.Proofs.Torrent.Advance

/-!
Writing the priorities of files through an engine. Each call derives the state anew from all files,
so the states on the way differ with the order of the writes; the torrent in the end goes by the
last write to each file and nothing else.
-/

namespace TorrentHandle

namespace Engine

open PriorityWrite (last?)

variable {e : Engine} {a : Address} {h : HandleObject} {t : Torrent} {m : Metadata}
  {w : PriorityWrite} {writes writes' : List PriorityWrite}

/-! ### One write -/

/-- The operation that writes a priority of the torrent at an address. -/
def Op.write (a : Address) : PriorityWrite → Op
  | .one index priority => .call a (.setFilePriority index priority)
  | .ignoreAll => .call a .ignoreAllFiles

def Record.written (a : Address) : PriorityWrite → Record
  | .one index priority => ⟨.call a (.setFilePriority index priority), .ok ()⟩
  | .ignoreAll => ⟨.call a .ignoreAllFiles, .ok ()⟩

lemma act_write (found : e.objects.get? a = some h) (attached : h.torrent = some t)
    {t' : Torrent} (done : w.apply t = .ok t') :
    e.record [.write a w] = [.written a w] ∧ e.run [.write a w] =
      { e with objects := e.objects.set a { h with torrent := some t' } } := by
  cases w with
  | one index priority =>
    have updated : e.call a (.setFilePriority index priority) = _ := (call_eq_attempt _).trans
      (attempt_update (f := (·.setPriority index priority)) found attached done)
    exact ⟨by simp only [record, Op.write, act, updated, Record.written],
      congrArg Prod.snd updated⟩
  | ignoreAll =>
    have updated : e.call a .ignoreAllFiles = _ :=
      (call_eq_attempt _).trans (attempt_update found attached done)
    exact ⟨by simp only [record, Op.write, act, updated, Record.written],
      congrArg Prod.snd updated⟩

/-! ### Writes in some order -/

/-- Writes priorities of files of the torrent at an address, one after another. -/
def writeAll (a : Address) (writes : List PriorityWrite) : List Op :=
  writes.map (.write a)

/-- Writes that no file of those listed is to be downloaded, one after another. -/
def ignoreEach (a : Address) (order : List UInt32) : List Op :=
  order.map fun index => .call a (.setFilePriority index .dontDownload)

/-- What comes of writing priorities: every valid write is accepted, and the object is left as it
was but for the torrent, which goes by the last write to each file. To ignore all files is to ignore
each of them, in any order; and files that are ignored do not set a torrent that has what was wanted
back to downloading. -/
structure Rewrites (e : Engine) (a : Address) (h : HandleObject) (t : Torrent) (m : Metadata) :
    Prop where
  accepted : ∀ writes : List PriorityWrite, (∀ w ∈ writes, w.Valid m.files.length) →
    e.record (writeAll a writes) = writes.map (.written a) ∧
    (e.run (writeAll a writes)).objects.get? a =
      some { h with torrent := some (t.withPriorities writes) }
  lastWins : ∀ writes writes' : List PriorityWrite, (∀ w ∈ writes, w.Valid m.files.length) →
    (∀ w ∈ writes', w.Valid m.files.length) →
    (∀ index < m.files.length, last? writes index = last? writes' index) →
    (e.run (writeAll a writes)).objects.get? a = (e.run (writeAll a writes')).objects.get? a
  ignoresAll : ∀ order : List UInt32, (∀ index ∈ order, index.toNat < m.files.length) →
    (∀ index < m.files.length, ∃ i ∈ order, i.toNat = index) →
    (e.run [.call a .ignoreAllFiles]).objects.get? a =
      (e.run (ignoreEach a order)).objects.get? a
  onward : ∀ writes : List PriorityWrite, (∀ w ∈ writes, w.Valid m.files.length) →
    (∀ w ∈ writes, w.priority = .dontDownload) → t.state = .finished ∨ t.state = .seeding →
    ∃ t', (e.run (writeAll a writes)).objects.get? a = some { h with torrent := some t' } ∧
      (t'.state = .finished ∨ t'.state = .seeding)

section Writes

variable (found : e.objects.get? a = some h) (attached : h.torrent = some t)
  (known : t.metadata = some m) (fits : t.Fits m) (current : t.state = t.derivedState)
include found attached known fits current

lemma writeAll_run (writes : List PriorityWrite) (valid : ∀ w ∈ writes, w.Valid m.files.length) :
    e.record (writeAll a writes) = writes.map (.written a) ∧
      (e.run (writeAll a writes)).objects.get? a =
        some { h with torrent := some (t.withPriorities writes) } := by
  induction writes using List.reverseRecOn with
  | nil =>
    refine ⟨rfl, ?_⟩
    rw [Torrent.withPriorities_nil current, ← attached]
    exact found
  | append_singleton writes w ih =>
    rw [List.forall_mem_append, List.forall_mem_singleton] at valid
    obtain ⟨accepted, object⟩ := ih valid.1
    have done : w.apply (t.withPriorities writes) = _ := Torrent.apply_withPriorities
      (Option.isSome_of_eq_some known) (fits.priorities ▸ valid.2)
    obtain ⟨answered, after⟩ := act_write object rfl done
    have split : writeAll a (writes ++ [w]) = writeAll a writes ++ [.write a w] := List.map_append
    rw [split, record_append, run_append, accepted, answered, after, List.map_append]
    refine ⟨rfl, ?_⟩
    rw [Arena.get?_set, if_pos rfl, object]
    rfl

lemma run_writeAll_congr (valid : ∀ w ∈ writes, w.Valid m.files.length)
    (valid' : ∀ w ∈ writes', w.Valid m.files.length)
    (same : ∀ index < m.files.length, last? writes index = last? writes' index) :
    (e.run (writeAll a writes)).objects.get? a = (e.run (writeAll a writes')).objects.get? a := by
  have run := writeAll_run found attached known fits current
  rw [(run writes valid).2, (run writes' valid').2, Torrent.withPriorities_congr]
  rwa [fits.priorities]

lemma run_ignoreEach {order : List UInt32}
    (valid : ∀ index ∈ order, index.toNat < m.files.length)
    (all : ∀ index < m.files.length, ∃ i ∈ order, i.toNat = index) :
    (e.run [.call a .ignoreAllFiles]).objects.get? a =
      (e.run (ignoreEach a order)).objects.get? a := by
  have each : ignoreEach a order =
      writeAll a (order.map fun index => .one index .dontDownload) := by
    rw [writeAll, List.map_map]
    rfl
  have bulk : ∀ w ∈ [PriorityWrite.ignoreAll], w.Valid m.files.length :=
    List.forall_mem_singleton.2 trivial
  rw [each]
  refine run_writeAll_congr found attached known fits current bulk (List.forall_mem_map.2 valid)
    fun index below => ?_
  obtain ⟨i, inside, rfl⟩ := all index below
  have reached : (PriorityWrite.one i .dontDownload).reaches i.toNat = true := decide_eq_true rfl
  refine (PriorityWrite.last?_eq_some ?_ ⟨_, List.mem_map_of_mem inside, reached⟩).symm
  exact List.forall_mem_map.2 fun _ _ => rfl

lemma rewrites : e.Rewrites a h t m := by
  have run := writeAll_run found attached known fits current
  refine ⟨run, fun writes writes' => ?_, fun order => ?_,
    fun writes valid ignored complete => ⟨_, (run writes valid).2, ?_⟩⟩
  · exact run_writeAll_congr found attached known fits current
  · exact run_ignoreEach found attached known fits current
  · have forward := Torrent.code_withPriorities_le fits known ignored
    rw [← current] at forward
    exact TorrentState.complete_of_le forward complete (Torrent.derivedState_mem_phases known)

end Writes

/-- **The last priority written to a file counts.** After any operations, valid writes of priorities
to the files of a torrent with metadata, of one or of all at once, leave a torrent that goes by the
last write to each file and by no other. To ignore all files is to ignore each of them in any order,
and to ignore files does not set a torrent that is complete back to downloading. -/
theorem last_priority_counts (owner : ℕ) (settings : EngineSettings) (bus : Bus Event)
    (ops : List Op) {h : HandleObject} {t : Torrent} {m : Metadata}
    (found : ((create owner settings bus).run ops).objects.get? a = some h)
    (attached : h.torrent = some t) (known : t.metadata = some m) :
    ((create owner settings bus).run ops).Rewrites a h t m := by
  have fits := (torrent_coherent_run owner settings bus ops found attached).fits m known
  have current := torrent_current_run owner settings bus ops found attached
  exact rewrites found attached known fits current

theorem sample_last_priority_counts :
    let e := (create 1 {} ⟨1, by decide, #[], 1⟩).run [.addTorrent (.ofMetadata .sample),
      .session ⟨1, 0, 1⟩ (.recordPieceFinished 0), .session ⟨1, 0, 1⟩ (.recordPieceFinished 1)]
    let t : Torrent := {
      infoHash := .sample, name := some "Sample Show", metadata := some .sample, paused := false
      state := .downloading, priorities := [.standard, .standard], finished := .ofList [0, 1] }
    let t' : Torrent := { t with state := .finished, priorities := [.low, .dontDownload] }
    let writes : List PriorityWrite := [.one 0 .top, .ignoreAll, .one 0 .low]
    let writes' : List PriorityWrite := [.one 1 .dontDownload, .one 0 .low]
    e.Rewrites ⟨1, 0, 1⟩ { torrent := some t } t .sample ∧
      (e.run (writeAll ⟨1, 0, 1⟩ writes)).objects.get? ⟨1, 0, 1⟩ =
        some { torrent := some t' } ∧
      (e.run (writeAll ⟨1, 0, 1⟩ writes)).objects.get? ⟨1, 0, 1⟩ =
        (e.run (writeAll ⟨1, 0, 1⟩ writes')).objects.get? ⟨1, 0, 1⟩ := by
  intro e t t' writes writes'
  have found : e.objects.get? ⟨1, 0, 1⟩ = some { torrent := some t } := by decide +kernel
  have rewrites := last_priority_counts 1 {} ⟨1, by decide, #[], 1⟩ _ found rfl rfl
  have same : ∀ index < 2, last? writes index = last? writes' index := by decide
  have valid : ∀ w ∈ writes, w.Valid 2 := by simp [writes, PriorityWrite.Valid]
  have valid' : ∀ w ∈ writes', w.Valid 2 := by simp [writes', PriorityWrite.Valid]
  exact ⟨rewrites, by decide +kernel, rewrites.lastWins writes writes' valid valid' same⟩

end Engine

end TorrentHandle
