import TorrentHandle.Proofs.Engine.Issuing

/-!
A recorder in front of an engine, in runs that use the recorder and, behind its back, the engine. It
is transparent: answers, objects and events are those of the engine alone, and the journal gets one
entry for each call that goes through, under the name of its operation. An entry is marked as late
by what was tried at its address and not by what came of it: a call is late once the address was
given to `destroy_handle` through the recorder, also where that was refused.
-/

namespace TorrentHandle

/-! ### Calls that are passed on -/

/-- A call that a recorder passes on to its engine. -/
inductive Request where
  | newHandle
  | destroyHandle (a : Address)
  | call (a : Address) (c : Call)

namespace Request

def op : Request → Engine.Op
  | newHandle => .newHandle
  | destroyHandle a => .destroyHandle a
  | call a c => .call a c

def name : Request → String
  | newHandle => "new_handle"
  | destroyHandle _ => "destroy_handle"
  | call _ c => c.operation

/-- The address of the call. A new handle has the one that is answered, if one is. -/
def address? : (q : Request) → q.op.Answer → Option Address
  | newHandle, answer => answer.toOption
  | destroyHandle a, _ | call a _, _ => some a

def names : List String :=
  ["new_handle", "destroy_handle", "id", "set_id", "info_view", "reload_file", "is_valid", "state",
    "post_status_updates", "post_save_resume", "post_file_progress", "set_piece_deadline",
    "reset_piece_deadline", "clear_piece_deadlines", "set_peer_endgame", "add_tracker", "resume",
    "ignore_all_files", "set_file_priority", "make_magnet_uri"]

/-- Which operation it is, whatever the arguments are. -/
def kind : Request → ℕ
  | newHandle => 0
  | destroyHandle _ => 1
  | call _ c => c.ctorIdx + 2

variable {q q' : Request}

lemma names_getElem? (q : Request) : names[q.kind]? = some q.name := by
  cases q with
  | call a c => cases c <;> rfl
  | _ => rfl

theorem name_inj : q.name = q'.name ↔ q.kind = q'.kind := by
  have distinct : names.Nodup := by decide
  have bound : q.kind < names.length := (List.getElem?_eq_some_iff.1 q.names_getElem?).1
  rw [← Option.some_inj, ← names_getElem?, ← names_getElem?]
  exact List.getElem?_inj bound distinct

end Request

/-! ### Runs of a recorder -/

/-- A journal, and the engine behind it. -/
structure Recorder where
  journal : Journal := {}
  engine : Engine

namespace Recorder

/-- A call through the recorder, or an operation on the engine itself. -/
inductive Step where
  | through (q : Request)
  | direct (op : Engine.Op)

def Step.op : Step → Engine.Op
  | through q => q.op
  | direct op => op

def act (r : Recorder) : (s : Step) → s.op.Answer × Recorder
  | .through .newHandle =>
    let (answer, journal, engine) := r.journal.newHandle r.engine
    (answer, { journal, engine })
  | .through (.destroyHandle a) =>
    let (answer, journal, engine) := r.journal.destroyHandle r.engine a
    (answer, { journal, engine })
  | .through (.call a c) =>
    let (answer, journal, engine) := r.journal.call r.engine a c
    (answer, { journal, engine })
  | .direct op =>
    let (answer, engine) := r.engine.act op
    (answer, { r with engine })

def run (r : Recorder) (steps : List Step) : Recorder := steps.foldl (fun r s => (r.act s).2) r

/-- A step with what it answered. -/
structure Outcome where
  step : Step
  answer : step.op.Answer

/-- The steps of a run with their answers, in order. -/
def history (r : Recorder) : List Step → List Outcome
  | [] => []
  | s :: steps => ⟨s, (r.act s).1⟩ :: (r.act s).2.history steps

namespace Outcome

/-- What the engine sees of it. -/
def record (o : Outcome) : Engine.Record := ⟨o.step.op, o.answer⟩

/-- Operation and address that are written down: those of a call that goes through, unless it is
for a handle that could not be made. -/
def entry? : Outcome → Option (String × Address)
  | ⟨.through q, answer⟩ => (q.address? answer).map (q.name, ·)
  | ⟨.direct _, _⟩ => none

/-- The address that was given to `destroy_handle` through the recorder. -/
def tried? : Outcome → Option Address
  | ⟨.through (.destroyHandle a), _⟩ => some a
  | _ => none

/-- The address whose object was destroyed through the recorder. -/
def destroyed? : Outcome → Option Address
  | ⟨.through (.destroyHandle a), .ok ()⟩ => some a
  | _ => none

end Outcome

/-! ### One step -/

section Step

variable (r : Recorder) (s : Step)

lemma act_engine :
    (r.act s).1 = (r.engine.act s.op).1 ∧ (r.act s).2.engine = (r.engine.act s.op).2 := by
  match s with
  | .through .newHandle =>
    exact ⟨r.journal.newHandle_fst r.engine, r.journal.newHandle_engine r.engine⟩
  | .through (.destroyHandle _) | .through (.call _ _) | .direct _ => exact ⟨rfl, rfl⟩

/-- The entry for a call, marked by what is known to be destroyed. -/
def mark (destroyed : List Address) (entry : String × Address) : RecordedCall :=
  ⟨entry.1, entry.2, destroyed.contains entry.2⟩

lemma act_journal :
    (r.act s).2.journal.calls.toList = r.journal.calls.toList ++
        (Outcome.entry? ⟨s, (r.act s).1⟩ |>.map (mark r.journal.destroyed)).toList ∧
      (r.act s).2.journal.destroyed =
        (Outcome.tried? ⟨s, (r.act s).1⟩).toList ++ r.journal.destroyed := by
  match s with
  | .through .newHandle =>
    unfold act Journal.newHandle
    rcases r.engine.newHandle with ⟨_ | a, e⟩
    · exact ⟨(List.append_nil _).symm, rfl⟩
    · exact ⟨Array.toList_push, rfl⟩
  | .through (.destroyHandle a) => exact ⟨Array.toList_push, rfl⟩
  | .through (.call a c) => exact ⟨Array.toList_push, rfl⟩
  | .direct op => exact ⟨(List.append_nil _).symm, rfl⟩

lemma act_entries : (r.act s).2.journal.entries =
    r.journal.entries ++ (Outcome.entry? ⟨s, (r.act s).1⟩).toList := by
  rw [Journal.entries, (r.act_journal s).1, List.map_append, ← Journal.entries]
  cases Outcome.entry? ⟨s, (r.act s).1⟩ <;> rfl

end Step

/-! ### Whole runs -/

lemma history_append (r : Recorder) (steps steps' : List Step) :
    r.history (steps ++ steps') = r.history steps ++ (r.run steps).history steps' := by
  induction steps generalizing r with
  | nil => rfl
  | cons s steps ih => exact congrArg _ (ih _)

lemma history_step (r : Recorder) (steps : List Step) :
    (r.history steps).map Outcome.step = steps := by
  induction steps generalizing r with
  | nil => rfl
  | cons s steps ih => exact congrArg _ (ih _)

lemma history_record (r : Recorder) (steps : List Step) :
    (r.history steps).map Outcome.record = r.engine.record (steps.map Step.op) := by
  induction steps generalizing r with
  | nil => rfl
  | cons s steps ih =>
    obtain ⟨answer, engine⟩ := r.act_engine s
    rw [history, List.map_cons, ih, engine, Outcome.record, answer]
    rfl

lemma run_engine (r : Recorder) (steps : List Step) :
    (r.run steps).engine = r.engine.run (steps.map Step.op) := by
  induction steps generalizing r with
  | nil => rfl
  | cons s steps ih =>
    refine (ih (r.act s).2).trans ?_
    rw [(r.act_engine s).2]
    rfl

lemma run_entries (r : Recorder) (steps : List Step) : (r.run steps).journal.entries =
    r.journal.entries ++ (r.history steps).filterMap Outcome.entry? := by
  induction steps generalizing r with
  | nil => exact (List.append_nil _).symm
  | cons s steps ih =>
    refine (ih (r.act s).2).trans ?_
    rw [act_entries, List.append_assoc, history, List.filterMap_cons]
    cases Outcome.entry? ⟨s, (r.act s).1⟩ <;> rfl

lemma entry?_eq_none_iff {o : Outcome} : o.entry? = none ↔
    (∃ op, o.step = .direct op) ∨ ∃ err, o = ⟨.through .newHandle, .error err⟩ := by
  constructor
  · match o with
    | ⟨.direct op, _⟩ => exact fun _ => .inl ⟨op, rfl⟩
    | ⟨.through .newHandle, .error err⟩ => exact fun _ => .inr ⟨err, rfl⟩
    | ⟨.through .newHandle, .ok _⟩ | ⟨.through (.destroyHandle _), _⟩
    | ⟨.through (.call _ _), _⟩ => exact nofun
  · rintro (⟨op, direct⟩ | ⟨err, rfl⟩)
    · obtain ⟨s, answer⟩ := o
      obtain rfl : s = .direct op := direct
      rfl
    · rfl

lemma size_calls (j : Journal) : j.calls.size = j.entries.length := by simp [Journal.entries]

lemma count_eq (j : Journal) (name : String) :
    j.count name = j.entries.countP (·.1 == name) := by
  rw [Journal.entries, List.countP_map]
  rfl

/-- **A recorder is transparent.** In every run, from every state of the engine and the journal,
the steps answer what they answer on the engine alone, and they leave it as they would alone, its
events included. The journal gets one entry for each call that goes through, in order, with the name
of its operation and its address; only a new handle that could not be made leaves none. The number
of entries, and of those with a name, grows by just these; and no two operations have one name. -/
theorem recorder_transparent (r : Recorder) (steps : List Step) :
    let written := (r.history steps).filterMap Outcome.entry?
    (r.history steps).map Outcome.step = steps ∧
    (r.history steps).map Outcome.record = r.engine.record (steps.map Step.op) ∧
    (r.run steps).engine = r.engine.run (steps.map Step.op) ∧
    (r.run steps).journal.entries = r.journal.entries ++ written ∧
    (r.run steps).journal.calls.size = r.journal.calls.size + written.length ∧
    (∀ name, (r.run steps).journal.count name =
      r.journal.count name + written.countP (·.1 == name)) ∧
    (∀ o : Outcome, o.entry? = none ↔
      (∃ op, o.step = .direct op) ∨ ∃ err, o = ⟨.through .newHandle, .error err⟩) ∧
    ∀ q q' : Request, q.name = q'.name ↔ q.kind = q'.kind := by
  intro written
  have entries := r.run_entries steps
  refine ⟨r.history_step steps, r.history_record steps, r.run_engine steps, entries, ?_,
    fun name => ?_, fun o => entry?_eq_none_iff, fun q q' => Request.name_inj⟩
  · rw [size_calls, size_calls, entries, List.length_append]
  · rw [count_eq, count_eq, entries, List.countP_append]

/-! ### Late calls -/

/-- What a journal has of a history that follows `past`, if a call is late once `gone` has named its
address. -/
def noted (gone : Outcome → Option Address) (past : List Outcome) :
    List Outcome → List RecordedCall
  | [] => []
  | o :: later =>
    (o.entry?.map (mark (past.filterMap gone))).toList ++ noted gone (past ++ [o]) later

section Noted

variable {gone gone' : Outcome → Option Address} {past later : List Outcome}

lemma mark_congr {destroyed destroyed' : List Address}
    (same : ∀ a, a ∈ destroyed ↔ a ∈ destroyed') : mark destroyed = mark destroyed' := by
  funext entry
  simp [mark, same]

lemma mark_eq_iff {entry : String × Address} {l l' : List Address} :
    mark l entry = mark l' entry ↔ (entry.2 ∈ l ↔ entry.2 ∈ l') := by
  simp [mark]

/-- Two ways to tell late calls agree iff they agree at each call that is written down. -/
lemma noted_eq_iff : noted gone past later = noted gone' past later ↔
    ∀ before o after, later = before ++ o :: after → ∀ entry, o.entry? = some entry →
      (entry.2 ∈ (past ++ before).filterMap gone ↔ entry.2 ∈ (past ++ before).filterMap gone') := by
  induction later generalizing past with
  | nil => simp [noted]
  | cons o later ih =>
    have length : (o.entry?.map (mark (past.filterMap gone))).toList.length =
        (o.entry?.map (mark (past.filterMap gone'))).toList.length := by
      cases o.entry? <;> rfl
    rw [noted, noted]
    constructor
    · intro same before o' after split entry written
      obtain ⟨now, rest⟩ := List.append_inj same length
      cases before with
      | nil =>
        obtain ⟨rfl, rfl⟩ := List.cons.inj split
        rw [written] at now
        rw [List.append_nil]
        exact mark_eq_iff.1 (List.singleton_inj.1 now)
      | cons o'' before =>
        obtain ⟨rfl, rfl⟩ := List.cons.inj split
        have agree := ih.1 rest before o' after rfl entry written
        rwa [List.append_assoc] at agree
    · intro agree
      have rest : noted gone (past ++ [o]) later = noted gone' (past ++ [o]) later := by
        refine ih.2 fun before o' after split entry written => ?_
        rw [List.append_assoc]
        exact agree (o :: before) o' after (congrArg _ split) entry written
      have now : o.entry?.map (mark (past.filterMap gone)) =
          o.entry?.map (mark (past.filterMap gone')) := by
        cases written : o.entry? with
        | none => rfl
        | some entry =>
          have here := agree [] o later rfl entry written
          rw [List.append_nil] at here
          exact congrArg some (mark_eq_iff.2 here)
      rw [now, rest]

end Noted

/-- Late calls are told by what was tried, from the time when the journal was new. -/
lemma run_calls (r : Recorder) (past : List Outcome)
    (same : ∀ a, a ∈ r.journal.destroyed ↔ a ∈ past.filterMap Outcome.tried?) (steps : List Step) :
    (r.run steps).journal.calls.toList =
      r.journal.calls.toList ++ noted Outcome.tried? past (r.history steps) := by
  induction steps generalizing r past with
  | nil => exact (List.append_nil _).symm
  | cons s steps ih =>
    obtain ⟨calls, destroyed⟩ := r.act_journal s
    have kept : ∀ a, a ∈ (r.act s).2.journal.destroyed ↔
        a ∈ (past ++ [Outcome.mk s (r.act s).1]).filterMap Outcome.tried? := by
      intro a
      rw [destroyed, List.filterMap_append, List.mem_append, List.mem_append, same, or_comm]
      simp [eq_comm]
    refine (ih _ _ kept).trans ?_
    rw [calls, mark_congr same, history, noted, List.append_assoc]

/-- What was destroyed was tried. -/
lemma tried_of_destroyed {past : List Outcome} {a : Address}
    (destroyed : a ∈ past.filterMap Outcome.destroyed?) : a ∈ past.filterMap Outcome.tried? := by
  obtain ⟨o, inside, here⟩ := List.mem_filterMap.1 destroyed
  have tried : o.tried? = some a := by
    unfold Outcome.destroyed? at here
    split at here
    · exact here
    · cases here
  exact List.mem_filterMap.2 ⟨o, inside, tried⟩

/-- **Which calls are late.** In every run of a new recorder in front of an engine in any state, a
call is marked as late iff its address was given to `destroy_handle` through the recorder before,
whatever that answered, and the late calls are those with the mark. So the marks tell the objects
that were destroyed through the recorder iff no call goes through at an address for which
`destroy_handle` was refused and never succeeded before. -/
theorem late_iff_tried (e : Engine) (steps : List Step) :
    let start : Recorder := { engine := e }
    let calls := (start.run steps).journal.calls.toList
    calls = noted Outcome.tried? [] (start.history steps) ∧
    (start.run steps).journal.late =
      (noted Outcome.tried? [] (start.history steps)).filter (·.afterDestroy) ∧
    (calls = noted Outcome.destroyed? [] (start.history steps) ↔
      ∀ before o after, start.history steps = before ++ o :: after →
        ∀ name a, o.entry? = some (name, a) → a ∈ before.filterMap Outcome.tried? →
          a ∈ before.filterMap Outcome.destroyed?) := by
  intro start calls
  have told : calls = noted Outcome.tried? [] (start.history steps) :=
    start.run_calls [] (fun _ => .rfl) steps
  refine ⟨told, congrArg _ told, ?_⟩
  rw [told, noted_eq_iff]
  simp only [List.nil_append, Prod.forall]
  constructor
  · intro agree before o after split name a written
    exact (agree before o after split name a written).1
  · intro only before o after split name a written
    exact ⟨only before o after split name a written, tried_of_destroyed⟩

theorem destroyed_object_late :
    let start : Recorder := { engine := .create 1 {} .standard }
    let a : Address := ⟨1, 0, 1⟩
    let before : List Step :=
      [.through .newHandle, .through (.destroyHandle a), .through (.destroyHandle a),
        .direct .newHandle]
    let steps := before ++ [.through (.call a .isValid)]
    (start.run steps).journal.calls.toList =
      noted Outcome.destroyed? [] (start.history steps) ∧
    (start.run steps).journal.late = [⟨"destroy_handle", a, true⟩, ⟨"is_valid", a, true⟩] ∧
    a ∈ (start.history before).filterMap Outcome.destroyed? := by
  intro start a before steps
  have tells := (late_iff_tried (.create 1 {} .standard) steps).2.2.1 (by decide)
  have split := start.history_append before [.through (.call a .isValid)]
  have tried : a ∈ (start.history before).filterMap Outcome.tried? := by decide
  have destroyed := tells (start.history before) _ [] split "is_valid" a rfl tried
  exact ⟨by decide, by decide, destroyed⟩

/-- An address of another engine is given to `destroy_handle`, which refuses it; the next call there
is marked as late although nothing was destroyed. -/
theorem refused_destroy_marks_late :
    let start : Recorder := { engine := .create 1 {} .standard }
    let b : Address := ⟨2, 0, 1⟩
    let steps : List Step := [.through (.destroyHandle b), .through (.call b .isValid)]
    (Engine.create 2 {} .standard).newHandle.1 = .ok b ∧
    (start.act (.through (.destroyHandle b))).1 = .error .staleAddress ∧
    (start.run steps).journal.calls.toList =
      [⟨"destroy_handle", b, false⟩, ⟨"is_valid", b, true⟩] ∧
    (start.run steps).journal.late = [⟨"is_valid", b, true⟩] ∧
    (start.history steps).filterMap Outcome.destroyed? = [] := by
  intro start b steps
  refine ⟨rfl, rfl, ?_, ?_, ?_⟩ <;> decide

end Recorder

end TorrentHandle
