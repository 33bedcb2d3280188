import TorrentHandle.Proofs.Ownership.Deadlines
import TorrentHandle.Proofs.Streaming.Sink

/-!
A deadline sink whose calls fail. To apply a plan is to make one call after another, and anything
may be done with engines and proxies between two of them, so that each may fail after those before
it went through. The sink changes its set after every call that is accepted, so it knows at each
point which of its deadlines are left, and the next plan that goes through takes away all that are
to go.
-/

namespace TorrentHandle

/-! ### What happened last -/

section Since

variable {α : Type} {P Q : α → Prop} {past : List α} {last : α}

/-- `P` came up in a history, and `Q` is what followed. -/
def Since (P Q : α → Prop) (past : List α) : Prop :=
  ∃ before x after, past = before ++ x :: after ∧ P x ∧ ∀ y ∈ after, Q y

lemma not_since_nil : ¬ Since P Q [] := by
  rintro ⟨before, x, after, split, -⟩
  exact List.append_ne_nil_of_right_ne_nil before (List.cons_ne_nil x after) split.symm

lemma since_concat : Since P Q (past ++ [last]) ↔ P last ∨ Since P Q past ∧ Q last := by
  refine exists_split_concat.trans (or_congr (and_iff_left nofun) ⟨?_, ?_⟩)
  · rintro ⟨before, x, after, split, came, followed⟩
    rw [List.forall_mem_append, List.forall_mem_singleton] at followed
    exact ⟨⟨before, x, after, split, came, followed.1⟩, followed.2⟩
  · rintro ⟨⟨before, x, after, split, came, followed⟩, here⟩
    refine ⟨before, x, after, split, came, ?_⟩
    rw [List.forall_mem_append, List.forall_mem_singleton]
    exact ⟨followed, here⟩

end Since

namespace DeadlineSink

/-! ### Plans as calls -/

/-- One call of a sink: a piece loses its deadline, or gets one. -/
inductive Task where
  | reset (piece : ℕ)
  | set (piece milliseconds : ℕ)
  deriving DecidableEq

def Task.piece : Task → ℕ
  | reset piece | set piece _ => piece

def Task.call : Task → Call
  | reset piece => .resetPieceDeadline (UInt32.ofNat piece)
  | set piece milliseconds => .setPieceDeadline (UInt32.ofNat piece) (UInt32.ofNat milliseconds)

/-- The tasks that applying a plan comes to, in order. -/
def tasks (s : DeadlineSink) (plan : PiecePlan) : List Task :=
  (s.dropped plan).map .reset ++ (plan.schedule s.step).map fun (piece, time) => .set piece time

/-- The sink after a task was carried out. -/
def done (s : DeadlineSink) : Task → DeadlineSink
  | .reset piece => { s with active := s.active.erase piece }
  | .set piece _ => { s with active := s.active.insert piece }

/-- Carries out tasks up to the first that fails. -/
def carryOut (p : Proxy) : List Task → DeadlineSink → Host →
    Except HandleError Unit × DeadlineSink × Host
  | [], s, h => (.ok (), s, h)
  | task :: rest, s, h =>
    match p.forward task.call h with
    | (.error err, h) => (.error err, s, h)
    | (.ok _, h) => carryOut p rest (s.done task) h

section CarryOut

variable {p : Proxy} {s : DeadlineSink} {h : Host} {plan : PiecePlan} {pieces : List ℕ}
  {first rest : List Task}

lemma carryOut_append : carryOut p (first ++ rest) s h =
    match carryOut p first s h with
    | (.error err, s, h) => (.error err, s, h)
    | (.ok (), s, h) => carryOut p rest s h := by
  induction first generalizing s h with
  | nil => rfl
  | cons task first ih =>
    rw [List.cons_append, carryOut, carryOut]
    split
    · rfl
    · exact ih

lemma step_carryOut (todo : List Task) : (carryOut p todo s h).2.1.step = s.step := by
  induction todo generalizing s h with
  | nil => rfl
  | cons task rest ih =>
    rw [carryOut]
    split
    · rfl
    · rw [ih]
      cases task <;> rfl

lemma resetAll_eq : resetAll p pieces s h = carryOut p (pieces.map .reset) s h := by
  induction pieces generalizing s h with
  | nil => rfl
  | cons piece rest ih =>
    simp only [resetAll, List.map_cons, carryOut, Task.call]
    cases p.forward (.resetPieceDeadline (UInt32.ofNat piece)) h with
    | mk answer h' =>
      cases answer with
      | error err => rfl
      | ok u => exact ih

lemma setAll_eq (place : ℕ) : setAll p (deadlineAt s.step place) pieces s h =
    carryOut p ((pieces.zipIdx place).map fun (piece, i) => .set piece (deadlineAt s.step i))
      s h := by
  induction pieces generalizing s h place with
  | nil => rfl
  | cons piece rest ih =>
    simp only [setAll, List.zipIdx_cons, List.map_cons, carryOut, Task.call]
    cases p.forward (.setPieceDeadline (UInt32.ofNat piece)
        (UInt32.ofNat (deadlineAt s.step place))) h with
    | mk answer h' =>
      cases answer with
      | error err => rfl
      | ok u =>
        simp only [← deadlineAt_succ]
        exact ih (s := s.done (.set piece (deadlineAt s.step place))) (place + 1)

theorem downloadOnly_eq : s.downloadOnly plan p h = carryOut p (s.tasks plan) s h := by
  have step := step_carryOut (p := p) (s := s) (h := h) ((s.dropped plan).map .reset)
  rw [downloadOnly, tasks, carryOut_append, resetAll_eq]
  generalize carryOut p ((s.dropped plan).map .reset) s h = r at step
  obtain ⟨err | u, s', h'⟩ := r
  · rfl
  · rw [← deadlineAt_zero s.step, ← show s'.step = s.step from step]
    refine (setAll_eq 0).trans ?_
    rw [PiecePlan.schedule, List.map_map]
    rfl

end CarryOut

/-! ### Histories -/

/-- One thing that was done, with the world before it: a task of the sink, accepted or not, or
anything else. -/
inductive Move where
  | own (w : World) (task : Task) (accepted : Bool)
  | other (w : World) (s : World.Step)

namespace Move

def world : Move → World
  | own w _ _ | other w _ => w

/-- The sink has set a deadline for the piece. -/
def SetsOwn (piece : ℕ) : Move → Prop
  | own _ (.set number _) true => number = piece
  | _ => False

/-- The sink has reset the deadline of the piece. -/
def ResetsOwn (piece : ℕ) : Move → Prop
  | own _ (.reset number) true => number = piece
  | _ => False

/-- Something else than the sink has set a deadline for the piece. -/
def SetsOther (engine : ℕ) (a : Address) (piece : ℕ) : Move → Prop
  | own .. => False
  | other w s => s.Sets w engine a piece

end Move

/-- The sink has set a deadline for the piece and not reset it since. -/
def Owes (past : List Move) (piece : ℕ) : Prop :=
  Since (Move.SetsOwn piece) (fun x => ¬ x.ResetsOwn piece) past

/-- Since the piece was without a deadline, nothing but the sink has set one for it. -/
def OnlyOwn (past : List Move) (engine : ℕ) (a : Address) (piece : ℕ) : Prop :=
  Since (fun x => ¬ x.world.host.Due engine a piece ∧ ¬ x.SetsOther engine a piece)
    (fun x => ¬ x.SetsOther engine a piece) past

/-- A sink is fresh at first. It begins a plan when it is idle, and then makes the calls of the plan
one after another up to the first that fails, and anything else may be done before and after each of
them. A plan of which no task is left has succeeded. -/
inductive Reaches (proxy : ℕ) (step : UInt32) (start : World) :
    List Move → DeadlineSink → Option (PiecePlan × List Task) → World → Prop where
  | start : Reaches proxy step start [] { step } none start
  | other {past s phase w} (goes : Reaches proxy step start past s phase w) (aside : World.Step) :
    Reaches proxy step start (past ++ [.other w aside]) s phase (w.step aside).2
  | begin {past s w} (goes : Reaches proxy step start past s none w) (plan : PiecePlan)
    (numbers : ∀ piece ∈ plan.pieces, piece < UInt32.size) :
    Reaches proxy step start past s (some (plan, s.tasks plan)) w
  | accept {past s plan task rest w reply}
    (goes : Reaches proxy step start past s (some (plan, task :: rest)) w)
    (answer : (w.step (.forward proxy task.call)).1 = .ok reply) :
    Reaches proxy step start (past ++ [.own w task true]) (s.done task) (some (plan, rest))
      (w.step (.forward proxy task.call)).2
  | refuse {past s plan task rest w err}
    (goes : Reaches proxy step start past s (some (plan, task :: rest)) w)
    (answer : (w.step (.forward proxy task.call)).1 = .error err) :
    Reaches proxy step start (past ++ [.own w task false]) s none
      (w.step (.forward proxy task.call)).2
  | finish {past s plan w} (goes : Reaches proxy step start past s (some (plan, [])) w) :
    Reaches proxy step start past s none w

/-- What is left of a plan when it has been applied without interruption: no task, or not even the
plan after a call that failed. -/
def phaseAfter (plan : PiecePlan) : Except HandleError Unit → Option (PiecePlan × List Task)
  | .ok () => some (plan, [])
  | .error _ => none

section Reaches

variable {proxy engine : ℕ} {interval : UInt32} {start w : World} {past : List Move}
  {s : DeadlineSink} {phase : Option (PiecePlan × List Task)} {plan : PiecePlan}
  {todo : List Task} {a : Address} {piece : ℕ}

lemma Reaches.run (goes : Reaches proxy interval start past s phase w) :
    ∃ steps, w = start.run steps := by
  have next : ∀ {w} {aside : World.Step}, (∃ steps, w = start.run steps) →
      ∃ steps, (w.step aside).2 = start.run steps := by
    rintro w aside ⟨steps, rfl⟩
    exact ⟨steps ++ [aside], (start.run_append steps [aside]).symm⟩
  induction goes with
  | start => exact ⟨[], rfl⟩
  | other _ aside ih => exact next ih
  | accept _ _ ih => exact next ih
  | refuse _ _ ih => exact next ih
  | begin _ _ _ ih => exact ih
  | finish _ ih => exact ih

/-- An uninterrupted application of a plan is a way to go. -/
theorem Reaches.carryOut (goes : Reaches proxy interval start past s (some (plan, todo)) w) :
    let r := DeadlineSink.carryOut (w.proxy proxy) todo s w.host
    ∃ more, (∀ x ∈ more, ∃ w task accepted, x = .own w task accepted) ∧
      Reaches proxy interval start (past ++ more) r.2.1 (phaseAfter plan r.1)
        { w with host := r.2.2 } := by
  induction todo generalizing past s w with
  | nil =>
    refine ⟨[], nofun, ?_⟩
    rwa [List.append_nil]
  | cons task rest ih =>
    have forwarded : w.step (.forward proxy task.call) =
      (((w.proxy proxy).forward task.call w.host).1,
        { w with host := ((w.proxy proxy).forward task.call w.host).2 }) := rfl
    rw [DeadlineSink.carryOut]
    cases answer : (w.proxy proxy).forward task.call w.host with
    | mk result h' =>
      rw [answer] at forwarded
      cases result with
      | error err =>
        have went := goes.refuse (congrArg Prod.fst forwarded)
        rw [forwarded] at went
        exact ⟨_, List.forall_mem_singleton.2 ⟨w, task, false, rfl⟩, went⟩
      | ok reply =>
        have went := goes.accept (congrArg Prod.fst forwarded)
        rw [forwarded] at went
        obtain ⟨more, mine, went⟩ := ih went
        rw [List.append_assoc] at went
        exact ⟨_, List.forall_mem_cons.2 ⟨⟨w, task, true, rfl⟩, mine⟩, went⟩

/-! ### The set of the sink -/

lemma owes_accepted (known : piece ∈ s.active ↔ Owes past piece) (task : Task) :
    piece ∈ (s.done task).active ↔ Owes (past ++ [.own w task true]) piece := by
  rw [Owes, since_concat]
  cases task with
  | reset number =>
    change piece ∈ s.active.erase number ↔ False ∨ Owes past piece ∧ number ≠ piece
    rw [Std.ExtTreeSet.mem_erase, known, Ne, Nat.compare_eq_eq, false_or, and_comm]
  | set number milliseconds =>
    change piece ∈ s.active.insert number ↔ number = piece ∨ Owes past piece ∧ ¬ False
    rw [Std.ExtTreeSet.mem_insert, known, Nat.compare_eq_eq, not_false_iff, and_true]

lemma owes_else {x : Move} (unset : ¬ x.SetsOwn piece) (kept : ¬ x.ResetsOwn piece) :
    Owes (past ++ [x]) piece ↔ Owes past piece := by
  rw [Owes, since_concat]
  exact ⟨fun either => (either.resolve_left unset).1, fun owes => .inr ⟨owes, kept⟩⟩

/-- At every point the sink knows which deadlines it has set and not reset. -/
theorem Reaches.mem_active_iff (goes : Reaches proxy interval start past s phase w) :
    piece ∈ s.active ↔ Owes past piece := by
  induction goes with
  | start => exact iff_of_false Std.ExtTreeSet.not_mem_empty not_since_nil
  | other _ aside ih => exact ih.trans (owes_else id id).symm
  | @accept _ _ _ task _ _ _ _ _ ih => exact owes_accepted ih task
  | @refuse _ _ _ task _ _ _ _ _ ih =>
    refine ih.trans (owes_else ?_ ?_).symm <;> cases task <;> exact id
  | begin _ _ _ ih => exact ih
  | finish _ ih => exact ih

/-! ### The plan under way -/

/-- The tasks that are left take away every deadline of the sink that is to go, and set none for
other pieces than those of the plan. -/
structure Follows (s : DeadlineSink) (plan : PiecePlan) (todo : List Task) : Prop where
  numbers : ∀ task ∈ todo, task.piece < UInt32.size
  sets : ∀ piece milliseconds, .set piece milliseconds ∈ todo → piece ∈ plan.pieces
  covers : ∀ piece ∈ s.active,
    piece ∈ plan.pieces ∨ keeps plan piece = true ∨ .reset piece ∈ todo

lemma mem_done {task : Task} (inside : piece ∈ (s.done task).active) :
    piece ∈ s.active ∧ task ≠ .reset piece ∨ ∃ milliseconds, task = .set piece milliseconds := by
  cases task with
  | reset number =>
    obtain ⟨other, before⟩ := Std.ExtTreeSet.mem_erase.1 inside
    refine .inl ⟨before, ?_⟩
    rintro ⟨⟩
    exact other (Nat.compare_eq_eq.2 rfl)
  | set number milliseconds =>
    rcases Std.ExtTreeSet.mem_insert.1 inside with here | before
    · obtain rfl := Nat.compare_eq_eq.1 here
      exact .inr ⟨milliseconds, rfl⟩
    · exact .inl ⟨before, nofun⟩

lemma follows_tasks (inRange : ∀ piece ∈ s.active, piece < UInt32.size)
    (numbers : ∀ piece ∈ plan.pieces, piece < UInt32.size) : s.Follows plan (s.tasks plan) := by
  have planned : ∀ piece time, (piece, time) ∈ plan.schedule s.step → piece ∈ plan.pieces := by
    intro piece time there
    obtain ⟨⟨_, i⟩, place, same⟩ := List.mem_map.1 there
    obtain ⟨rfl, -⟩ := Prod.mk.inj same
    exact List.fst_mem_of_mem_zipIdx place
  refine ⟨fun task there => ?_, fun piece milliseconds there => ?_, fun piece inside => ?_⟩
  · rcases List.mem_append.1 there with gone | named
    · obtain ⟨piece, dropped, rfl⟩ := List.mem_map.1 gone
      exact inRange piece (mem_dropped.1 dropped).1
    · obtain ⟨⟨piece, time⟩, scheduled, rfl⟩ := List.mem_map.1 named
      exact numbers piece (planned piece time scheduled)
  · rcases List.mem_append.1 there with gone | named
    · obtain ⟨_, -, ⟨⟩⟩ := List.mem_map.1 gone
    · obtain ⟨_, scheduled, ⟨⟩⟩ := List.mem_map.1 named
      exact planned _ _ scheduled
  · by_cases wanted : piece ∈ plan.pieces
    · exact .inl wanted
    · cases kept : keeps plan piece with
      | true => exact .inr (.inl rfl)
      | false =>
        have dropped : piece ∈ s.dropped plan := mem_dropped.2 ⟨inside, wanted, kept⟩
        exact .inr (.inr (List.mem_append_left _ (List.mem_map_of_mem dropped)))

lemma Follows.accept {task : Task} {rest : List Task} (follows : s.Follows plan (task :: rest)) :
    (s.done task).Follows plan rest := by
  refine ⟨fun other later => follows.numbers other (List.mem_cons_of_mem task later),
    fun piece time later => follows.sets piece time (List.mem_cons_of_mem task later),
    fun piece inside => ?_⟩
  rcases mem_done inside with ⟨before, other⟩ | ⟨milliseconds, rfl⟩
  · refine (follows.covers piece before).imp_right fun covered => covered.imp_right fun todo => ?_
    exact (List.mem_cons.1 todo).resolve_left other.symm
  · exact .inl (follows.sets piece milliseconds List.mem_cons_self)

/-- The tasks that are left are always those of the plan. -/
lemma Reaches.follows (goes : Reaches proxy interval start past s phase w) :
    (∀ piece ∈ s.active, piece < UInt32.size) ∧
      ∀ plan todo, phase = some (plan, todo) → s.Follows plan todo := by
  induction goes with
  | start => exact ⟨fun _ inside => absurd inside Std.ExtTreeSet.not_mem_empty, nofun⟩
  | other _ aside ih => exact ih
  | begin _ plan numbers ih =>
    refine ⟨ih.1, ?_⟩
    rintro _ _ ⟨⟩
    exact follows_tasks ih.1 numbers
  | accept _ _ ih =>
    have follows := ih.2 _ _ rfl
    refine ⟨fun piece inside => ?_, ?_⟩
    · rcases mem_done inside with ⟨before, -⟩ | ⟨milliseconds, rfl⟩
      · exact ih.1 piece before
      · exact follows.numbers _ List.mem_cons_self
    · rintro _ _ ⟨⟩
      exact follows.accept
  | refuse _ _ ih => exact ⟨ih.1, nofun⟩
  | finish _ ih => exact ⟨ih.1, nofun⟩

/-! ### Deadlines of nobody else -/

/-- The proxy refers to the address at the engine, if to any. -/
structure RefersTo (w : World) (proxy engine : ℕ) (a : Address) : Prop where
  there : proxy < w.proxies.size
  address : ∀ b, (w.proxy proxy).address = some b → b = a
  leads : w.host.target? (w.proxy proxy).endpoint = some engine

lemma RefersTo.step (refers : RefersTo w proxy engine a) (aside : World.Step) :
    RefersTo (w.step aside).2 proxy engine a := by
  obtain ⟨bound, same, address⟩ := World.proxy_step
    (P := fun p => p.endpoint = (w.proxy proxy).endpoint ∧ ∀ b, p.address = some b → b = a)
    (fun p holds => ⟨holds.1, nofun⟩) aside refers.there ⟨rfl, refers.address⟩
  refine ⟨bound, address, ?_⟩
  rw [same, World.target?_step]
  exact refers.leads

lemma RefersTo.of_address (address : (w.proxy proxy).address = some a)
    (leads : w.host.target? (w.proxy proxy).endpoint = some engine) :
    RefersTo w proxy engine a := by
  refine ⟨?_, fun b other => Option.some.inj (other.symm.trans address), leads⟩
  by_contra beyond
  simp [World.proxy, beyond] at address

lemma RefersTo.not_due (refers : RefersTo w proxy engine a) {number : UInt32} {reply : Unit}
    (answer : (w.step (.forward proxy (.resetPieceDeadline number))).1 = .ok reply) :
    ¬ (w.step (.forward proxy (.resetPieceDeadline number))).2.host.Due engine a number.toNat := by
  cases address : (w.proxy proxy).address with
  | none =>
    rw [World.step_forward_of_none address] at answer
    cases answer
  | some b =>
    obtain rfl := refers.address b address
    exact World.not_due_reset address refers.leads

/-- Where a piece has a deadline that nothing but the sink has set, it was so before the last move,
or this move has set the deadline. -/
lemma OnlyOwn.last {x : Move} {aside : World.Step} {given : List Address}
    (own : OnlyOwn (past ++ [x]) engine a piece) (sound : x.world.host.Given given)
    (due : (x.world.step aside).2.host.Due engine a piece) : ¬ x.SetsOther engine a piece ∧
      (x.world.host.Due engine a piece ∧ OnlyOwn past engine a piece ∨
        aside.Sets x.world engine a piece) := by
  have before := World.due_step sound due
  rcases since_concat.1 own with ⟨none, quiet⟩ | ⟨own, quiet⟩
  · exact ⟨quiet, .inr (before.resolve_left none)⟩
  · exact ⟨quiet, before.imp_left fun due => ⟨due, own⟩⟩

/-- A deadline that nothing but the sink has set is known to the sink, and is one of the torrent
that its proxy refers to. -/
theorem Reaches.recorded (goes : Reaches proxy interval start past s phase w)
    (sound : ∀ steps, ∃ given, (start.run steps).host.Given given)
    (due : w.host.Due engine a piece) (own : OnlyOwn past engine a piece) :
    piece ∈ s.active ∧ RefersTo w proxy engine a := by
  have issued : ∀ {past s phase w}, Reaches proxy interval start past s phase w →
      ∃ given, w.host.Given given := by
    intro past s phase w goes
    obtain ⟨steps, rfl⟩ := goes.run
    exact sound steps
  induction goes with
  | start => exact absurd own not_since_nil
  | begin _ _ _ ih => exact ih due own
  | finish _ ih => exact ih due own
  | other goes aside ih =>
    obtain ⟨given, sound⟩ := issued goes
    obtain ⟨quiet, ⟨due, own⟩ | sets⟩ := own.last sound due
    · obtain ⟨known, refers⟩ := ih due own
      exact ⟨known, refers.step aside⟩
    · exact absurd sets quiet
  | @accept past s plan task rest w reply goes answer ih =>
    -- the deadline was there before and this task has not reset it, or this task has set it
    obtain ⟨given, sound⟩ := issued goes
    have numbers := (goes.follows.2 _ _ rfl).numbers task List.mem_cons_self
    have exact : (UInt32.ofNat task.piece).toNat = task.piece := UInt32.toNat_ofNat_of_lt' numbers
    obtain ⟨-, ⟨before, own⟩ | sets⟩ := own.last sound due
    · obtain ⟨known, refers⟩ := ih before own
      refine ⟨?_, refers.step _⟩
      cases task with
      | reset number =>
        -- a reset of the piece would have gone to this very torrent
        refine Std.ExtTreeSet.mem_erase.2 ⟨fun same => ?_, known⟩
        obtain rfl := Nat.compare_eq_eq.1 same
        exact refers.not_due answer (exact.symm ▸ due)
      | set number milliseconds => exact Std.ExtTreeSet.mem_insert.2 (.inr known)
    · obtain ⟨number, milliseconds, call, rfl, address, leads, -⟩ := World.sets_forward sets
      refine ⟨?_, (RefersTo.of_address address leads).step _⟩
      cases task with
      | reset number => cases call
      | set piece milliseconds =>
        obtain ⟨rfl, -⟩ := Call.setPieceDeadline.inj call
        exact Std.ExtTreeSet.mem_insert.2 (.inl (Nat.compare_eq_eq.2 exact.symm))
  | refuse goes answer ih =>
    obtain ⟨given, sound⟩ := issued goes
    obtain ⟨-, ⟨before, own⟩ | sets⟩ := own.last sound due
    · obtain ⟨known, refers⟩ := ih before own
      exact ⟨known, refers.step _⟩
    · obtain ⟨number, milliseconds, -, -, -, -, reply, accepted⟩ := World.sets_forward sets
      cases answer.symm.trans accepted

end Reaches

/-- **A sink loses no deadline.** Let a fresh sink be given plans one after another, and let
anything be done with engines, proxies and tokens before, after and within each, so that its calls
may fail at any point. At each point the sink knows the pieces that it has set a deadline for and
not reset since. When a plan has gone through, a piece that it does not name and that has a
deadline, set by nothing but the sink, lies in the range that may hold the index of the container.
To apply a plan without interruption is one of the ways to go, and one that fails leaves the sink
idle. -/
theorem deadlines_never_lost (specs : List (EngineSettings × Bus Event))
    (recorders : Array (ℕ × Journal)) (stubs : Array (ℕ × Stub)) (earlier : List World.Step)
    {proxy : ℕ} {interval : UInt32} {past : List Move} {s : DeadlineSink}
    {phase : Option (PiecePlan × List Task)} {w : World}
    (goes : Reaches proxy interval ((World.ofHost specs recorders stubs).run earlier) past s phase
      w) :
    (∀ piece, piece ∈ s.active ↔ Owes past piece) ∧
      (∀ plan, phase = some (plan, []) → ∀ engine a piece, w.host.Due engine a piece →
        OnlyOwn past engine a piece → piece ∉ plan.pieces →
          ∃ first last, plan.possibleFooter = some (first, last) ∧ first ≤ piece ∧ piece ≤ last) ∧
      (phase = none → ∀ plan : PiecePlan, (∀ piece ∈ plan.pieces, piece < UInt32.size) →
        let r := s.downloadOnly plan (w.proxy proxy) w.host
        ∃ more, (∀ x ∈ more, ∃ w task accepted, x = .own w task accepted) ∧
          Reaches proxy interval ((World.ofHost specs recorders stubs).run earlier) (past ++ more)
            r.2.1 (phaseAfter plan r.1) { w with host := r.2.2 }) := by
  refine ⟨fun piece => goes.mem_active_iff, ?_, ?_⟩
  · rintro plan rfl engine a piece due own unplanned
    have sound : ∀ steps, ∃ given,
        (((World.ofHost specs recorders stubs).run earlier).run steps).host.Given given := by
      intro steps
      obtain ⟨given, sound, -⟩ := (World.tracked_run specs recorders stubs (earlier ++ steps)).given
      exact ⟨given, World.run_append _ earlier steps ▸ sound⟩
    obtain ⟨known, -⟩ := goes.recorded sound due own
    rcases (goes.follows.2 plan [] rfl).covers piece known with planned | kept | todo
    · exact absurd planned unplanned
    · unfold keeps at kept
      split at kept
      · rename_i first last footer
        rw [Bool.and_eq_true, decide_eq_true_eq, decide_eq_true_eq] at kept
        exact ⟨first, last, footer, kept⟩
      · cases kept
    · cases todo
  · rintro rfl plan numbers
    rw [downloadOnly_eq]
    exact (goes.begin plan numbers).carryOut

theorem sample_deadlines_never_lost :
    let w₀ := (World.ofHost [({}, ⟨1, by decide, #[], 1⟩)] #[] #[]).run
      [.start 0 (.ofMetadata .sample)]
    let w₁ := (w₀.step (.forward 0 (.setPieceDeadline 1 0))).2
    let w₂ := (w₁.step (.forward 0 (.setPieceDeadline 2 100))).2
    let w₃ := (w₂.step (.session 0 ⟨1, 0, 1⟩ .pause)).2
    let w₄ := (w₃.step (.forward 0 (.setPieceDeadline 5 200))).2
    let w₅ := (w₄.step (.forward 0 (.resetPieceDeadline 1))).2
    let w₆ := (w₅.step (.forward 0 (.setPieceDeadline 0 0))).2
    let past : List Move := [.own w₀ (.set 1 0) true, .own w₁ (.set 2 100) true,
      .other w₂ (.session 0 ⟨1, 0, 1⟩ .pause), .own w₃ (.set 5 200) false,
      .own w₄ (.reset 1) true, .own w₅ (.set 0 0) true]
    let plan : PiecePlan := ⟨[0], some (2, 2)⟩
    ∃ s, Reaches 0 100 w₀ past s (some (plan, [])) w₆ ∧ w₆.host.Due 0 ⟨1, 0, 1⟩ 2 ∧
      OnlyOwn past 0 ⟨1, 0, 1⟩ 2 ∧ Owes past 2 ∧ ¬ Owes past 1 ∧
      ∃ first last, plan.possibleFooter = some (first, last) ∧ first ≤ 2 ∧ 2 ≤ last := by
  intro w₀ w₁ w₂ w₃ w₄ w₅ w₆ past plan
  let s₀ : DeadlineSink := { step := 100 }
  let s₂ := (s₀.done (.set 1 0)).done (.set 2 100)
  have tasks₀ : s₀.tasks ⟨[1, 2, 5], none⟩ = [.set 1 0, .set 2 100, .set 5 200] := by
    decide +kernel
  have tasks₂ : s₂.tasks plan = [.reset 1, .set 0 0] := by decide +kernel
  have begun : Reaches 0 100 w₀ [] s₀ (some (⟨[1, 2, 5], none⟩, s₀.tasks ⟨[1, 2, 5], none⟩)) w₀ :=
    Reaches.start.begin _ (by decide)
  rw [tasks₀] at begun
  have set₁ : (w₀.step (.forward 0 (.setPieceDeadline 1 0))).1 = .ok () := by decide +kernel
  have set₂ : (w₁.step (.forward 0 (.setPieceDeadline 2 100))).1 = .ok () := by decide +kernel
  have set₅ : (w₃.step (.forward 0 (.setPieceDeadline 5 200))).1 =
      .error (.nativeFailure "set_piece_deadline" (.outOfRange "piece" 5 3)) := by
    decide +kernel
  have reset₁ : (w₄.step (.forward 0 (.resetPieceDeadline 1))).1 = .ok () := by decide +kernel
  have set₀ : (w₅.step (.forward 0 (.setPieceDeadline 0 0))).1 = .ok () := by decide +kernel
  have failed := (((begun.accept set₁).accept set₂).other (.session 0 ⟨1, 0, 1⟩ .pause)).refuse set₅
  have again := failed.begin plan (by decide)
  rw [show ((s₀.done (.set 1 0)).done (.set 2 100)).tasks plan = _ from tasks₂] at again
  have goes := (again.accept reset₁).accept set₀
  have due : w₆.host.Due 0 ⟨1, 0, 1⟩ 2 := by decide +kernel
  have own : OnlyOwn past 0 ⟨1, 0, 1⟩ 2 := by
    refine ⟨[], _, _, rfl, ⟨by decide +kernel, id⟩, ?_⟩
    simp [Move.SetsOther, World.Step.Sets, World.Step.calls, Host.Sets, NativeCall.Sets]
  obtain ⟨known, footer, -⟩ := deadlines_never_lost [({}, ⟨1, by decide, #[], 1⟩)] #[] #[]
    [.start 0 (.ofMetadata .sample)] goes
  exact ⟨_, goes, due, own, (known 2).1 (by decide +kernel),
    mt (known 1).2 (by decide +kernel), footer plan rfl 0 ⟨1, 0, 1⟩ 2 due own (by decide)⟩

end DeadlineSink

end TorrentHandle
