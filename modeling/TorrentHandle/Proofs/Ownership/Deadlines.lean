import TorrentHandle.Proofs.Engine.Deadlines
import TorrentHandle.Proofs.Ownership.Inert

/-!
Where deadlines come from. Whatever is done with engines, proxies or tokens, a piece that has a
deadline afterwards had it before, or one was set for it at this address of this engine by a call
that was accepted; and after a call that resets it there is none.
-/

namespace TorrentHandle

/-! ### Deadlines through calls -/

section Revise

variable {t t' : Torrent} {piece : ℕ}

lemma Call.deadlines_revise {c : Call} (due : piece ∈ (c.revise t).deadlines) :
    piece ∈ t.deadlines ∨ ∃ number milliseconds t', c = .setPieceDeadline number milliseconds ∧
      number.toNat = piece ∧ t.setDeadline number milliseconds = .ok t' := by
  cases c with
  | setPieceDeadline number milliseconds =>
    change piece ∈ (t.orSame (t.setDeadline number milliseconds)).deadlines at due
    cases done : t.setDeadline number milliseconds with
    | error err =>
      rw [done] at due
      exact .inl due
    | ok t' =>
      rw [done] at due
      obtain ⟨-, rfl⟩ := Torrent.setDeadline_eq_ok.1 done
      change piece ∈ Torrent.deadlines (if _ then _ else _) at due
      split at due
      · exact .inl due
      · rcases Std.ExtTreeMap.mem_insert.1 due with here | before
        · exact .inr ⟨number, milliseconds, _, rfl, Nat.compare_eq_eq.1 here, done⟩
        · exact .inl before
  | resetPieceDeadline number => exact .inl (Std.ExtTreeMap.mem_of_mem_erase due)
  | clearPieceDeadlines => exact absurd due Std.ExtTreeMap.not_mem_empty
  | addTracker tracker =>
    change piece ∈ Torrent.deadlines (if _ then _ else _) at due
    split at due <;> exact .inl due
  | ignoreAllFiles =>
    change piece ∈ (t.orSame t.ignoreFiles).deadlines at due
    cases done : t.ignoreFiles <;> rw [done] at due
    · exact .inl due
    · obtain ⟨-, rfl⟩ := Torrent.ignoreFiles_eq_ok.1 done
      exact .inl due
  | setFilePriority index priority =>
    change piece ∈ (t.orSame (t.setPriority index priority)).deadlines at due
    cases done : t.setPriority index priority <;> rw [done] at due
    · exact .inl due
    · obtain ⟨-, -, rfl⟩ := Torrent.setPriority_eq_ok.1 done
      exact .inl due
  | _ => exact .inl due

lemma SessionCall.deadlines_revise {defaults : List Tracker} {c : SessionCall} {o : Option Torrent}
    (after : c.revise defaults o = some t') (due : piece ∈ t'.deadlines) :
    ∃ t, o = some t ∧ piece ∈ t.deadlines := by
  cases c with
  | startDownload params =>
    cases o with
    | some t => exact ⟨t', after, due⟩
    | none =>
      obtain ⟨t, there, rfl⟩ := Option.map_eq_some_iff.1 after
      cases made : Torrent.ofParams params with
      | error err => simp [made, Except.toOption] at there
      | ok made' =>
        obtain rfl : made' = t := by simpa [made, Except.toOption] using there
        rw [Engine.deadlines_ofParams made] at due
        exact absurd due Std.ExtTreeMap.not_mem_empty
  | removeTorrent => cases after
  | setMetadata m =>
    obtain ⟨t, there, rfl⟩ := Option.map_eq_some_iff.1 after
    refine ⟨t, there, ?_⟩
    cases done : t.setMetadata m <;> rw [done] at due
    · exact due
    · rwa [← Torrent.deadlines_setMetadata done]
  | pause =>
    obtain ⟨t, there, rfl⟩ := Option.map_eq_some_iff.1 after
    exact ⟨t, there, due⟩
  | recordPieceFinished number =>
    obtain ⟨t, there, rfl⟩ := Option.map_eq_some_iff.1 after
    refine ⟨t, there, ?_⟩
    cases done : t.finishPiece number <;> rw [done] at due
    · exact due
    · obtain ⟨-, rfl⟩ := Torrent.finishPiece_eq_ok.1 done
      exact Std.ExtTreeMap.mem_of_mem_erase due
  | _ => exact ⟨t', after, due⟩

end Revise

/-! ### One engine -/

namespace Engine

variable {e : Engine} {a : Address} {piece : ℕ}

/-- The piece of the torrent at an address has a deadline. -/
def Due (e : Engine) (a : Address) (piece : ℕ) : Prop :=
  ∃ h t, e.objects.get? a = some h ∧ h.torrent = some t ∧ piece ∈ t.deadlines

instance (e : Engine) (a : Address) (piece : ℕ) : Decidable (e.Due a piece) :=
  decidable_of_iff
    (((e.objects.get? a).bind (·.torrent)).any (·.deadlines.contains piece) = true) (by
      simp only [Due, Option.any_eq_true, Option.bind_eq_some_iff,
        ← Std.ExtTreeMap.mem_iff_contains]
      grind)

lemma due_act {issued : List Address} (sound : e.objects.Sound issued) {op : Op}
    (due : (e.act op).2.Due a piece) : e.Due a piece ∨ ∃ number milliseconds,
      op = .call a (.setPieceDeadline number milliseconds) ∧ number.toNat = piece ∧
        (e.call a (.setPieceDeadline number milliseconds)).1 = .ok () := by
  obtain ⟨h', t', found, attached, inside⟩ := due
  -- the object was there before, or it is new: without a torrent, or with one just made
  rcases get?_act_cases sound found with ⟨h, before, rfl⟩ | rfl | ⟨params, rfl⟩
  · cases op with
    | call b c =>
      rw [Op.edit] at attached
      split at attached
      · rename_i here
        subst here
        rw [torrent_leave_call] at attached
        obtain ⟨t, there, rfl⟩ := Option.map_eq_some_iff.1 attached
        rcases Call.deadlines_revise inside with old | ⟨number, milliseconds, t', rfl, same, done⟩
        · exact .inl ⟨h, t, before, there, old⟩
        · have set : e.call a (.setPieceDeadline number milliseconds) = _ :=
            (call_eq_attempt _).trans (attempt_update before there done)
          exact .inr ⟨number, milliseconds, rfl, same, congrArg Prod.fst set⟩
      · exact .inl ⟨h, t', before, attached, inside⟩
    | session b c =>
      rw [Op.edit] at attached
      split at attached
      · rw [torrent_leave_session] at attached
        obtain ⟨t, there, old⟩ := SessionCall.deadlines_revise attached inside
        exact .inl ⟨h, t, before, there, old⟩
      · exact .inl ⟨h, t', before, attached, inside⟩
    | _ => exact .inl ⟨h, t', before, attached, inside⟩
  · cases attached
  · rw [torrent_leave_session] at attached
    obtain ⟨t, there, -⟩ := SessionCall.deadlines_revise attached inside
    cases there

lemma not_due_reset (e : Engine) (a : Address) (number : UInt32) :
    ¬ (e.call a (.resetPieceDeadline number)).2.Due a number.toNat := by
  rintro ⟨h', t', found, attached, due⟩
  rw [call_eq_attempt, get?_attempt, if_pos rfl] at found
  obtain ⟨h, -, rfl⟩ := Option.map_eq_some_iff.1 found
  rw [torrent_leave_call] at attached
  obtain ⟨t, -, rfl⟩ := Option.map_eq_some_iff.1 attached
  exact (Std.ExtTreeMap.mem_erase.1 due).1 (Nat.compare_eq_eq.2 rfl)

end Engine

/-! ### Engines of a host -/

/-- The operation that a call comes to where it is carried out. -/
def NativeCall.op : NativeCall → Engine.Op
  | newHandle _ => .newHandle
  | destroyHandle _ a => .destroyHandle a
  | call _ a c => .call a c
  | session _ a c => .session a c

/-- Where a call is carried out. -/
def NativeCall.target? (h : Host) : NativeCall → Option ℕ
  | newHandle endpoint | destroyHandle endpoint _ | call endpoint _ _ => h.target? endpoint
  | session engine _ _ => some engine

/-- A stub lets the engine carry out an operation if no failure is set. -/
lemma Stub.guard_cases {α : Type} (s : Stub) (e : Engine)
    {f : Engine → Except NativeError α × Engine} {op : Engine.Op} {P : Prop}
    (acts : (f e).2 = (e.act op).2) :
    (s.guard e f).2 = e ∨ (s.guard e f).2 = (e.act op).2 ∧ (s.failure = none ∨ P) := by
  unfold guard
  cases works : s.failure with
  | some err => exact .inl rfl
  | none => exact .inr ⟨acts, .inl rfl⟩

namespace Host

variable {α : Type} {h h' : Host} {given : List Address} {engine i : ℕ} {a : Address} {piece : ℕ}
  {op : Engine.Op} {target : Option ℕ} {missing : α}

/-- An operation is carried out by the engine that it is meant for, or by none; whether a handle is
valid may be asked also where calls fail. Endpoints lead where they led. -/
structure Carries (h : Host) (op : Engine.Op) (target : Option ℕ) (h' : Host) : Prop where
  leads : ∀ endpoint, h'.target? endpoint = h.target? endpoint
  engines : h'.engines = h.engines ∨ ∃ i e, h.engines[i]? = some e ∧
    h'.engines = h.engines.setIfInBounds i (e.act op).2 ∧
    (target = some i ∨ ∃ a, op = .call a .isValid)

lemma Carries.none (h : Host) : h.Carries op target h := ⟨fun _ => rfl, .inl rfl⟩

lemma carries_onEngine {f : Engine → α × Engine} (acts : ∀ e, (f e).2 = e ∨
    (f e).2 = (e.act op).2 ∧ (target = some i ∨ ∃ a, op = .call a .isValid)) :
    h.Carries op target (h.onEngine i missing f).2 := by
  unfold onEngine
  split
  · exact .none h
  · rename_i e here
    refine ⟨fun endpoint => ?_, ?_⟩
    · cases endpoint <;> rfl
    · rcases acts e with same | ⟨done, meant⟩
      · refine .inl ?_
        change h.engines.setIfInBounds i (f e).2 = h.engines
        rw [same, Arena.setIfInBounds_self here]
      · exact .inr ⟨i, e, here, congrArg (h.engines.setIfInBounds i) done, meant⟩

lemma carries_onRecorder {f : Journal → Engine → α × Journal × Engine}
    (acts : ∀ j e, (f j e).2.2 = (e.act op).2) :
    h.Carries op (h.target? (.recorder i)) (h.onRecorder i missing f).2 := by
  unfold onRecorder
  split
  · exact .none h
  · rename_i engine j there
    split
    · exact .none h
    · rename_i e here
      refine ⟨fun endpoint => ?_, .inr ⟨engine, e, here, ?_, .inl ?_⟩⟩
      · cases endpoint with
        | recorder k =>
          by_cases same : i = k
          · subst same
            obtain ⟨below, recorder⟩ := Array.getElem?_eq_some_iff.1 there
            simp [target?, below, recorder]
          · simp [target?, same]
        | _ => rfl
      · exact congrArg (h.engines.setIfInBounds engine) (acts j e)
      · rw [target?, there]
        rfl

lemma carries_onStub {f : Stub → Engine → α × Engine} (acts : ∀ s e, (f s e).2 = e ∨
    (f s e).2 = (e.act op).2 ∧ (s.failure = Option.none ∨ ∃ a, op = .call a .isValid)) :
    h.Carries op (h.target? (.stub i)) (h.onStub i missing f).2 := by
  unfold onStub
  split
  · exact .none h
  · rename_i engine s there
    refine carries_onEngine fun e => (acts s e).imp_right fun ⟨done, meant⟩ => ⟨done, ?_⟩
    refine meant.imp_left fun works => ?_
    rw [target?, there]
    simp [works]

lemma carries_perform (h : Host) (c : NativeCall) :
    h.Carries c.op (c.target? h) (h.perform c) := by
  cases c with
  | newHandle endpoint =>
    cases endpoint with
    | engine i => exact carries_onEngine fun e => .inr ⟨rfl, .inl rfl⟩
    | recorder i => exact carries_onRecorder fun j e => j.newHandle_engine e
    | stub i => exact carries_onStub fun s e => s.guard_cases e rfl
  | destroyHandle endpoint a =>
    cases endpoint with
    | engine i => exact carries_onEngine fun e => .inr ⟨rfl, .inl rfl⟩
    | recorder i => exact carries_onRecorder fun j e => rfl
    | stub i => exact carries_onStub fun s e => s.guard_cases e rfl
  | call endpoint a c =>
    cases endpoint with
    | engine i => exact carries_onEngine fun e => .inr ⟨rfl, .inl rfl⟩
    | recorder i => exact carries_onRecorder fun j e => rfl
    | stub i =>
      refine carries_onStub fun s e => ?_
      unfold Stub.call
      split
      · rename_i asked
        exact .inr ⟨rfl, .inr ⟨a, congrArg (Engine.Op.call a) asked⟩⟩
      · exact s.guard_cases e rfl
  | session engine a c => exact carries_onEngine fun e => .inr ⟨rfl, .inl rfl⟩

/-! ### Deadlines in a host -/

/-- The piece of the torrent at an address of an engine has a deadline. -/
def Due (h : Host) (engine : ℕ) (a : Address) (piece : ℕ) : Prop :=
  ∃ e, h.engines[engine]? = some e ∧ e.Due a piece

instance (h : Host) (engine : ℕ) (a : Address) (piece : ℕ) : Decidable (h.Due engine a piece) :=
  decidable_of_iff (h.engines[engine]?.any (fun e => decide (e.Due a piece)) = true) (by
    simp only [Due, Option.any_eq_true, decide_eq_true_eq])

end Host

/-- The call sets a deadline for the piece of the torrent at an address of an engine. -/
def NativeCall.Sets (h : Host) (engine : ℕ) (a : Address) (piece : ℕ) : NativeCall → Prop
  | call endpoint b (.setPieceDeadline number milliseconds) =>
    b = a ∧ number.toNat = piece ∧ h.target? endpoint = some engine ∧
      (h.call b (.setPieceDeadline number milliseconds) endpoint).1 = .ok ()
  | _ => False

namespace Host

variable {h : Host} {given : List Address} {engine : ℕ} {a : Address} {piece : ℕ}

/-- One of the calls sets a deadline for the piece. -/
def Sets (h : Host) (engine : ℕ) (a : Address) (piece : ℕ) : List NativeCall → Prop
  | [] => False
  | c :: cs => c.Sets h engine a piece ∨ (h.perform c).Sets engine a piece cs

lemma due_perform (sound : h.Given given) {c : NativeCall}
    (due : (h.perform c).Due engine a piece) :
    h.Due engine a piece ∨ c.Sets h engine a piece := by
  obtain ⟨e', there, due⟩ := due
  obtain ⟨-, same | ⟨i, e, here, engines, meant⟩⟩ := h.carries_perform c
  · exact .inl ⟨e', same ▸ there, due⟩
  · rw [engines, getElem?_set here] at there
    split at there
    · rename_i same
      subst same
      obtain rfl := Option.some.inj there
      obtain ⟨-, issued, arena, -⟩ := sound engine e here
      rcases Engine.due_act arena due with before | ⟨number, milliseconds, op, rfl, accepted⟩
      · exact .inl ⟨e, here, before⟩
      · cases c with
        | call endpoint b c =>
          obtain ⟨rfl, rfl⟩ := Engine.Op.call.inj op
          have leads : h.target? endpoint = some engine := meant.resolve_right nofun
          have plain : Call.setPieceDeadline number milliseconds ≠ .reloadFile := by rintro ⟨⟩
          obtain ⟨answer, -⟩ := call_of_target (a := b) (.inl plain) leads here
          exact .inr ⟨rfl, rfl, leads, answer.trans accepted⟩
        | _ => cases op
    · exact .inl ⟨e', there, due⟩

theorem due_performAll (sound : h.Given given) {cs : List NativeCall}
    (due : (h.performAll cs).Due engine a piece) :
    h.Due engine a piece ∨ h.Sets engine a piece cs := by
  induction cs generalizing h with
  | nil => exact .inl due
  | cons c cs ih =>
    rcases ih (sound.evolves (h.evolves_perform c)) due with before | set
    · exact (due_perform sound before).imp_right .inl
    · exact .inr (.inr set)

lemma target?_performAll (h : Host) (cs : List NativeCall) (endpoint : Endpoint) :
    (h.performAll cs).target? endpoint = h.target? endpoint := by
  induction cs generalizing h with
  | nil => rfl
  | cons c cs ih => exact (ih (h.perform c)).trans ((h.carries_perform c).leads endpoint)

end Host

/-! ### Deadlines over steps -/

namespace World

variable {w : World} {given : List Address} {n engine : ℕ} {a : Address} {piece : ℕ}
  {number : UInt32}

/-- The step sets a deadline for the piece of the torrent at an address of an engine. -/
def Step.Sets (w : World) (engine : ℕ) (a : Address) (piece : ℕ) (s : Step) : Prop :=
  w.host.Sets engine a piece (s.calls w)

theorem due_step (sound : w.host.Given given) {s : Step}
    (due : (w.step s).2.host.Due engine a piece) :
    w.host.Due engine a piece ∨ s.Sets w engine a piece := by
  rw [host_step] at due
  exact Host.due_performAll sound due

lemma target?_step (w : World) (s : Step) (endpoint : Endpoint) :
    (w.step s).2.host.target? endpoint = w.host.target? endpoint := by
  rw [host_step]
  exact w.host.target?_performAll _ endpoint

lemma step_forward (address : (w.proxy n).address = some a) (c : Call) :
    w.step (.forward n c) =
      ((w.host.call a c (w.proxy n).endpoint).1.mapError (·.during c.operation),
        { w with host := (w.host.call a c (w.proxy n).endpoint).2 }) := by
  simp only [step, withHost, Proxy.forward, address]

lemma step_forward_of_none (released : (w.proxy n).address = none) (c : Call) :
    w.step (.forward n c) = (.error (.useAfterRelease c.operation), w) := by
  simp only [step, withHost, Proxy.forward, released]

/-- A call that a proxy passes on sets a deadline only where the proxy refers to. -/
lemma sets_forward {c : Call} (sets : (Step.forward n c).Sets w engine a piece) :
    ∃ number milliseconds, c = .setPieceDeadline number milliseconds ∧ number.toNat = piece ∧
      (w.proxy n).address = some a ∧ w.host.target? (w.proxy n).endpoint = some engine ∧
      ∃ reply, (w.step (.forward n c)).1 = .ok reply := by
  unfold Step.Sets Step.calls forwardCalls at sets
  cases address : (w.proxy n).address with
  | none => simp [address, Host.Sets] at sets
  | some b =>
    simp only [address, Host.Sets, or_false] at sets
    cases c with
    | setPieceDeadline number milliseconds =>
      obtain ⟨rfl, same, leads, accepted⟩ := sets
      refine ⟨number, milliseconds, rfl, same, rfl, leads, (), ?_⟩
      rw [step_forward address, accepted]
      rfl
    | _ => cases sets

lemma not_due_reset (address : (w.proxy n).address = some a)
    (leads : w.host.target? (w.proxy n).endpoint = some engine) :
    ¬ (w.step (.forward n (.resetPieceDeadline number))).2.host.Due engine a number.toNat := by
  rw [step_forward address]
  rintro ⟨e', there, due⟩
  obtain ⟨e, ops, here, -⟩ := w.host.evolves_perform
    (.call (w.proxy n).endpoint a (.resetPieceDeadline number)) engine e' there
  have plain : Call.resetPieceDeadline number ≠ .reloadFile := by rintro ⟨⟩
  obtain ⟨-, engines, -⟩ := Host.call_of_target (a := a) (.inl plain) leads here
  rw [engines, Host.getElem?_set here, if_pos rfl] at there
  obtain rfl := Option.some.inj there
  exact e.not_due_reset a number due

end World

end TorrentHandle
