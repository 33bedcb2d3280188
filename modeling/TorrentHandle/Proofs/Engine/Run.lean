import TorrentHandle.Engine.Basic
import TorrentHandle.Proofs.Arena.Keys
import TorrentHandle.Proofs.Stages

/-!
Runs of an engine. Whatever an operation is, it acts on the objects one by one: `Acts` says what is
at each address afterwards, and every fact about reachable states is got from it. A run is also
written down with its answers, and `told_run` reads the live addresses off the record.
-/

namespace TorrentHandle

variable {α : Type}

/-- What is found in a history is its last event, or was found before that. -/
lemma exists_split_concat {past : List α} {last : α} {P : List α → α → List α → Prop} :
    (∃ before x after, past ++ [last] = before ++ x :: after ∧ P before x after) ↔
      P past last [] ∨ ∃ before x after, past = before ++ x :: after ∧
        P before x (after ++ [last]) := by
  constructor
  · rintro ⟨before, x, after, split, found⟩
    rcases List.eq_nil_or_concat after with rfl | ⟨after, y, rfl⟩
    · obtain ⟨rfl, same⟩ := List.append_inj' split rfl
      obtain rfl := List.head_eq_of_cons_eq same
      exact .inl found
    · rw [List.concat_eq_append] at split found
      rw [← List.cons_append, ← List.append_assoc] at split
      obtain ⟨rfl, same⟩ := List.append_inj' split rfl
      obtain rfl := List.head_eq_of_cons_eq same
      exact .inr ⟨before, x, after, rfl, found⟩
  · rintro (found | ⟨before, x, after, rfl, found⟩)
    · exact ⟨past, last, [], rfl, found⟩
    · exact ⟨before, x, after ++ [last], List.append_assoc .., found⟩

/-! ### Transitions that succeed -/

section Transitions

variable {h : HandleObject} {t : Torrent}

lemma HandleObject.requireTorrent_eq_ok : h.requireTorrent = .ok t ↔ h.torrent = some t := by
  unfold requireTorrent
  cases h.torrent <;> simp

lemma Transition.query_eq_ok {f : Torrent → α} {effect : Effect α} : query f h = .ok effect ↔
    ∃ t, h.torrent = some t ∧ effect = { reply := f t, object := h } := by
  simp only [query, bind_eq_ok, HandleObject.requireTorrent_eq_ok, pure, Except.pure,
    Except.ok.injEq, eq_comm (a := effect)]

variable {effect : Effect Unit}

lemma Transition.update_eq_ok {f : Torrent → Except NativeError Torrent} :
    update f h = .ok effect ↔ ∃ t t', h.torrent = some t ∧ f t = .ok t' ∧
      effect = { reply := (), object := { h with torrent := some t' } } := by
  simp only [update, bind_eq_ok, HandleObject.requireTorrent_eq_ok, pure, Except.pure,
    Except.ok.injEq, exists_and_left, eq_comm (a := effect)]

lemma SessionCall.install_eq_ok {m : Metadata} : install m h = .ok effect ↔
    ∃ t t', h.torrent = some t ∧ t.setMetadata m = .ok t' ∧ effect = {
      reply := ()
      object := { h with torrent := some t' }
      event := some (.metadataReceived h.id m.name) } := by
  simp only [install, bind_eq_ok, HandleObject.requireTorrent_eq_ok, pure, Except.pure,
    Except.ok.injEq, exists_and_left, eq_comm (a := effect)]

lemma SessionCall.finish_eq_ok {piece : UInt32} : finish piece h = .ok effect ↔
    ∃ t t', h.torrent = some t ∧ t.finishPiece piece = .ok t' ∧ effect = {
      reply := ()
      object := { h with torrent := some t' }
      event := if t.state = t'.state then none
        else some (.stateChanged h.id t'.state.code t'.paused) } := by
  simp only [finish, bind_eq_ok, HandleObject.requireTorrent_eq_ok, pure, Except.pure,
    Except.ok.injEq, exists_and_left, eq_comm (a := effect)]

end Transitions

/-! ### Attempts -/

/-- What a call does once it has passed its check. -/
def Call.attempt (c : Call) : Except NativeError (Transition c.Reply) :=
  c.check.map fun _ => c.transition

/-- The object that an attempt leaves; a refused one leaves it as it was. -/
def leave (attempt : Except NativeError (Transition α)) (h : HandleObject) : HandleObject :=
  match attempt with
  | .error _ => h
  | .ok f =>
    match f h with
    | .error _ => h
    | .ok effect => effect.object

namespace Engine

variable {e : Engine} {a b : Address}

/-- Calls of a handle and of a session go the same way: an attempt at the object of an address. -/
def attempt (e : Engine) (a : Address) (missing : Except NativeError α) :
    Except NativeError (Transition α) → Except NativeError α × Engine
  | .error err => (.error err, e)
  | .ok f => e.apply a missing f

lemma call_eq_attempt (c : Call) : e.call a c = e.attempt a c.missing c.attempt := by
  unfold call Call.attempt
  cases c.check <;> rfl

lemma session_eq_attempt (c : SessionCall) : e.session a c =
    e.attempt a (.error .staleAddress) (c.transition e.defaultTrackers) := by
  unfold session
  cases c.transition e.defaultTrackers <;> rfl

section Attempt

variable {missing : Except NativeError α} {f : Except NativeError (Transition α)}

lemma attempt_cases (e : Engine) (a : Address) (missing : Except NativeError α)
    (f : Except NativeError (Transition α)) : (e.attempt a missing f).2 = e ∧
      (e.objects.get? a).map (leave f) = e.objects.get? a ∨
    ∃ h bus, e.objects.get? a = some h ∧
      (e.attempt a missing f).2 = { e with objects := e.objects.set a (leave f h), bus } := by
  cases f with
  | error err => exact .inl ⟨rfl, Option.map_id'⟩
  | ok f =>
    unfold attempt apply
    cases found : e.objects.get? a with
    | none => exact .inl ⟨rfl, rfl⟩
    | some h =>
      cases result : f h with
      | error err => exact .inl ⟨by simp [result], by simp [leave, result]⟩
      | ok effect =>
        refine .inr ⟨h, e.bus.publish? effect.event, rfl, ?_⟩
        simp [leave, result]

theorem get?_attempt : (e.attempt a missing f).2.objects.get? b =
    if b = a then (e.objects.get? b).map (leave f) else e.objects.get? b := by
  obtain ⟨same, map⟩ | ⟨h, bus, found, eq⟩ := e.attempt_cases a missing f
  · rw [same]
    split
    · rename_i here
      rw [here, map]
    · rfl
  · rw [eq]
    dsimp only
    rw [Arena.get?_set]
    split
    · rename_i here
      rw [here, found]
      rfl
    · rfl

/-- An answer depends on nothing but the object at the address. -/
lemma attempt_fst_congr {e' : Engine} (same : e'.objects.get? a = e.objects.get? a) :
    (e'.attempt a missing f).1 = (e.attempt a missing f).1 := by
  cases f with
  | error err => rfl
  | ok f =>
    unfold attempt apply
    rw [same]
    cases e.objects.get? a with
    | none => rfl
    | some h => cases result : f h <;> simp [result]

lemma attempt_of_refused {err : NativeError} (refused : (e.attempt a missing f).1 = .error err) :
    (e.attempt a missing f).2 = e := by
  cases f with
  | error err => rfl
  | ok f =>
    unfold attempt apply at *
    cases found : e.objects.get? a with
    | none => rfl
    | some h =>
      cases result : f h with
      | error err => simp [result]
      | ok effect => simp [found, result] at refused

/-- Nothing but the object and the bus changes. -/
lemma attempt_frame {issued : List Address} (h : e.objects.Sound issued) :
    (e.attempt a missing f).2.objects.Sound issued ∧
      (e.attempt a missing f).2.objects.owner = e.objects.owner ∧
      (e.attempt a missing f).2.settings = e.settings := by
  obtain ⟨same, -⟩ | ⟨h', bus, -, eq⟩ := e.attempt_cases a missing f
  · rw [same]
    exact ⟨h, rfl, rfl⟩
  · rw [eq]
    exact ⟨h.set, Arena.owner_set, rfl⟩

lemma attempt_of_none (dead : e.objects.get? a = none) : e.attempt a missing f =
    (match f with
      | .error err => .error err
      | .ok _ => missing, e) := by
  cases f with
  | error err => rfl
  | ok f => simp [attempt, apply, dead]

lemma attempt_of_ok {f : Transition α} {h : HandleObject} {effect : Effect α}
    (found : e.objects.get? a = some h) (result : f h = .ok effect) :
    e.attempt a missing (.ok f) = (.ok effect.reply,
      { e with objects := e.objects.set a effect.object, bus := e.bus.publish? effect.event }) := by
  simp [attempt, apply, found, result]

lemma attempt_update {missing : Except NativeError Unit}
    {f : Torrent → Except NativeError Torrent} {h : HandleObject} {t t' : Torrent}
    (found : e.objects.get? a = some h) (attached : h.torrent = some t) (done : f t = .ok t') :
    e.attempt a missing (.ok (.update f)) =
      (.ok (), { e with objects := e.objects.set a { h with torrent := some t' } }) := by
  exact attempt_of_ok found (Transition.update_eq_ok.2 ⟨t, t', attached, done, rfl⟩)

lemma attempt_post {missing : Except NativeError Unit} (report : Int64 → Torrent → Event)
    {h : HandleObject} {t : Torrent} (found : e.objects.get? a = some h)
    (attached : h.torrent = some t) : e.attempt a missing (.ok (.post report)) = (.ok (),
      { e with objects := e.objects.set a h, bus := e.bus.publish (report h.id t) }) := by
  have posted : Transition.post report h =
      .ok { reply := (), object := h, event := some (report h.id t) } := by
    rw [Transition.post, attached, Option.map_some]
  exact attempt_of_ok found posted

lemma attempt_query_eq_ok {f : Torrent → α} {err : NativeError} {reply : α} :
    (e.attempt a (.error err) (.ok (.query f))).1 = .ok reply ↔
      ∃ h t, e.objects.get? a = some h ∧ h.torrent = some t ∧ reply = f t := by
  cases found : e.objects.get? a with
  | none => simp [attempt_of_none found]
  | some h =>
    cases attached : h.torrent with
    | none =>
      simp [attempt, apply, found, Transition.query, HandleObject.requireTorrent, attached, bind,
        Except.bind]
    | some t =>
      rw [attempt_of_ok found (Transition.query_eq_ok.2 ⟨t, attached, rfl⟩)]
      simp [attached, eq_comm (a := reply)]

end Attempt

lemma call_fst_congr {e' : Engine} (same : e'.objects.get? a = e.objects.get? a) (c : Call) :
    (e'.call a c).1 = (e.call a c).1 := by
  rw [call_eq_attempt, call_eq_attempt]
  exact attempt_fst_congr same

lemma session_fst_congr {e' : Engine} (same : e'.objects.get? a = e.objects.get? a)
    (settings : e'.settings = e.settings) (c : SessionCall) :
    (e'.session a c).1 = (e.session a c).1 := by
  rw [session_eq_attempt, session_eq_attempt, defaultTrackers, settings]
  exact attempt_fst_congr same

/-! ### Making and destroying handles -/

lemma newHandle_cases {issued : List Address} (h : e.objects.Sound issued) :
    (∃ a, e.newHandle.1 = .ok a ∧ (e.objects.insert {}).1 = some a ∧
      e.newHandle.2 = { e with objects := (e.objects.insert {}).2 }) ∨
    (∃ err, e.newHandle.1 = .error err) ∧ e.newHandle.2 = e := by
  have full := h.insert_none (v := {})
  unfold newHandle
  cases made : e.objects.insert {} with
  | mk made' objects =>
    rw [made] at full
    cases made' with
    | some a => exact .inl ⟨a, rfl, rfl, rfl⟩
    | none =>
      obtain rfl := full rfl
      exact .inr ⟨⟨_, rfl⟩, rfl⟩

lemma destroyHandle_cases (a : Address) :
    (a ∈ e.objects.addresses ∧ e.destroyHandle a =
      (.ok (), { e with objects := (e.objects.remove a).2 })) ∨
    (a ∉ e.objects.addresses ∧ e.destroyHandle a = (.error .staleAddress, e)) := by
  have answer : (e.objects.remove a).1 = e.objects.get? a := Arena.remove_fst
  unfold destroyHandle
  cases taken : e.objects.remove a with
  | mk old objects =>
    rw [taken] at answer
    cases old with
    | some v => exact .inl ⟨Arena.mem_addresses.2 ⟨v, answer.symm⟩, rfl⟩
    | none => exact .inr ⟨fun live => live answer.symm, rfl⟩

lemma get?_destroyHandle : (e.destroyHandle a).2.objects.get? b =
    if b = a then none else e.objects.get? b := by
  obtain ⟨-, eq⟩ | ⟨dead, eq⟩ := e.destroyHandle_cases a
  · rw [eq]
    exact Arena.get?_remove
  · rw [eq]
    split
    · rename_i same
      exact same ▸ not_not.1 dead
    · rfl

lemma destroyHandle_frame {issued : List Address} (h : e.objects.Sound issued) :
    (e.destroyHandle a).2.objects.Sound issued ∧
      (e.destroyHandle a).2.objects.owner = e.objects.owner ∧
      (e.destroyHandle a).2.settings = e.settings := by
  obtain ⟨-, eq⟩ | ⟨-, eq⟩ := e.destroyHandle_cases a <;> rw [eq]
  · exact ⟨h.remove, Arena.owner_remove, rfl⟩
  · exact ⟨h, rfl, rfl⟩

/-- A handle object with a torrent is made in two steps; if the second is refused, the object goes
again. -/
lemma addTorrent_cases (params : TorrentParams) :
    (∃ err, e.newHandle.1 = .error err ∧ e.addTorrent params = (.error err, e.newHandle.2)) ∨
    ∃ a, e.newHandle.1 = .ok a ∧
      ((e.newHandle.2.session a (.startDownload params)).1 = .ok () ∧
        e.addTorrent params = (.ok a, (e.newHandle.2.session a (.startDownload params)).2) ∨
      ∃ err, (e.newHandle.2.session a (.startDownload params)).1 = .error err ∧
        e.addTorrent params =
          (.error err, ((e.newHandle.2.session a (.startDownload params)).2.destroyHandle a).2)) := by
  unfold addTorrent
  cases made : e.newHandle with
  | mk answer e₁ =>
    cases answer with
    | error err => exact .inl ⟨err, rfl, rfl⟩
    | ok a =>
      refine .inr ⟨a, rfl, ?_⟩
      dsimp only
      cases attached : e₁.session a (.startDownload params) with
      | mk answer e₂ =>
        cases answer with
        | ok u => exact .inl ⟨rfl, rfl⟩
        | error err => exact .inr ⟨err, rfl, rfl⟩

/-! ### Operations -/

/-- One operation on an engine. -/
inductive Op where
  | newHandle
  | destroyHandle (a : Address)
  | call (a : Address) (c : Call)
  | session (a : Address) (c : SessionCall)
  | addTorrent (params : TorrentParams)

abbrev Op.Answer : Op → Type
  | newHandle | addTorrent _ => Except NativeError Address
  | destroyHandle _ => Except NativeError Unit
  | call _ c => Except NativeError c.Reply
  | session _ c => Except NativeError c.Reply

def act (e : Engine) : (op : Op) → op.Answer × Engine
  | .newHandle => e.newHandle
  | .destroyHandle a => e.destroyHandle a
  | .call a c => e.call a c
  | .session a c => e.session a c
  | .addTorrent params => e.addTorrent params

def run (e : Engine) (ops : List Op) : Engine := ops.foldl (fun e op => (e.act op).2) e

/-- An operation with what it answered. -/
structure Record where
  op : Op
  answer : op.Answer

/-- The operations of a run with their answers, in order. -/
def record (e : Engine) : List Op → List Record
  | [] => []
  | op :: ops => ⟨op, (e.act op).1⟩ :: (e.act op).2.record ops

namespace Record

/-- The address of a handle object that was made. -/
def made? : Record → Option Address
  | ⟨.newHandle, .ok a⟩ => some a
  | ⟨.addTorrent _, .ok a⟩ => some a
  | _ => none

/-- The address of a handle object that was destroyed. -/
def destroyed? : Record → Option Address
  | ⟨.destroyHandle a, .ok ()⟩ => some a
  | _ => none

/-- What is at an address after an operation, by what was there before. -/
def turn (defaults : List Tracker) (b : Address) (o : Option HandleObject) :
    Record → Option HandleObject
  | ⟨.newHandle, .ok a⟩ => if b = a then some {} else o
  | ⟨.destroyHandle a, _⟩ => if b = a then none else o
  | ⟨.call a c, _⟩ => if b = a then o.map (leave c.attempt) else o
  | ⟨.session a c, _⟩ => if b = a then o.map (leave (c.transition defaults)) else o
  | ⟨.addTorrent params, .ok a⟩ =>
    if b = a then some (leave ((SessionCall.startDownload params).transition defaults) {}) else o
  | ⟨.newHandle, .error _⟩ => o
  | ⟨.addTorrent _, .error _⟩ => o

end Record

/-- **What an operation does to the objects**, told by its answer; the arena stays sound, and the
address of an object that was made is a new one. -/
structure Acts (e : Engine) (issued : List Address) (r : Record) (e' : Engine) : Prop where
  settings : e'.settings = e.settings
  owner : e'.objects.owner = e.objects.owner
  sound : ∃ issued', issued ⊆ issued' ∧ e'.objects.Sound issued' ∧
    ∀ a, r.made? = some a → a ∈ issued' ∧ a ∉ issued
  get? : ∀ b, e'.objects.get? b = r.turn e.defaultTrackers b (e.objects.get? b)

section Acts

variable {issued : List Address} (h : e.objects.Sound issued)
include h

lemma acts_newHandle : e.Acts issued ⟨.newHandle, e.newHandle.1⟩ e.newHandle.2 := by
  obtain ⟨a, answer, made, eq⟩ | ⟨⟨err, answer⟩, eq⟩ := newHandle_cases h <;> rw [answer, eq]
  · refine ⟨rfl, Arena.owner_insert, ⟨a :: issued, List.subset_cons_self _ _, h.insert made, ?_⟩,
      fun b => h.get?_insert made⟩
    rintro b ⟨⟩
    exact ⟨List.mem_cons_self, h.insert_fresh made⟩
  · exact ⟨rfl, rfl, ⟨issued, List.Subset.refl _, h, by simp [Record.made?]⟩, fun b => rfl⟩

lemma acts_call (a : Address) (c : Call) :
    e.Acts issued ⟨.call a c, (e.call a c).1⟩ (e.call a c).2 := by
  rw [call_eq_attempt]
  obtain ⟨sound, owner, settings⟩ := attempt_frame h
  exact ⟨settings, owner, ⟨issued, List.Subset.refl _, sound, by simp [Record.made?]⟩,
    fun b => get?_attempt⟩

lemma acts_session (a : Address) (c : SessionCall) :
    e.Acts issued ⟨.session a c, (e.session a c).1⟩ (e.session a c).2 := by
  rw [session_eq_attempt]
  obtain ⟨sound, owner, settings⟩ := attempt_frame h
  exact ⟨settings, owner, ⟨issued, List.Subset.refl _, sound, by simp [Record.made?]⟩,
    fun b => get?_attempt⟩

lemma acts_destroyHandle (a : Address) :
    e.Acts issued ⟨.destroyHandle a, (e.destroyHandle a).1⟩ (e.destroyHandle a).2 := by
  obtain ⟨sound, owner, settings⟩ := destroyHandle_frame (a := a) h
  exact ⟨settings, owner, ⟨issued, List.Subset.refl _, sound, by simp [Record.made?]⟩,
    fun b => get?_destroyHandle⟩

lemma acts_addTorrent (params : TorrentParams) :
    e.Acts issued ⟨.addTorrent params, (e.addTorrent params).1⟩ (e.addTorrent params).2 := by
  have made := acts_newHandle h
  obtain ⟨issued', sub, sound, new⟩ := made.sound
  obtain ⟨err, answer, eq⟩ | ⟨a, answer, done⟩ := e.addTorrent_cases params
  · rw [eq]
    rw [answer] at made
    exact ⟨made.settings, made.owner, ⟨issued', sub, sound, by simp [Record.made?]⟩, made.get?⟩
  · rw [answer] at made new
    obtain ⟨inside, fresh⟩ := new a rfl
    have attached := acts_session sound a (.startDownload params)
    have defaults : e.newHandle.2.defaultTrackers = e.defaultTrackers := by
      rw [defaultTrackers, made.settings, defaultTrackers]
    obtain ⟨issued'', sub', sound', -⟩ := attached.sound
    obtain ⟨-, eq⟩ | ⟨err, -, eq⟩ := done <;> rw [eq]
    · refine ⟨attached.settings.trans made.settings, attached.owner.trans made.owner,
        ⟨issued'', List.Subset.trans sub sub', sound', ?_⟩, fun b => ?_⟩
      · rintro b ⟨⟩
        exact ⟨sub' inside, fresh⟩
      · rw [attached.get?, made.get?, defaults]
        simp only [Record.turn]
        split <;> rfl
    · obtain ⟨sound, owner, settings⟩ := destroyHandle_frame (a := a) sound'
      refine ⟨settings.trans (attached.settings.trans made.settings),
        owner.trans (attached.owner.trans made.owner),
        ⟨issued'', List.Subset.trans sub sub', sound, by simp [Record.made?]⟩, fun b => ?_⟩
      rw [get?_destroyHandle, attached.get?, made.get?]
      simp only [Record.turn]
      split
      · rename_i here
        rw [here, h.get?_eq_none fresh]
      · rfl

theorem acts_act (op : Op) : e.Acts issued ⟨op, (e.act op).1⟩ (e.act op).2 := by
  cases op with
  | newHandle => exact acts_newHandle h
  | destroyHandle a => exact acts_destroyHandle h a
  | call a c => exact acts_call h a c
  | session a c => exact acts_session h a c
  | addTorrent params => exact acts_addTorrent h params

theorem mem_addresses_act (op : Op) (a : Address) : a ∈ (e.act op).2.objects.addresses ↔
    Record.made? ⟨op, (e.act op).1⟩ = some a ∨
      a ∈ e.objects.addresses ∧ Record.destroyed? ⟨op, (e.act op).1⟩ ≠ some a := by
  have acts := (acts_act h op).get? a
  simp only [Arena.addresses, Set.mem_ofPred_eq, acts]
  cases op with
  | newHandle =>
    obtain ⟨b, answer, -⟩ | ⟨⟨err, answer⟩, -⟩ := newHandle_cases h <;>
      simp only [act, answer, Record.made?, Record.destroyed?, Record.turn]
    · by_cases same : a = b <;> simp [same, eq_comm (a := b)]
    · simp
  | destroyHandle b =>
    obtain ⟨live, eq⟩ | ⟨dead, eq⟩ := e.destroyHandle_cases b <;>
      simp only [act, eq, Record.made?, Record.destroyed?, Record.turn]
    · by_cases same : a = b <;> simp [same, eq_comm (a := b)]
    · by_cases same : a = b
      · simpa [same, Arena.addresses] using dead
      · simp [same]
  | call b c => by_cases same : a = b <;> simp [same, Record.made?, Record.destroyed?, Record.turn]
  | session b c =>
    by_cases same : a = b <;> simp [same, Record.made?, Record.destroyed?, Record.turn]
  | addTorrent params =>
    cases answer : (e.act (.addTorrent params)).1 with
    | ok b => by_cases same : a = b <;>
        simp [same, eq_comm (a := b), Record.made?, Record.destroyed?, Record.turn]
    | error err => simp [Record.made?, Record.destroyed?, Record.turn]

omit h in
lemma mem_addresses_of_destroyed (op : Op) {a : Address}
    (gone : Record.destroyed? ⟨op, (e.act op).1⟩ = some a) : a ∈ e.objects.addresses := by
  cases op with
  | destroyHandle b =>
    obtain ⟨live, eq⟩ | ⟨-, eq⟩ := e.destroyHandle_cases b <;>
      simp only [act, eq, Record.destroyed?] at gone
    · cases gone
      exact live
    · cases gone
  | _ => simp [Record.destroyed?] at gone

end Acts

/-! ### Runs -/

lemma run_append (e : Engine) (ops ops' : List Op) :
    e.run (ops ++ ops') = (e.run ops).run ops' := List.foldl_append

lemma record_append (e : Engine) (ops ops' : List Op) :
    e.record (ops ++ ops') = e.record ops ++ (e.run ops).record ops' := by
  induction ops generalizing e with
  | nil => rfl
  | cons op ops ih => exact congrArg _ (ih _)

lemma exists_of_mem_record {ops : List Op} {r : Record} (inside : r ∈ e.record ops) :
    ∃ before op after, ops = before ++ op :: after ∧
      r = ⟨op, ((e.run before).act op).1⟩ := by
  induction ops generalizing e with
  | nil => cases inside
  | cons op ops ih =>
    rcases List.mem_cons.1 inside with rfl | later
    · exact ⟨[], op, ops, rfl, rfl⟩
    · obtain ⟨before, op', after, rfl, rfl⟩ := ih later
      exact ⟨op :: before, op', after, rfl, rfl⟩

lemma sound_run {issued : List Address} (h : e.objects.Sound issued) (ops : List Op) :
    ∃ issued', issued ⊆ issued' ∧ (e.run ops).objects.Sound issued' ∧
      (e.run ops).objects.owner = e.objects.owner := by
  induction ops generalizing e issued with
  | nil => exact ⟨issued, List.Subset.refl _, h, rfl⟩
  | cons op ops ih =>
    have acts := acts_act h op
    obtain ⟨issued', sub, sound, -⟩ := acts.sound
    obtain ⟨issued'', sub', sound', owner⟩ := ih sound
    exact ⟨issued'', List.Subset.trans sub sub', sound', owner.trans acts.owner⟩

/-- The live addresses by a record: their objects were made, and not destroyed. -/
def Live (past : List Record) (a : Address) : Prop :=
  (∃ r ∈ past, r.made? = some a) ∧ ∀ r ∈ past, r.destroyed? ≠ some a

instance (past : List Record) (a : Address) : Decidable (Live past a) :=
  inferInstanceAs (Decidable (_ ∧ _))

/-- The engine is sound, and its objects are those that the record tells. -/
structure Told (e : Engine) (past : List Record) (issued : List Address) : Prop where
  sound : e.objects.Sound issued
  issued : ∀ r ∈ past, ∀ a, r.made? = some a ∨ r.destroyed? = some a → a ∈ issued
  live : ∀ a, a ∈ e.objects.addresses ↔ Live past a

lemma Told.act {past : List Record} {issued : List Address} (h : e.Told past issued) (op : Op) :
    ∃ issued', (e.act op).2.Told (past ++ [⟨op, (e.act op).1⟩]) issued' := by
  obtain ⟨issued', sub, sound, new⟩ := (acts_act h.sound op).sound
  have live := mem_addresses_act h.sound op
  have gone := fun a => mem_addresses_of_destroyed (e := e) op (a := a)
  generalize (⟨op, (e.act op).1⟩ : Record) = r at *
  refine ⟨issued', sound, fun r' inside a what => ?_, fun a => ?_⟩
  · obtain before | rfl := by simpa using inside
    · exact sub (h.issued r' before a what)
    · obtain made | destroyed := what
      · exact (new a made).1
      · obtain ⟨v, found⟩ := Arena.mem_addresses.1 (gone a destroyed)
        exact sub (h.sound.mem_issued found)
  · rw [live, h.live]
    -- an address that is made now was neither made nor destroyed before
    have before : r.made? = some a → ∀ r' ∈ past, r'.destroyed? ≠ some a :=
      fun made r' inside destroyed => (new a made).2 (h.issued r' inside a (.inr destroyed))
    have apart : r.made? = some a → r.destroyed? ≠ some a := by
      intro made destroyed
      obtain ⟨v, found⟩ := Arena.mem_addresses.1 (gone a destroyed)
      exact (new a made).2 (h.sound.mem_issued found)
    simp only [Live, List.mem_append, List.mem_singleton]
    grind

lemma told_run (owner : ℕ) (settings : EngineSettings) (bus : Bus Event) (ops : List Op) :
    ∃ issued, ((create owner settings bus).run ops).Told
      ((create owner settings bus).record ops) issued := by
  induction ops using List.reverseRecOn with
  | nil =>
    refine ⟨[], Arena.sound_empty owner, by simp [record], ?_⟩
    simp [run, record, Live, create, Arena.addresses, Arena.get?]
  | append_singleton ops op ih =>
    obtain ⟨issued, told⟩ := ih
    rw [run_append, record_append]
    exact told.act op

lemma frame_run (owner : ℕ) (settings : EngineSettings) (bus : Bus Event) (ops : List Op) :
    ((create owner settings bus).run ops).settings = settings ∧
      ((create owner settings bus).run ops).objects.owner = owner := by
  induction ops using List.reverseRecOn with
  | nil => exact ⟨rfl, rfl⟩
  | append_singleton ops op ih =>
    obtain ⟨issued, told⟩ := told_run owner settings bus ops
    have acts := acts_act told.sound op
    rw [run_append]
    exact ⟨acts.settings.trans ih.1, acts.owner.trans ih.2⟩

/-! ### Objects over runs -/

/-- Induction on the operations of a run, for what is said of the object at an address. No object
is there at first, so an operation has to be looked at only where it leaves one. -/
theorem object_induction {owner : ℕ} {settings : EngineSettings} {bus : Bus Event}
    {P : List Op → HandleObject → Prop}
    (step : ∀ ⦃ops op h issued⦄, ((create owner settings bus).run ops).objects.Sound issued →
      (∀ h₀, ((create owner settings bus).run ops).objects.get? a = some h₀ → P ops h₀) →
      (((create owner settings bus).run ops).act op).2.objects.get? a = some h →
      P (ops ++ [op]) h)
    (ops : List Op) {h : HandleObject}
    (found : ((create owner settings bus).run ops).objects.get? a = some h) : P ops h := by
  induction ops using List.reverseRecOn generalizing h with
  | nil => simp [run, create, Arena.get?] at found
  | append_singleton ops op ih =>
    obtain ⟨issued, told⟩ := told_run owner settings bus ops
    rw [run_append] at found
    exact step told.sound (fun h₀ => ih) found

/-- What the operation makes of the object at an address, unless it destroys it. -/
def Op.edit (defaults : List Tracker) (a : Address) : Op → HandleObject → HandleObject
  | call b c, h => if a = b then leave c.attempt h else h
  | session b c, h => if a = b then leave (c.transition defaults) h else h
  | _, h => h

section Objects

variable {issued : List Address} {h : HandleObject}

lemma get?_act_of_some (sound : e.objects.Sound issued) (found : e.objects.get? a = some h)
    {op : Op} (kept : op ≠ .destroyHandle a) :
    (e.act op).2.objects.get? a = some (op.edit e.defaultTrackers a h) := by
  have acts := acts_act sound op
  obtain ⟨_, -, -, new⟩ := acts.sound
  have old := sound.mem_issued found
  rw [acts.get?, found]
  cases op with
  | newHandle =>
    cases answer : (e.act .newHandle).1 with
    | ok b =>
      rw [answer] at new
      exact if_neg fun same : a = b => (new b rfl).2 (same ▸ old)
    | error err => rfl
  | destroyHandle b => exact if_neg fun same : a = b => kept (same ▸ rfl)
  | call b c =>
    simp only [Record.turn, Op.edit]
    split <;> rfl
  | session b c =>
    simp only [Record.turn, Op.edit]
    split <;> rfl
  | addTorrent params =>
    cases answer : (e.act (.addTorrent params)).1 with
    | ok b =>
      rw [answer] at new
      exact if_neg fun same : a = b => (new b rfl).2 (same ▸ old)
    | error err => rfl

theorem get?_run_of_some (sound : e.objects.Sound issued) (found : e.objects.get? a = some h)
    {ops : List Op} (kept : ∀ op ∈ ops, op ≠ .destroyHandle a) :
    (e.run ops).objects.get? a =
      some (ops.foldl (fun h op => op.edit e.defaultTrackers a h) h) := by
  induction ops generalizing e issued h with
  | nil => exact found
  | cons op ops ih =>
    have acts := acts_act sound op
    obtain ⟨issued', -, sound', -⟩ := acts.sound
    have defaults : (e.act op).2.defaultTrackers = e.defaultTrackers := by
      rw [defaultTrackers, acts.settings, defaultTrackers]
    have next := get?_act_of_some sound found (kept op List.mem_cons_self)
    have rest := ih sound' next fun op' inside => kept op' (List.mem_cons_of_mem op inside)
    rwa [defaults] at rest

end Objects

/-- An object after an operation is one that was there, as the operation leaves it, or a new one. -/
lemma get?_act_cases {issued : List Address} {h : HandleObject} (sound : e.objects.Sound issued)
    {op : Op} (found : (e.act op).2.objects.get? a = some h) :
    (∃ h₀, e.objects.get? a = some h₀ ∧ h = op.edit e.defaultTrackers a h₀) ∨ h = {} ∨
      ∃ params,
        h = leave ((SessionCall.startDownload params).transition e.defaultTrackers) {} := by
  have acts := (acts_act sound op).get? a
  rw [found] at acts
  cases before : e.objects.get? a with
  | some h₀ =>
    by_cases destroyed : op = .destroyHandle a
    · subst destroyed
      simp [Record.turn] at acts
    · have edited := get?_act_of_some sound before destroyed
      rw [found] at edited
      exact .inl ⟨h₀, rfl, Option.some.inj edited⟩
  | none =>
    rw [before] at acts
    cases op with
    | newHandle =>
      cases answer : (e.act .newHandle).1 with
      | ok b =>
        simp only [answer, Record.turn, Option.ite_none_right_eq_some, eq_comm (a := some h),
          Option.some.injEq] at acts
        exact .inr (.inl acts.2.symm)
      | error err => simp [answer, Record.turn] at acts
    | destroyHandle b => simp [Record.turn] at acts
    | call b c => simp [Record.turn] at acts
    | session b c => simp [Record.turn] at acts
    | addTorrent params =>
      cases answer : (e.act (.addTorrent params)).1 with
      | ok b =>
        simp only [answer, Record.turn, Option.ite_none_right_eq_some, eq_comm (a := some h),
          Option.some.injEq] at acts
        exact .inr (.inr ⟨params, acts.2.symm⟩)
      | error err => simp [answer, Record.turn] at acts

theorem objects_run {P : HandleObject → Prop} {h : HandleObject} (fresh : P {})
    (call : ∀ (c : Call) h, P h → P (leave c.attempt h))
    (session : ∀ defaults (c : SessionCall) h, P h → P (leave (c.transition defaults) h))
    (owner : ℕ) (settings : EngineSettings) (bus : Bus Event) (ops : List Op)
    (found : ((create owner settings bus).run ops).objects.get? a = some h) :
    P h := by
  refine object_induction (P := fun _ => P) (fun ops op h issued sound held found => ?_) ops found
  rcases get?_act_cases sound found with ⟨h₀, before, rfl⟩ | rfl | ⟨params, rfl⟩
  · have held := held h₀ before
    cases op with
    | call b c =>
      simp only [Op.edit]
      split
      · exact call c h₀ held
      · exact held
    | session b c =>
      simp only [Op.edit]
      split
      · exact session _ c h₀ held
      · exact held
    | _ => exact held
  · exact fresh
  · exact session _ _ _ fresh

/-! ### What happened last -/

/-- `P` came up in the run, with the engine as it was then, and `Q` is what followed. -/
def Since (start : Engine) (P : Engine → Record → Prop) (Q : Record → Prop) (ops : List Op) :
    Prop :=
  ∃ before op after, ops = before ++ op :: after ∧
    P (start.run before) ⟨op, ((start.run before).act op).1⟩ ∧
    ∀ r ∈ ((start.run before).act op).2.record after, Q r

section Since

variable {start : Engine} {P : Engine → Record → Prop} {Q : Record → Prop} {ops : List Op}

lemma since_concat {op : Op} : start.Since P Q (ops ++ [op]) ↔
    P (start.run ops) ⟨op, ((start.run ops).act op).1⟩ ∨
      start.Since P Q ops ∧ Q ⟨op, ((start.run ops).act op).1⟩ := by
  refine exists_split_concat.trans (or_congr (and_iff_left nofun) ⟨?_, ?_⟩)
  · rintro ⟨before, op', after, rfl, came, followed⟩
    rw [record_append, List.forall_mem_append] at followed
    rw [run_append]
    exact ⟨⟨before, op', after, rfl, came, followed.1⟩, followed.2 _ List.mem_cons_self⟩
  · rintro ⟨⟨before, op', after, rfl, came, followed⟩, last⟩
    refine ⟨before, op', after, rfl, came, ?_⟩
    rw [record_append, List.forall_mem_append]
    rw [run_append] at last
    exact ⟨followed, List.forall_mem_singleton.2 last⟩

/-- A fact on the object at an address goes by what happened last, if each operation that `Q` is
not true of decides it anew, and each other one finds an object there and at most makes it true. -/
theorem since_iff {V : HandleObject → Prop} {h : HandleObject}
    (kept : ∀ {e : Engine} {issued op h'}, e.objects.Sound issued →
      (e.act op).2.objects.get? a = some h' → Q ⟨op, (e.act op).1⟩ →
      ∃ h, e.objects.get? a = some h ∧ (V h' ↔ P e ⟨op, (e.act op).1⟩ ∨ V h))
    (decided : ∀ {e : Engine} {issued op h'}, e.objects.Sound issued →
      (e.act op).2.objects.get? a = some h' → ¬ Q ⟨op, (e.act op).1⟩ →
      (V h' ↔ P e ⟨op, (e.act op).1⟩))
    (owner : ℕ) (settings : EngineSettings) (bus : Bus Event) (ops : List Op)
    (found : ((create owner settings bus).run ops).objects.get? a = some h) :
    V h ↔ (create owner settings bus).Since P Q ops := by
  refine object_induction (P := fun ops h => V h ↔ (create owner settings bus).Since P Q ops)
    (fun ops op h issued sound ih found => ?_) ops found
  rw [since_concat]
  by_cases follows : Q ⟨op, (((create owner settings bus).run ops).act op).1⟩
  · obtain ⟨h₀, before, after⟩ := kept sound found follows
    rw [after, ih h₀ before, and_iff_left follows]
  · rw [decided sound found follows, or_iff_left fun both => follows both.2]

end Since

end Engine

end TorrentHandle
