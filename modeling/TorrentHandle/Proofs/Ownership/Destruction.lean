import TorrentHandle.Proofs.Engine.Issuing
import TorrentHandle.Proofs.Ownership.Traces

/-!
What owners destroy. Engines give out every address once, so an address that an owner has is not
among those that owners have given to `destroy_handle` before, whatever is done behind their backs:
no step but the making of an object brings an address into the hands of owners, and a step that ends
an owner takes it out of them for good.
-/

namespace TorrentHandle

/-! ### Addresses in the hands of owners -/

namespace World

variable {w w' : World} {o o' : Owner} {a : Address}

def held (w : World) (o : Owner) : Option Address := (w.deed o).bind Prod.snd

lemma held_eq_some : w.held o = some a ↔ w.owns o = true ∧ w.address o = some a := by
  simp [held, Option.bind_eq_some_iff, deed_eq_some]

lemma held_addProxy (w : World) (p : Proxy) (o : Owner) : (w.addProxy p).2.held o =
    if o = .proxy w.proxies.size then p.deed.bind Prod.snd else w.held o := by
  rw [held, deed_addProxy]
  split <;> rfl

lemma held_addToken (w : World) (t : OwnershipToken) (o : Owner) : (w.addToken t).2.held o =
    if o = .token w.tokens.size then t.deed.bind Prod.snd else w.held o := by
  rw [held, deed_addToken]
  split <;> rfl

lemma held_setProxy (w : World) (n : ℕ) {p : Proxy} (nothing : p.deed = none) (o : Owner) :
    { w with proxies := w.proxies.setIfInBounds n p }.held o =
      if o = .proxy n then none else w.held o := by
  rw [held, deed_setProxy w n nothing]
  split <;> rfl

lemma held_setToken (w : World) (n : ℕ) {t : OwnershipToken} (nothing : t.deed = none)
    (o : Owner) : { w with tokens := w.tokens.setIfInBounds n t }.held o =
      if o = .token n then none else w.held o := by
  rw [held, deed_setToken w n nothing]
  split <;> rfl

/-- The addresses that proxies and tokens give to `destroy_handle`. -/
def destroys (past : List (Step × NativeCall)) : List Address :=
  past.filterMap fun (s, c) => if s.isManaged then c.destroyed? else none

/-- What a step does to the addresses of owners, with those that it destroys. -/
inductive Shifts (w w' : World) : List Address → Prop where
  | keep (held : ∀ o, w'.held o = w.held o) : Shifts w w' []
  | gain (o : Owner) {endpoint : Endpoint} {a : Address} {cs : List NativeCall}
      (made : (w.host.newHandle endpoint).1 = .ok a)
      (host : w'.host = (w.host.newHandle endpoint).2.performAll cs)
      (held : ∀ o', w'.held o' = if o' = o then some a else w.held o') : Shifts w w' []
  | fail {endpoint : Endpoint} {a : Address} {cs : List NativeCall}
      (made : (w.host.newHandle endpoint).1 = .ok a)
      (host : w'.host = (w.host.newHandle endpoint).2.performAll cs)
      (held : ∀ o, w'.held o = w.held o) : Shifts w w' [a]
  | move (o o' : Owner) (held : ∀ o'', w'.held o'' =
      if o'' = o' then w.held o else if o'' = o then none else w.held o'') : Shifts w w' []
  | lose (o : Owner) (held : ∀ o', w'.held o' = if o' = o then none else w.held o') :
      Shifts w w' (w.held o).toList

section Shifts

lemma destroys_calls {s : Step} (managed : s.isManaged = true) (cs : List NativeCall) :
    destroys (cs.map (s, ·)) = cs.filterMap NativeCall.destroyed? := by
  simp [destroys, List.filterMap_map, managed]

lemma destroyed_endCalls (d : Option Deed) :
    (endCalls d).filterMap NativeCall.destroyed? = (d.bind Prod.snd).toList := by
  rcases d with _ | ⟨endpoint, _ | a⟩ <;> rfl

lemma destroyed_forwardCalls (w : World) (n : ℕ) (c : Call) :
    (w.forwardCalls n c).filterMap NativeCall.destroyed? = [] := by
  unfold forwardCalls
  cases (w.proxy n).address <;> rfl

lemma shifts_addProxy (p : Proxy) (nothing : p.deed = none) : w.Shifts (w.addProxy p).2 [] := by
  refine .keep fun o => ?_
  rw [held_addProxy, nothing]
  split
  · rename_i here
    rw [held, here, deed_newProxy]
  · rfl

/-- A handle with a torrent either comes into the hands of a new owner, or is destroyed again by
the token that had it, or is not made at all. -/
lemma shifts_addTorrent {s : Step} {engine : ℕ} {params : TorrentParams} {host : Host}
    {answer : Except NativeError Address} (managed : s.isManaged = true)
    (calls : s.calls w = w.host.addCalls engine params)
    (result : w.host.addTorrent engine params = (answer, host)) (after : w'.host = host)
    (added : ∀ a, answer = .ok a → ∃ o, ∀ o', w'.held o' = if o' = o then some a else w.held o')
    (refused : ∀ err, answer = .error err → ∀ o, w'.held o = w.held o) :
    w.Shifts w' (destroys ((s.calls w).map (s, ·))) := by
  obtain ⟨performed, cases⟩ := w.host.addTorrent_cases engine params
  rw [result] at performed cases
  dsimp only at performed
  rw [performed] at after
  rw [calls, destroys_calls managed]
  obtain ⟨⟨err, answer⟩, eq⟩ | ⟨a, made, ⟨answer, eq⟩ | ⟨⟨err, answer⟩, eq⟩⟩ := cases <;>
    rw [eq] at after ⊢
  · exact .keep (refused err answer)
  · obtain ⟨o, held⟩ := added a answer
    exact .gain o made after held
  · exact .fail made after (refused err answer)

lemma shifts_allocate (endpoint : Endpoint) : w.Shifts (w.step (.allocate endpoint)).2 [] := by
  cases result : w.host.newHandle endpoint with
  | mk answer host =>
    cases answer with
    | error err =>
      refine .keep fun o => ?_
      simp only [step, Proxy.allocate, result]
      rfl
    | ok a =>
      have after : (w.step (.allocate endpoint)).2.host =
          (w.host.newHandle endpoint).2.performAll [] := by
        simp only [step, Proxy.allocate, result]
        rfl
      refine .gain (.proxy w.proxies.size) (congrArg Prod.fst result) after fun o => ?_
      simp only [step, Proxy.allocate, result]
      exact held_addProxy { w with host } _ o

lemma shifts_destroyProxy {s : Step} {n : ℕ} (managed : s.isManaged = true)
    (calls : s.calls w = endCalls (w.deed (.proxy n))) :
    w.Shifts (w.destroyProxy n).2 (destroys ((s.calls w).map (s, ·))) := by
  rw [calls, destroys_calls managed, destroyed_endCalls]
  have inert : ((w.proxy n).destroy w.host).2.1.deed = none := by
    unfold Proxy.destroy
    split <;> rfl
  exact .lose (.proxy n) (held_setProxy w n inert)

/-- **What a step does** to the addresses of owners: it keeps them, puts a new one in the hands of
an owner, hands one on, or takes one out of the hands of its owner and destroys it. -/
theorem shifts_step (w : World) (s : Step) :
    w.Shifts (w.step s).2 (destroys ((s.calls w).map (s, ·))) := by
  cases s with
  | newHandle endpoint => exact .keep fun _ => rfl
  | destroyHandle endpoint a => exact .keep fun _ => rfl
  | call endpoint a c => exact .keep fun _ => rfl
  | session engine a c => exact .keep fun _ => rfl
  | addTorrent engine params =>
    cases result : w.host.addTorrent engine params with
    | mk answer host =>
      cases answer with
      | error err =>
        refine shifts_addTorrent rfl rfl result ?_ (by rintro _ ⟨⟩) ?_ <;> simp only [step, result]
        exact fun _ _ _ => rfl
      | ok a =>
        refine shifts_addTorrent rfl rfl result ?_ (fun b same => ?_) (by rintro _ ⟨⟩) <;>
          simp only [step, result]
        · rfl
        · cases same
          exact ⟨_, held_addToken { w with host } _⟩
  | wrap endpoint a => exact shifts_addProxy _ (Proxy.deed_wrap endpoint a)
  | allocate endpoint => exact shifts_allocate endpoint
  | start engine params =>
    cases result : w.host.addTorrent engine params with
    | mk answer host =>
      cases answer with
      | error err =>
        refine shifts_addTorrent rfl rfl result ?_ (by rintro _ ⟨⟩) ?_ <;>
          simp only [step, Proxy.start, result]
        · rfl
        · exact fun _ _ _ => rfl
      | ok a =>
        refine shifts_addTorrent rfl rfl result ?_ (fun b same => ?_) (by rintro _ ⟨⟩) <;>
          simp only [step, Proxy.start, result]
        · rfl
        · cases same
          exact ⟨_, held_addProxy { w with host } _⟩
  | adopt n =>
    refine .move (.token n) (.proxy w.proxies.size) fun o => (held_addProxy _ _ o).trans ?_
    rw [Proxy.deed_adopt, held_setToken w n rfl o]
    rfl
  | forward n c =>
    rw [destroys_calls rfl, Step.calls, destroyed_forwardCalls]
    exact .keep fun _ => rfl
  | reload n =>
    rw [destroys_calls rfl, Step.calls, destroyed_forwardCalls]
    exact .keep fun _ => rfl
  | release n =>
    obtain ⟨t, eq, same, -⟩ | ⟨err, eq⟩ := (w.proxy n).release_cases
    · refine .move (.proxy n) (.token w.tokens.size) fun o => ?_
      simp only [step, eq]
      refine (held_addToken _ _ o).trans ?_
      rw [held_setProxy w n (Proxy.deed_inert _) o, same]
      rfl
    · refine .keep fun o => ?_
      simp only [step, eq]
  | destroy n => exact shifts_destroyProxy rfl rfl
  | dropProxy n => exact shifts_destroyProxy rfl rfl
  | dropToken n =>
    rw [destroys_calls rfl, Step.calls, destroyed_endCalls]
    exact .lose (.token n) (held_setToken w n rfl)

end Shifts

/-! ### One owner, one end -/

/-- The addresses that owners have are given out, each to one owner, and none of them has been
destroyed by owners, who destroy none twice. -/
structure Tracked (w : World) (past : List Address) : Prop where
  given : ∃ given, w.host.Given given ∧ (∀ o a, w.held o = some a → a ∈ given) ∧ past ⊆ given
  single : ∀ o o' a, w.held o = some a → w.held o' = some a → o = o'
  apart : ∀ o a, w.held o = some a → a ∉ past
  nodup : past.Nodup

namespace Tracked

variable {past new : List Address} {endpoint : Endpoint} {cs : List NativeCall}

lemma keep (h : w.Tracked past) (evolves : w.host.Evolves w'.host)
    (held : ∀ o, w'.held o = w.held o) : w'.Tracked past := by
  obtain ⟨given, sound, owned, old⟩ := h.given
  refine ⟨⟨given, sound.evolves evolves, ?_, old⟩, ?_, ?_, h.nodup⟩ <;> simp only [held]
  · exact owned
  · exact h.single
  · exact h.apart

/-- A new address was not given out, so nobody has it and it has not been destroyed. -/
lemma gain (h : w.Tracked past) (made : (w.host.newHandle endpoint).1 = .ok a)
    (after : w'.host = (w.host.newHandle endpoint).2.performAll cs)
    (held : ∀ o', w'.held o' = if o' = o then some a else w.held o') : w'.Tracked past := by
  obtain ⟨given, sound, owned, old⟩ := h.given
  obtain ⟨fresh, issued⟩ := sound.made made after
  have source : ∀ o' b, w'.held o' = some b → o' = o ∧ b = a ∨ b ≠ a ∧ w.held o' = some b := by
    intro o' b there
    rw [held] at there
    split at there
    · rename_i here
      exact .inl ⟨here, (Option.some.inj there).symm⟩
    · refine .inr ⟨?_, there⟩
      rintro rfl
      exact fresh (owned o' b there)
  refine ⟨⟨a :: given, issued, fun o' b there => ?_, List.subset_cons_of_subset a old⟩,
    fun o₁ o₂ b there₁ there₂ => ?_, fun o' b there => ?_, h.nodup⟩
  · obtain ⟨-, rfl⟩ | ⟨-, before⟩ := source o' b there
    · exact List.mem_cons_self
    · exact List.mem_cons_of_mem a (owned o' b before)
  · obtain ⟨rfl, same⟩ | ⟨other, before₁⟩ := source o₁ b there₁ <;>
      obtain ⟨rfl, same'⟩ | ⟨other', before₂⟩ := source o₂ b there₂
    · rfl
    · exact absurd same other'
    · exact absurd same' other
    · exact h.single o₁ o₂ b before₁ before₂
  · obtain ⟨-, rfl⟩ | ⟨-, before⟩ := source o' b there
    · exact fun inside => fresh (old inside)
    · exact h.apart o' b before

/-- Neither has anybody a new address that is destroyed again. -/
lemma fail (h : w.Tracked past) (made : (w.host.newHandle endpoint).1 = .ok a)
    (after : w'.host = (w.host.newHandle endpoint).2.performAll cs)
    (held : ∀ o, w'.held o = w.held o) : w'.Tracked (past ++ [a]) := by
  obtain ⟨given, sound, owned, old⟩ := h.given
  obtain ⟨fresh, issued⟩ := sound.made made after
  have new : a ∉ past := fun inside => fresh (old inside)
  have known : past ++ [a] ⊆ a :: given := List.append_subset.2
    ⟨List.subset_cons_of_subset a old, List.cons_subset_cons a (List.nil_subset given)⟩
  refine ⟨⟨a :: given, issued, fun o b there => ?_, known⟩, ?_, fun o b there inside => ?_,
    h.nodup.append (List.nodup_singleton a) (List.disjoint_singleton.2 new)⟩
  · rw [held] at there
    exact List.mem_cons_of_mem a (owned o b there)
  · simp only [held]
    exact h.single
  · rw [held] at there
    rcases List.mem_append.1 inside with before | now
    · exact h.apart o b there before
    · obtain rfl := List.mem_singleton.1 now
      exact fresh (owned o b there)

/-- Whoever has an address now has it from one owner before. -/
lemma move (h : w.Tracked past) (evolves : w.host.Evolves w'.host)
    (held : ∀ o'', w'.held o'' =
      if o'' = o' then w.held o else if o'' = o then none else w.held o'') : w'.Tracked past := by
  obtain ⟨given, sound, owned, old⟩ := h.given
  have source : ∀ o₁ a, w'.held o₁ = some a →
      ∃ o₀, w.held o₀ = some a ∧ o₁ = if o₀ = o then o' else o₀ := by
    intro o₁ a there
    rw [held] at there
    split at there
    · rename_i here
      exact ⟨o, there, here.trans (if_pos rfl).symm⟩
    · split at there
      · cases there
      · rename_i other
        exact ⟨o₁, there, (if_neg other).symm⟩
  refine ⟨⟨given, sound.evolves evolves, fun o₁ a there => ?_, old⟩,
    fun o₁ o₂ a there₁ there₂ => ?_, fun o₁ a there => ?_, h.nodup⟩
  · obtain ⟨o₀, before, -⟩ := source o₁ a there
    exact owned o₀ a before
  · obtain ⟨o₀, before, rfl⟩ := source o₁ a there₁
    obtain ⟨o₀', before', rfl⟩ := source o₂ a there₂
    rw [h.single o₀ o₀' a before before']
  · obtain ⟨o₀, before, -⟩ := source o₁ a there
    exact h.apart o₀ a before

/-- The only owner of an address loses it. -/
lemma lose (h : w.Tracked past) (evolves : w.host.Evolves w'.host)
    (held : ∀ o', w'.held o' = if o' = o then none else w.held o') :
    w'.Tracked (past ++ (w.held o).toList) := by
  obtain ⟨given, sound, owned, old⟩ := h.given
  have source : ∀ o' a, w'.held o' = some a → w.held o' = some a ∧ o' ≠ o := by
    intro o' a there
    rw [held] at there
    split at there
    · cases there
    · rename_i other
      exact ⟨there, other⟩
  have one : (w.held o).toList.Nodup := by
    cases w.held o <;> simp
  have disjoint : past.Disjoint (w.held o).toList := by
    intro a before now
    exact h.apart o a (Option.mem_toList.1 now) before
  refine ⟨⟨given, sound.evolves evolves, fun o' a there => owned o' a (source o' a there).1, ?_⟩,
    fun o₁ o₂ a there₁ there₂ => ?_, fun o' a there inside => ?_, ?_⟩
  · exact List.append_subset.2 ⟨old, fun a inside => owned o a (Option.mem_toList.1 inside)⟩
  · exact h.single o₁ o₂ a (source o₁ a there₁).1 (source o₂ a there₂).1
  · obtain ⟨before, other⟩ := source o' a there
    rcases List.mem_append.1 inside with gone | mine
    · exact h.apart o' a before gone
    · exact other (h.single o' o a before (Option.mem_toList.1 mine))
  · exact h.nodup.append one disjoint

theorem shift (h : w.Tracked past) (evolves : w.host.Evolves w'.host) (shifts : w.Shifts w' new) :
    w'.Tracked (past ++ new) := by
  cases shifts with
  | keep held =>
    rw [List.append_nil]
    exact h.keep evolves held
  | gain o made after held =>
    rw [List.append_nil]
    exact h.gain made after held
  | fail made after held => exact h.fail made after held
  | move o o' held =>
    rw [List.append_nil]
    exact h.move evolves held
  | lose o held => exact h.lose evolves held

end Tracked

/-- Engines without objects, with recorders and stubs in front of them. -/
def ofHost (specs : List (EngineSettings × Bus Event)) (recorders : Array (ℕ × Journal))
    (stubs : Array (ℕ × Stub)) : World :=
  { host := { Host.ofEngines specs with recorders, stubs } }

lemma tracked_ofHost (specs : List (EngineSettings × Bus Event))
    (recorders : Array (ℕ × Journal)) (stubs : Array (ℕ × Stub)) :
    (ofHost specs recorders stubs).Tracked [] := by
  have nothing : ∀ o, (ofHost specs recorders stubs).held o = none := by
    intro o
    cases o <;> rfl
  have sound : (ofHost specs recorders stubs).host.Given [] := by
    intro i e here
    obtain ⟨owner, issued, arena⟩ := (Host.fresh_ofEngines specs).1.engine i e here
    exact ⟨owner, issued, arena, by simp⟩
  exact ⟨⟨[], sound, by simp [nothing], List.nil_subset _⟩, by simp [nothing], by simp [nothing],
    .nil⟩

lemma tracked_run (specs : List (EngineSettings × Bus Event)) (recorders : Array (ℕ × Journal))
    (stubs : Array (ℕ × Stub)) (steps : List Step) :
    ((ofHost specs recorders stubs).run steps).Tracked
      (destroys ((ofHost specs recorders stubs).trace steps)) := by
  induction steps using List.reverseRecOn with
  | nil => exact tracked_ofHost specs recorders stubs
  | append_singleton steps s ih =>
    rw [run_append, trace_append, destroys, List.filterMap_append, trace, trace, List.append_nil]
    refine ih.shift ?_ (shifts_step _ s)
    exact host_step _ s ▸ Host.evolves_performAll _ _

end World

end TorrentHandle
