import TorrentHandle.Proofs.Engine.Calls
import TorrentHandle.Proofs.Ownership.Owners

/-!
What reaches the native side. Every step comes to a list of calls at endpoints, and the host after
it is what these calls make of the host before; the calls of a run are its trace.
-/

namespace TorrentHandle

/-! ### Steps as calls -/

/-- The calls that the end of an owner comes to, by what it owns. -/
def endCalls : Option Deed → List NativeCall
  | some (endpoint, some a) => [.destroyHandle endpoint a]
  | _ => []

lemma Proxy.host_destroy (p : Proxy) (h : Host) :
    (p.destroy h).2.2 = h.performAll (endCalls p.deed) := by
  obtain ⟨endpoint, address, owns⟩ := p
  cases owns <;> cases address <;> rfl

lemma OwnershipToken.host_drop (t : OwnershipToken) (h : Host) :
    t.drop h = h.performAll (endCalls t.deed) := by
  obtain ⟨endpoint, address⟩ := t
  cases address <;> rfl

lemma Proxy.host_reload (p : Proxy) (h : Host) :
    (p.reload h).2 = (p.forward .reloadFile h).2 := by
  unfold reload
  cases p.forward .reloadFile h with
  | mk result h' => cases result <;> rfl

namespace World

variable {w : World} {n : ℕ}

/-- The calls that a proxy passes on. -/
def forwardCalls (w : World) (n : ℕ) (c : Call) : List NativeCall :=
  match (w.proxy n).address with
  | some a => [.call (w.proxy n).endpoint a c]
  | none => []

/-- The calls that a step comes to. -/
def Step.calls (w : World) : Step → List NativeCall
  | newHandle endpoint | allocate endpoint => [.newHandle endpoint]
  | destroyHandle endpoint a => [.destroyHandle endpoint a]
  | call endpoint a c => [.call endpoint a c]
  | session engine a c => [.session engine a c]
  | addTorrent engine params | start engine params => w.host.addCalls engine params
  | wrap .. | adopt _ | release _ => []
  | forward n c => w.forwardCalls n c
  | reload n => w.forwardCalls n .reloadFile
  | destroy n | dropProxy n => endCalls (w.deed (.proxy n))
  | dropToken n => endCalls (w.deed (.token n))

lemma host_keepProxy (w : World) (r : Except HandleError Proxy × Host) :
    (w.keepProxy r).2.host = r.2 := by
  obtain ⟨_ | _, _⟩ := r <;> rfl

lemma host_forward (w : World) (n : ℕ) (c : Call) :
    ((w.proxy n).forward c w.host).2 = w.host.performAll (w.forwardCalls n c) := by
  unfold Proxy.forward forwardCalls
  cases (w.proxy n).address <;> rfl

theorem host_step (w : World) (s : Step) :
    (w.step s).2.host = w.host.performAll (s.calls w) := by
  cases s with
  | addTorrent engine params =>
    refine .trans ?_ (w.host.addTorrent_host engine params)
    simp only [step]
    cases w.host.addTorrent engine params with
    | mk result host => cases result <;> rfl
  | allocate endpoint =>
    refine (host_keepProxy w _).trans ?_
    unfold Proxy.allocate
    change _ = (w.host.newHandle endpoint).2
    cases w.host.newHandle endpoint with
    | mk result host => cases result <;> rfl
  | start engine params =>
    refine ((host_keepProxy w _).trans ?_).trans (w.host.addTorrent_host engine params)
    unfold Proxy.start
    cases w.host.addTorrent engine params with
    | mk result host => cases result <;> rfl
  | forward n c => exact w.host_forward n c
  | reload n => exact ((w.proxy n).host_reload w.host).trans (w.host_forward n .reloadFile)
  | release n =>
    simp only [step]
    obtain ⟨t, eq, -⟩ | ⟨err, eq⟩ := (w.proxy n).release_cases <;> rw [eq] <;> rfl
  | destroy n => exact (w.proxy n).host_destroy w.host
  | dropProxy n => exact (w.proxy n).host_destroy w.host
  | dropToken n => exact (w.token n).host_drop w.host
  | _ => rfl

/-! ### Traces -/

/-- The calls of a run in order, each with the step that makes it. -/
def trace (w : World) : List Step → List (Step × NativeCall)
  | [] => []
  | s :: steps => (s.calls w).map (s, ·) ++ (w.step s).2.trace steps

lemma run_append (w : World) (steps steps' : List Step) :
    w.run (steps ++ steps') = (w.run steps).run steps' := List.foldl_append

lemma trace_append (w : World) (steps steps' : List Step) :
    w.trace (steps ++ steps') = w.trace steps ++ (w.run steps).trace steps' := by
  induction steps generalizing w with
  | nil => rfl
  | cons s steps ih => simp [trace, ih, run]

theorem host_run (w : World) (steps : List Step) :
    (w.run steps).host = w.host.performAll ((w.trace steps).map Prod.snd) := by
  induction steps generalizing w with
  | nil => rfl
  | cons s steps ih =>
    have calls : ((s.calls w).map (s, ·)).map Prod.snd = s.calls w := by
      simp [Function.comp_def]
    change ((w.step s).2.run steps).host = _
    rw [ih, host_step, trace, List.map_append, calls, Host.performAll_append]

end World

end TorrentHandle
