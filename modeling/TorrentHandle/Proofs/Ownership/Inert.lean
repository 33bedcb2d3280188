import TorrentHandle.Proofs.Ownership.Destruction

/-!
Proxies that own nothing. A proxy that was made for an object of another owner never owns it, and
one that has given up its object never gets another; so the one never destroys anything, and the
other never reaches an engine again.
-/

namespace TorrentHandle.World

variable {w w' : World} {n : ℕ} {s : Step}

/-! ### What proxies stay -/

/-- The proxy that a step is about, if it is there before. -/
def Step.proxy? : Step → Option ℕ
  | forward n _ | reload n | release n | destroy n | dropProxy n => some n
  | _ => none

section Proxies

variable {P : Proxy → Prop}

lemma proxies_destroyProxy (w : World) (m : ℕ) :
    (w.destroyProxy m).2.proxies = w.proxies.setIfInBounds m (w.proxy m).inert := by
  unfold destroyProxy Proxy.destroy
  dsimp only
  split <;> rfl

lemma proxies_step (w : World) (s : Step) : (w.step s).2.proxies = w.proxies ∨
    (∃ p, (w.step s).2.proxies = w.proxies.push p) ∨
    ∃ m, (w.step s).2.proxies = w.proxies.setIfInBounds m (w.proxy m).inert := by
  have kept : ∀ result, (w.keepProxy result).2.proxies = w.proxies ∨
      ∃ p, (w.keepProxy result).2.proxies = w.proxies.push p := by
    rintro ⟨err | p, host⟩
    · exact .inl rfl
    · exact .inr ⟨p, rfl⟩
  cases s with
  | addTorrent engine params =>
    refine .inl ?_
    simp only [step]
    cases w.host.addTorrent engine params with
    | mk answer host => cases answer <;> rfl
  | wrap endpoint a => exact .inr (.inl ⟨_, rfl⟩)
  | allocate endpoint => exact (kept _).imp_right .inl
  | start engine params => exact (kept _).imp_right .inl
  | adopt m => exact .inr (.inl ⟨_, rfl⟩)
  | release m =>
    simp only [step]
    obtain ⟨t, eq, -⟩ | ⟨err, eq⟩ := (w.proxy m).release_cases <;> rw [eq]
    · exact .inr (.inr ⟨m, rfl⟩)
    · exact .inl rfl
  | destroy m => exact .inr (.inr ⟨m, w.proxies_destroyProxy m⟩)
  | dropProxy m => exact .inr (.inr ⟨m, w.proxies_destroyProxy m⟩)
  | _ => exact .inl rfl

lemma getD_set {α : Type} {xs : Array α} (bound : n < xs.size) (m : ℕ) (x nobody : α) :
    (xs.setIfInBounds m x).getD n nobody = if n = m then x else xs.getD n nobody := by
  simp only [Array.getD_eq_getD_getElem?, Array.getElem?_setIfInBounds, eq_comm (a := m)]
  by_cases here : n = m
  · subst here
    simp [bound]
  · simp [here]

/-- What becoming inert does not end holds of a proxy for ever. -/
lemma proxy_step (inert : ∀ p, P p → P p.inert) (s : Step) (bound : n < w.proxies.size)
    (holds : P (w.proxy n)) :
    n < (w.step s).2.proxies.size ∧ P ((w.step s).2.proxy n) := by
  unfold proxy at *
  obtain eq | ⟨p, eq⟩ | ⟨m, eq⟩ := w.proxies_step s <;> rw [eq]
  · exact ⟨bound, holds⟩
  · refine ⟨by simp [bound.le], ?_⟩
    rwa [apply_getD_push P n, if_neg bound.ne]
  · refine ⟨by simpa using bound, ?_⟩
    rw [getD_set bound]
    by_cases here : n = m
    · rw [if_pos here, ← here]
      exact inert _ holds
    · rwa [if_neg here]

lemma proxy_run (inert : ∀ p, P p → P p.inert) (steps : List Step) (bound : n < w.proxies.size)
    (holds : P (w.proxy n)) :
    n < (w.run steps).proxies.size ∧ P ((w.run steps).proxy n) := by
  induction steps generalizing w with
  | nil => exact ⟨bound, holds⟩
  | cons s steps ih =>
    obtain ⟨bound, holds⟩ := proxy_step inert s bound holds
    exact ih bound holds

/-- What the calls of a proxy have in common while it holds of the proxy holds of them for ever. -/
lemma trace_of_proxy {Q : NativeCall → Prop} (inert : ∀ p, P p → P p.inert)
    (calls : ∀ (w : World) (s : Step), P (w.proxy n) → s.proxy? = some n → ∀ c ∈ s.calls w, Q c)
    {steps : List Step} (bound : n < w.proxies.size) (holds : P (w.proxy n)) {c : NativeCall}
    (made : (s, c) ∈ w.trace steps) (mine : s.proxy? = some n) : Q c := by
  induction steps generalizing w with
  | nil => cases made
  | cons s' steps ih =>
    rcases List.mem_append.1 made with now | later
    · obtain ⟨c', there, same⟩ := List.mem_map.1 now
      cases same
      exact calls w s holds mine c there
    · obtain ⟨bound, holds⟩ := proxy_step inert s' bound holds
      exact ih bound holds later

end Proxies

/-! ### What proxies call -/

lemma destroyed_of_borrowed (borrowed : (w.proxy n).deed = none) (mine : s.proxy? = some n) :
    ∀ c ∈ s.calls w, c.destroyed? = none := by
  have passed : ∀ c', ∀ c ∈ w.forwardCalls n c', c.destroyed? = none := by
    intro c' c there
    exact List.filterMap_eq_nil_iff.1 (destroyed_forwardCalls w n c') c there
  have ended : endCalls (w.deed (.proxy n)) = [] := by
    rw [deed, borrowed]
    rfl
  cases s with
  | forward m c =>
    cases mine
    exact passed c
  | reload m =>
    cases mine
    exact passed .reloadFile
  | release m => rintro c ⟨⟩
  | destroy m =>
    cases mine
    simp [Step.calls, ended]
  | dropProxy m =>
    cases mine
    simp [Step.calls, ended]
  | _ => cases mine

lemma calls_of_inert (gone : (w.proxy n).address = none) (mine : s.proxy? = some n) :
    s.calls w = [] := by
  have passed : ∀ c, w.forwardCalls n c = [] := by simp [forwardCalls, gone]
  have ended : endCalls (w.deed (.proxy n)) = [] := by
    unfold deed Proxy.deed
    dsimp only
    rw [gone]
    split <;> rfl
  cases s with
  | forward m c =>
    cases mine
    exact passed c
  | reload m =>
    cases mine
    exact passed .reloadFile
  | release m => rfl
  | destroy m =>
    cases mine
    exact ended
  | dropProxy m =>
    cases mine
    exact ended
  | _ => cases mine

/-! ### Inert proxies -/

/-- The proxy is there, and has no address. -/
def IsInert (w : World) (n : ℕ) : Prop := n < w.proxies.size ∧ (w.proxy n).address = none

/-- All that a proxy is told to do comes to nothing, and reaches no engine. -/
structure Spent (w : World) (n : ℕ) : Prop where
  inert : w.IsInert n
  forward : ∀ c, (w.step (.forward n c)).1 = .error (.useAfterRelease c.operation)
  reload : (w.step (.reload n)).1 = .error (.useAfterRelease "reload_file")
  release : (w.step (.release n)).1 = .error (.notOwner "release")
  destroy : (w.step (.destroy n)).1 = .ok ()
  host : ∀ s : Step, s.proxy? = some n → s.calls w = [] ∧ (w.step s).2.host = w.host

lemma IsInert.spent (h : w.IsInert n) : w.Spent n where
  inert := h
  forward c := by simp [step, withHost, Proxy.forward, h.2]
  reload := by simp [step, withHost, Proxy.reload, Proxy.forward, h.2, Call.operation]
  release := by simp [step, Proxy.release, h.2]
  destroy := by simp [step, destroyProxy, Proxy.destroy, h.2]
  host s mine := by
    have calls := calls_of_inert h.2 mine
    exact ⟨calls, by rw [host_step, calls]; rfl⟩

/-- A proxy that has given up its object is inert, whatever the engine answered. -/
structure EndsInert (w : World) (n : ℕ) : Prop where
  destroy : (w.step (.destroy n)).2.IsInert n
  drop : (w.step (.dropProxy n)).2.IsInert n
  release : ∀ t, (w.step (.release n)).1 = .ok t → (w.step (.release n)).2.IsInert n

lemma isInert_of_set (bound : n < w.proxies.size)
    (inert : w'.proxies = w.proxies.setIfInBounds n (w.proxy n).inert) : w'.IsInert n := by
  refine ⟨by simpa [inert] using bound, ?_⟩
  rw [proxy, inert, getD_set bound, if_pos rfl]
  rfl

lemma endsInert (bound : n < w.proxies.size) : w.EndsInert n := by
  have ended : (w.destroyProxy n).2.IsInert n := isInert_of_set bound (w.proxies_destroyProxy n)
  refine ⟨ended, ended, fun t answer => isInert_of_set bound ?_⟩
  simp only [step] at answer ⊢
  obtain ⟨t, eq, -⟩ | ⟨err, eq⟩ := (w.proxy n).release_cases <;> rw [eq] at answer ⊢
  · rfl
  · cases answer

/-! ### Native calls -/

/-- **What reaches the native side.** Take any engines with any recorders and stubs in front of
them, and any steps, also the making and destroying of objects past their owners. The trace of the
run is what happens to the engines and what recorders write down. Each address has at most one
owner, and no address is destroyed by owners twice, nor one that an owner has yet. A proxy that was
made for an object of another owner never destroys anything. A proxy that has released or destroyed
its object is inert, however the engine answered; it stays so, and makes no call any more. -/
theorem native_calls (specs : List (EngineSettings × Bus Event))
    (recorders : Array (ℕ × Journal)) (stubs : Array (ℕ × Stub)) (steps : List Step) :
    let start := ofHost specs recorders stubs
    let w := start.run steps
    let past := start.trace steps
    w.host = start.host.performAll (past.map Prod.snd) ∧
      (∀ r, start.host.Records r → (w.host.journal r).entries =
        (start.host.journal r).entries ++ start.host.log r (past.map Prod.snd)) ∧
      (∀ o o' a, w.owns o → w.owns o' → w.address o = some a → w.address o' = some a → o = o') ∧
      (destroys past).Nodup ∧
      (∀ o a, w.owns o → w.address o = some a → a ∉ destroys past) ∧
      (∀ before endpoint a later, steps = before ++ .wrap endpoint a :: later →
        ∀ s c, (s, c) ∈ (start.run (before ++ [.wrap endpoint a])).trace later →
          s.proxy? = some ((start.run before).step (.wrap endpoint a)).1 → c.destroyed? = none) ∧
      (∀ n < w.proxies.size, w.EndsInert n) ∧
      ∀ n, w.IsInert n → ∀ later, (w.run later).Spent n ∧
        ∀ s c, (s, c) ∈ w.trace later → s.proxy? ≠ some n := by
  intro start w past
  have tracked := tracked_run specs recorders stubs steps
  have performed : w.host = start.host.performAll (past.map Prod.snd) := start.host_run steps
  refine ⟨performed, fun r records => ?_, ?_, tracked.nodup, ?_, ?_, fun n bound => endsInert bound,
    ?_⟩
  · rw [performed]
    exact (Host.entries_performAll records _).1
  · intro o o' a mine mine' there there'
    exact tracked.single o o' a (held_eq_some.2 ⟨mine, there⟩) (held_eq_some.2 ⟨mine', there'⟩)
  · intro o a mine there
    exact tracked.apart o a (held_eq_some.2 ⟨mine, there⟩)
  · rintro before endpoint a later - s c made mine
    rw [run_append] at made
    refine trace_of_proxy (P := fun p => p.deed = none) (Q := fun c => c.destroyed? = none)
      (fun _ _ => rfl) (fun w s borrowed mine => destroyed_of_borrowed borrowed mine) ?_ ?_ made
      mine
    · simp [run, step, addProxy]
    · simp [run, step, addProxy, proxy]
  · rintro n ⟨bound, gone⟩ later
    have spent : (w.run later).IsInert n :=
      proxy_run (P := fun p => p.address = none) (fun _ _ => rfl) later bound gone
    refine ⟨spent.spent, fun s c made mine => ?_⟩
    refine trace_of_proxy (P := fun p => p.address = none) (Q := fun _ => False)
      (fun _ _ => rfl) (fun w s gone mine c there => ?_) bound gone made mine
    rw [calls_of_inert gone mine] at there
    cases there

theorem recorded_native_calls :
    let start := ofHost [({}, ⟨1, by decide, #[], 1⟩)] #[(0, {})] #[]
    let steps := [.allocate (.recorder 0), .wrap (.recorder 0) ⟨1, 0, 1⟩, .destroy 1,
      .destroyHandle (.engine 0) ⟨1, 0, 1⟩, .destroy 0, .allocate (.recorder 0), .release 2,
      .adopt 0, .dropProxy 3]
    let w := start.run steps
    destroys (start.trace steps) = [⟨1, 0, 1⟩, ⟨1, 0, 2⟩] ∧ (destroys (start.trace steps)).Nodup ∧
      (w.host.journal 0).entries = [("new_handle", ⟨1, 0, 1⟩), ("destroy_handle", ⟨1, 0, 1⟩),
        ("new_handle", ⟨1, 0, 2⟩), ("destroy_handle", ⟨1, 0, 2⟩)] ∧
      ∀ later, (w.run later).Spent 0 := by
  intro start steps w
  have inert : w.IsInert 0 := ⟨by decide +kernel, by decide +kernel⟩
  obtain ⟨-, -, -, once, -, -, -, spent⟩ := native_calls [({}, ⟨1, by decide, #[], 1⟩)]
    #[(0, {})] #[] steps
  exact ⟨by decide +kernel, once, by decide +kernel, fun later => (spent 0 inert later).1⟩

end TorrentHandle.World
