import TorrentHandle.Ownership.World
import TorrentHandle.Proofs.Engine.Hosts

/-!
Owners of handle objects. A deed is what an owner points at; over any steps that leave making and
destroying to proxies and tokens, the deeds are those of the live objects, each in one hand. A step
keeps the deeds, adds one with its object, hands one on, or ends one with its object.
-/

namespace TorrentHandle

/-! ### Deeds -/

/-- An endpoint with an address there. -/
abbrev Deed := Endpoint × Option Address

def Proxy.deed (p : Proxy) : Option Deed := if p.owns then some (p.endpoint, p.address) else none

def OwnershipToken.deed (t : OwnershipToken) : Option Deed :=
  t.address.map fun a => (t.endpoint, some a)

@[simp] lemma Proxy.deed_inert (p : Proxy) : p.inert.deed = none := rfl

@[simp] lemma Proxy.deed_wrap (endpoint : Endpoint) (a : Address) : (wrap endpoint a).deed = none :=
  rfl

@[simp] lemma Proxy.deed_adopt (t : OwnershipToken) : (adopt t).deed = t.deed := by
  unfold adopt deed OwnershipToken.deed
  cases t.address <;> rfl

lemma Proxy.release_cases (p : Proxy) :
    (∃ t, p.release = (.ok t, p.inert) ∧ t.deed = p.deed ∧ p.deed ≠ none) ∨
      ∃ err, p.release = (.error err, p) := by
  obtain ⟨endpoint, address, owns⟩ := p
  cases address with
  | none => exact .inr ⟨_, rfl⟩
  | some a =>
    cases owns with
    | false => exact .inr ⟨_, rfl⟩
    | true => exact .inl ⟨_, rfl, rfl, nofun⟩

section Destroy

variable {endpoint : Endpoint} {a : Address} {h : Host}

lemma Proxy.destroy_of_none {p : Proxy} (nothing : p.deed = none) :
    p.destroy h = (.ok (), p.inert, h) := by
  obtain ⟨endpoint, address, owns⟩ := p
  cases owns with
  | true => cases nothing
  | false => cases address <;> rfl

lemma Proxy.destroy_of_some {p : Proxy} (mine : p.deed = some (endpoint, some a)) :
    p.destroy h = ((h.destroyHandle a endpoint).1.mapError (·.during "destroy"), p.inert,
      (h.destroyHandle a endpoint).2) := by
  obtain ⟨endpoint, address, owns⟩ := p
  cases owns with
  | true =>
    cases mine
    rfl
  | false => cases mine

lemma OwnershipToken.drop_of_none {t : OwnershipToken} (nothing : t.deed = none) :
    t.drop h = h := by
  obtain ⟨endpoint, address⟩ := t
  cases address with
  | none => rfl
  | some a => cases nothing

lemma OwnershipToken.drop_of_some {t : OwnershipToken} (mine : t.deed = some (endpoint, some a)) :
    t.drop h = (h.destroyHandle a endpoint).2 := by
  obtain ⟨endpoint, address⟩ := t
  cases address with
  | none => cases mine
  | some a =>
    cases mine
    rfl

end Destroy

/-- Who may own: proxies and tokens by number. -/
inductive Owner where
  | proxy (n : ℕ)
  | token (n : ℕ)
  deriving DecidableEq

namespace World

variable {w w' : World} {i : ℕ} {a : Address} {o o' : Owner} {d : Deed}

/-- What an owner owns; none if it is no owner. -/
def deed (w : World) : Owner → Option Deed
  | .proxy n => (w.proxy n).deed
  | .token n => (w.token n).deed

section Numbered

variable {α β : Type} {xs : Array α} {x nobody : α} {f : α → β}

lemma apply_getD_push (f : α → β) (n : ℕ) :
    f ((xs.push x).getD n nobody) = if n = xs.size then f x else f (xs.getD n nobody) := by
  simp only [Array.getD_eq_getD_getElem?, Array.getElem?_push]
  split <;> rfl

/-- A write out of bounds does not show if what is written looks like the default. -/
lemma apply_getD_set (same : f x = f nobody) (n j : ℕ) :
    f ((xs.setIfInBounds n x).getD j nobody) =
      if j = n then f nobody else f (xs.getD j nobody) := by
  simp only [Array.getD_eq_getD_getElem?, Array.getElem?_setIfInBounds, eq_comm (a := n)]
  by_cases here : j = n
  · by_cases below : n < xs.size <;> simp [here, below, same]
  · simp [here]

end Numbered

lemma deed_addProxy (w : World) (p : Proxy) (o : Owner) :
    (w.addProxy p).2.deed o = if o = .proxy w.proxies.size then p.deed else w.deed o := by
  cases o with
  | proxy j =>
    simp only [Owner.proxy.injEq]
    exact apply_getD_push Proxy.deed j
  | token j => rfl

lemma deed_addToken (w : World) (t : OwnershipToken) (o : Owner) :
    (w.addToken t).2.deed o = if o = .token w.tokens.size then t.deed else w.deed o := by
  cases o with
  | proxy j => rfl
  | token j =>
    simp only [Owner.token.injEq]
    exact apply_getD_push OwnershipToken.deed j

lemma deed_setProxy (w : World) (n : ℕ) {p : Proxy} (nothing : p.deed = none) (o : Owner) :
    { w with proxies := w.proxies.setIfInBounds n p }.deed o =
      if o = .proxy n then none else w.deed o := by
  cases o with
  | proxy j =>
    simp only [Owner.proxy.injEq]
    exact apply_getD_set (f := Proxy.deed) nothing n j
  | token j => rfl

lemma deed_setToken (w : World) (n : ℕ) {t : OwnershipToken} (nothing : t.deed = none) (o : Owner) :
    { w with tokens := w.tokens.setIfInBounds n t }.deed o =
      if o = .token n then none else w.deed o := by
  cases o with
  | proxy j => rfl
  | token j =>
    simp only [Owner.token.injEq]
    exact apply_getD_set (f := OwnershipToken.deed) nothing n j

lemma deed_newProxy (w : World) : w.deed (.proxy w.proxies.size) = none := by
  simp [deed, proxy, Proxy.deed]

lemma deed_newToken (w : World) : w.deed (.token w.tokens.size) = none := by
  simp [deed, token, OwnershipToken.deed]

/-! ### Deeds and objects -/

/-- The deeds are those of the live objects, and no two owners have the same. -/
structure Matched (w : World) : Prop where
  host : w.host.Sound
  pointed : ∀ o d, w.deed o = some d → ∃ i a, d = (.engine i, some a) ∧ w.host.Live i a
  owned : ∀ i a, w.host.Live i a → ∃ o, w.deed o = some (.engine i, some a)
  unique : ∀ o o' d, w.deed o = some d → w.deed o' = some d → o = o'

namespace Matched

variable (h : w.Matched)
include h

lemma keep (host : w.host.Keeps w'.host) (deed : ∀ o, w'.deed o = w.deed o) : w'.Matched where
  host := host.sound
  pointed o d held := by
    obtain ⟨i, a, eq, live⟩ := h.pointed o d (deed o ▸ held)
    exact ⟨i, a, eq, (host.live i a).2 live⟩
  owned i a live := by
    obtain ⟨o, held⟩ := h.owned i a ((host.live i a).1 live)
    exact ⟨o, (deed o).trans held⟩
  unique o o' d held held' := h.unique o o' d (deed o ▸ held) (deed o' ▸ held')

lemma keep_at (host : w.host.Keeps w'.host) (free : w.deed o = none)
    (deed : ∀ o', w'.deed o' = if o' = o then none else w.deed o') : w'.Matched := by
  refine h.keep host fun o' => ?_
  rw [deed]
  split
  · rename_i here
    rw [here, free]
  · rfl

lemma gain (host : w.host.Opens i a w'.host) (free : w.deed o = none)
    (deed : ∀ o', w'.deed o' = if o' = o then some (.engine i, some a) else w.deed o') :
    w'.Matched where
  host := host.sound
  pointed o' d held := by
    rw [deed] at held
    split at held
    · cases held
      exact ⟨i, a, rfl, (host.live i a).2 (.inl ⟨rfl, rfl⟩)⟩
    · obtain ⟨j, b, eq, live⟩ := h.pointed o' d held
      exact ⟨j, b, eq, (host.live j b).2 (.inr live)⟩
  owned j b live := by
    obtain ⟨rfl, rfl⟩ | before := (host.live j b).1 live
    · exact ⟨o, (deed o).trans (if_pos rfl)⟩
    · obtain ⟨o', held⟩ := h.owned j b before
      refine ⟨o', (deed o').trans ((if_neg ?_).trans held)⟩
      rintro rfl
      exact absurd (free.symm.trans held) nofun
  unique o₁ o₂ d held₁ held₂ := by
    -- the deed of the new object was nobody's
    have new : ∀ o', w.deed o' ≠ some (.engine i, some a) := by
      intro o' held
      obtain ⟨j, b, eq, live⟩ := h.pointed o' _ held
      cases eq
      exact host.fresh live
    rw [deed] at held₁ held₂
    split at held₁ <;> split at held₂
    · simp_all
    · cases held₁
      exact absurd held₂ (new o₂)
    · cases held₂
      exact absurd held₁ (new o₁)
    · exact h.unique o₁ o₂ d held₁ held₂

lemma lose (host : w.host.Closes i a w'.host) (mine : w.deed o = some (.engine i, some a))
    (deed : ∀ o', w'.deed o' = if o' = o then none else w.deed o') : w'.Matched where
  host := host.sound
  pointed o' d held := by
    rw [deed] at held
    split at held
    · cases held
    · rename_i other
      obtain ⟨j, b, rfl, live⟩ := h.pointed o' d held
      refine ⟨j, b, rfl, (host.live j b).2 ⟨live, ?_⟩⟩
      rintro ⟨rfl, rfl⟩
      exact other (h.unique o' o _ held mine)
  owned j b live := by
    obtain ⟨before, rest⟩ := (host.live j b).1 live
    obtain ⟨o', held⟩ := h.owned j b before
    refine ⟨o', (deed o').trans ((if_neg ?_).trans held)⟩
    rintro rfl
    cases mine.symm.trans held
    exact rest ⟨rfl, rfl⟩
  unique o₁ o₂ d held₁ held₂ := by
    rw [deed] at held₁ held₂
    split at held₁ <;> split at held₂
    · cases held₁
    · cases held₁
    · cases held₂
    · exact h.unique o₁ o₂ d held₁ held₂

lemma move (host : w.host.Keeps w'.host) (mine : w.deed o = some d) (free : w.deed o' = none)
    (deed : ∀ o'', w'.deed o'' =
      if o'' = o' then some d else if o'' = o then none else w.deed o'') : w'.Matched where
  host := host.sound
  pointed o'' d' held := by
    rw [deed] at held
    split at held
    · cases held
      obtain ⟨i, a, eq, live⟩ := h.pointed o d mine
      exact ⟨i, a, eq, (host.live i a).2 live⟩
    · split at held
      · cases held
      · obtain ⟨i, a, eq, live⟩ := h.pointed o'' d' held
        exact ⟨i, a, eq, (host.live i a).2 live⟩
  owned i a live := by
    obtain ⟨o'', held⟩ := h.owned i a ((host.live i a).1 live)
    by_cases giver : o'' = o
    · rw [giver, mine] at held
      exact ⟨o', by rw [deed, if_pos rfl, held]⟩
    · have other : o'' ≠ o' := by
        rintro rfl
        exact absurd (free.symm.trans held) nofun
      exact ⟨o'', by rw [deed, if_neg other, if_neg giver, held]⟩
  unique o₁ o₂ d' held₁ held₂ := by
    rw [deed] at held₁ held₂
    grind [h.unique]

/-! ### Steps -/

lemma forward_keeps (p : Proxy) (c : Call) : w.host.Keeps (p.forward c w.host).2 := by
  unfold Proxy.forward
  cases p.address with
  | none => exact h.host.keeps
  | some a => exact h.host.call_keeps a c p.endpoint

lemma reload_keeps (p : Proxy) : w.host.Keeps (p.reload w.host).2 := by
  have keeps := h.forward_keeps p .reloadFile
  unfold Proxy.reload
  cases answer : p.forward .reloadFile w.host with
  | mk result host =>
    rw [answer] at keeps
    cases result <;> exact keeps

lemma addProxy {p : Proxy} (nothing : p.deed = none) : (w.addProxy p).2.Matched := by
  refine h.keep_at h.host.keeps w.deed_newProxy fun o => ?_
  rw [deed_addProxy, nothing]

lemma keepProxy {r : Except HandleError Proxy × Host}
    (made : (∃ p i a, r.1 = .ok p ∧ p.deed = some (.engine i, some a) ∧ w.host.Opens i a r.2) ∨
      (∃ err, r.1 = .error err) ∧ w.host.Keeps r.2) : (w.keepProxy r).2.Matched := by
  obtain ⟨result, host⟩ := r
  dsimp only at made
  obtain ⟨p, i, a, rfl, deed, opens⟩ | ⟨⟨err, rfl⟩, keeps⟩ := made
  · refine h.gain opens w.deed_newProxy fun o => ?_
    rw [← deed]
    exact deed_addProxy { w with host } p o
  · exact h.keep keeps fun _ => rfl

lemma allocate (endpoint : Endpoint) : (w.step (.allocate endpoint)).2.Matched := by
  refine h.keepProxy ?_
  have made := h.host.newHandle_cases endpoint
  unfold Proxy.allocate
  cases answer : w.host.newHandle endpoint with
  | mk result host =>
    rw [answer] at made
    dsimp only at made
    obtain ⟨i, a, rfl, rfl, opens⟩ | ⟨⟨err, rfl⟩, keeps⟩ := made
    · exact .inl ⟨_, i, a, rfl, rfl, opens⟩
    · exact .inr ⟨⟨_, rfl⟩, keeps⟩

lemma start (engine : ℕ) (params : TorrentParams) : (w.step (.start engine params)).2.Matched := by
  refine h.keepProxy ?_
  have made := h.host.addTorrent_cases engine params
  unfold Proxy.start
  cases answer : w.host.addTorrent engine params with
  | mk result host =>
    rw [answer] at made
    dsimp only at made
    obtain ⟨a, rfl, opens⟩ | ⟨⟨err, rfl⟩, keeps⟩ := made
    · exact .inl ⟨_, engine, a, rfl, rfl, opens⟩
    · exact .inr ⟨⟨_, rfl⟩, keeps⟩

lemma addTorrent (engine : ℕ) (params : TorrentParams) :
    (w.step (.addTorrent engine params)).2.Matched := by
  have made := h.host.addTorrent_cases engine params
  simp only [step]
  cases answer : w.host.addTorrent engine params with
  | mk result host =>
    rw [answer] at made
    dsimp only at made
    obtain ⟨a, rfl, opens⟩ | ⟨⟨err, rfl⟩, keeps⟩ := made
    · exact h.gain opens w.deed_newToken fun o => deed_addToken { w with host } _ o
    · exact h.keep keeps fun _ => rfl

lemma adopt (n : ℕ) : (w.step (.adopt n)).2.Matched := by
  have deeds : ∀ o, (w.step (.adopt n)).2.deed o = if o = .proxy w.proxies.size then
      w.deed (.token n) else if o = .token n then none else w.deed o := by
    intro o
    refine (deed_addProxy _ _ o).trans ?_
    rw [Proxy.deed_adopt, deed_setToken w n rfl o]
    rfl
  cases mine : w.deed (.token n) with
  | none =>
    refine h.keep h.host.keeps fun o => ?_
    rw [deeds]
    grind [w.deed_newProxy]
  | some d =>
    refine h.move h.host.keeps mine w.deed_newProxy fun o => ?_
    rw [deeds, mine]

/-- A proxy gives what it owns to a new token; one that owns nothing is refused. -/
lemma release (n : ℕ) : (w.step (.release n)).2.Matched := by
  simp only [step]
  obtain ⟨t, eq, same, some⟩ | ⟨err, eq⟩ := (w.proxy n).release_cases <;> rw [eq]
  · obtain ⟨d, mine⟩ := Option.ne_none_iff_exists'.1 some
    refine h.move (o := .proxy n) h.host.keeps mine w.deed_newToken fun o => ?_
    refine (deed_addToken _ _ o).trans ?_
    rw [same, mine, deed_setProxy w n (Proxy.deed_inert _) o]
  · exact h

lemma destroyProxy (n : ℕ) :
    (w.destroyProxy n).1 = .ok () ∧ (w.destroyProxy n).2.Matched := by
  have deeds : ∀ host o, ({ w with
      host, proxies := w.proxies.setIfInBounds n (w.proxy n).inert } : World).deed o =
        if o = .proxy n then none else w.deed o :=
    fun _ o => deed_setProxy w n (Proxy.deed_inert _) o
  unfold World.destroyProxy
  cases mine : w.deed (.proxy n) with
  | none =>
    rw [Proxy.destroy_of_none mine]
    exact ⟨rfl, h.keep_at h.host.keeps mine (deeds _)⟩
  | some d =>
    obtain ⟨i, a, rfl, live⟩ := h.pointed _ d mine
    obtain ⟨answer, closes⟩ := h.host.destroyHandle_closes live
    rw [Proxy.destroy_of_some mine, answer]
    exact ⟨rfl, h.lose closes mine (deeds _)⟩

lemma dropToken (n : ℕ) : (w.step (.dropToken n)).2.Matched := by
  let taken := { w.token n with address := none }
  have deeds : ∀ host o, ({ w with
      host, tokens := w.tokens.setIfInBounds n taken } : World).deed o =
        if o = .token n then none else w.deed o :=
    fun _ o => deed_setToken w n rfl o
  simp only [step]
  cases mine : w.deed (.token n) with
  | none =>
    rw [OwnershipToken.drop_of_none mine]
    exact h.keep_at h.host.keeps mine (deeds _)
  | some d =>
    obtain ⟨i, a, rfl, live⟩ := h.pointed _ d mine
    obtain ⟨answer, closes⟩ := h.host.destroyHandle_closes live
    rw [OwnershipToken.drop_of_some mine]
    exact h.lose closes mine (deeds _)

end Matched

/-- Making and destroying objects is left to proxies and tokens. -/
def Step.isManaged : Step → Bool
  | newHandle _ | destroyHandle .. => false
  | _ => true

theorem Matched.step (h : w.Matched) {s : Step} (managed : s.isManaged) : (w.step s).2.Matched := by
  cases s with
  | newHandle endpoint => cases managed
  | destroyHandle endpoint a => cases managed
  | call endpoint a c => exact h.keep (h.host.call_keeps a c endpoint) fun _ => rfl
  | session engine a c => exact h.keep (h.host.session_keeps engine a c) fun _ => rfl
  | addTorrent engine params => exact h.addTorrent engine params
  | wrap endpoint a => exact h.addProxy (Proxy.deed_wrap endpoint a)
  | allocate endpoint => exact h.allocate endpoint
  | start engine params => exact h.start engine params
  | adopt n => exact h.adopt n
  | forward n c => exact h.keep (h.forward_keeps _ c) fun _ => rfl
  | reload n => exact h.keep (h.reload_keeps _) fun _ => rfl
  | release n => exact h.release n
  | destroy n => exact (h.destroyProxy n).2
  | dropProxy n => exact (h.destroyProxy n).2
  | dropToken n => exact h.dropToken n

def ofEngines (specs : List (EngineSettings × Bus Event)) : World := { host := .ofEngines specs }

lemma matched_ofEngines (specs : List (EngineSettings × Bus Event)) :
    (ofEngines specs).Matched := by
  obtain ⟨sound, empty⟩ := Host.fresh_ofEngines specs
  have nothing : ∀ o, (ofEngines specs).deed o = none := by
    intro o
    cases o <;> rfl
  refine ⟨sound, fun o d held => ?_, fun i a live => absurd live (empty i a), fun o o' d held => ?_⟩
  · cases (nothing o).symm.trans held
  · cases (nothing o).symm.trans held

theorem matched_run (specs : List (EngineSettings × Bus Event)) {steps : List Step}
    (managed : ∀ s ∈ steps, s.isManaged) : ((ofEngines specs).run steps).Matched :=
  List.foldlRecOn steps _ (matched_ofEngines specs) fun _ h s inside => h.step (managed s inside)

/-! ### Owners -/

/-- Whether a proxy owns; a token owns until it is taken or dropped. -/
def owns (w : World) : Owner → Bool
  | .proxy n => (w.proxy n).owns
  | .token n => (w.token n).address.isSome

def endpoint (w : World) : Owner → Endpoint
  | .proxy n => (w.proxy n).endpoint
  | .token n => (w.token n).endpoint

def address (w : World) : Owner → Option Address
  | .proxy n => (w.proxy n).address
  | .token n => (w.token n).address

def ownersOf (w : World) (i : ℕ) : Set Owner := {o | w.owns o = true ∧ w.endpoint o = .engine i}

lemma deed_eq_some : w.deed o = some d ↔ w.owns o = true ∧ (w.endpoint o, w.address o) = d := by
  cases o with
  | proxy n => simp [deed, Proxy.deed, owns, endpoint, address]
  | token n =>
    simp only [deed, OwnershipToken.deed, owns, endpoint, address]
    cases (w.token n).address <;> simp

/-- Handle objects and owners correspond: every live object has exactly one owner, every owner a
live object, and no owner fails to destroy its own. -/
structure Accounted (w : World) : Prop where
  bijOn : ∀ i e, w.host.engines[i]? = some e →
    Set.BijOn w.address (w.ownersOf i) (some '' e.objects.addresses)
  engine : ∀ o, w.owns o → ∃ i e, w.host.engines[i]? = some e ∧ o ∈ w.ownersOf i
  single : ∀ o o', w.owns o → w.owns o' → w.address o = w.address o' → o = o'
  count : ∀ (i : ℕ) (e : Engine), w.host.engines[i]? = some e →
    (w.ownersOf i).encard = e.handleCount
  destroy : ∀ n, (w.destroyProxy n).1 = .ok ()
  drop : ∀ o a, w.owns o → w.address o = some a →
    (w.host.destroyHandle a (w.endpoint o)).1 = .ok ()
  empty : (∀ o, ¬ w.owns o) →
    ∀ (i : ℕ) (e : Engine), w.host.engines[i]? = some e → e.handleCount = 0

lemma Matched.single (h : w.Matched) (mine : w.owns o) (mine' : w.owns o')
    (same : w.address o = w.address o') : o = o' := by
  obtain ⟨i, a, eq, live⟩ := h.pointed o _ (deed_eq_some.2 ⟨mine, rfl⟩)
  obtain ⟨j, b, eq', live'⟩ := h.pointed o' _ (deed_eq_some.2 ⟨mine', rfl⟩)
  simp only [Prod.mk.injEq] at eq eq'
  obtain rfl : a = b := Option.some.inj (eq.2.symm.trans (same.trans eq'.2))
  -- an address tells its engine
  obtain rfl : i = j := by
    have owner := h.host.owner_of_live live
    have owner' := h.host.owner_of_live live'
    omega
  refine h.unique o o' (.engine i, some a) (deed_eq_some.2 ⟨mine, ?_⟩) (deed_eq_some.2 ⟨mine', ?_⟩)
  · rw [eq.1, eq.2]
  · rw [eq'.1, eq'.2]

lemma Matched.bijOn (h : w.Matched) {e : Engine} (here : w.host.engines[i]? = some e) :
    Set.BijOn w.address (w.ownersOf i) (some '' e.objects.addresses) := by
  refine ⟨?_, ?_, ?_⟩
  · rintro o ⟨mine, at_i⟩
    obtain ⟨j, a, eq, live⟩ := h.pointed o _ (deed_eq_some.2 ⟨mine, rfl⟩)
    simp only [Prod.mk.injEq, at_i, Endpoint.engine.injEq] at eq
    obtain ⟨rfl, eq⟩ := eq
    exact ⟨a, (Host.live_iff here).1 live, eq.symm⟩
  · rintro o ⟨mine, -⟩ o' ⟨mine', -⟩ same
    exact h.single mine mine' same
  · rintro _ ⟨a, live, rfl⟩
    obtain ⟨o, held⟩ := h.owned i a ((Host.live_iff here).2 live)
    obtain ⟨mine, eq⟩ := deed_eq_some.1 held
    simp only [Prod.mk.injEq] at eq
    exact ⟨o, ⟨mine, eq.1⟩, eq.2⟩

lemma Matched.count (h : w.Matched) {e : Engine} (here : w.host.engines[i]? = some e) :
    (w.ownersOf i).encard = e.handleCount := by
  obtain ⟨-, issued, sound⟩ := h.host.engine i e here
  have bij := h.bijOn here
  rw [← bij.injOn.encard_image, bij.image_eq, (Option.some_injective _).encard_image,
    sound.live_eq]
  rfl

theorem Matched.accounted (h : w.Matched) : w.Accounted where
  bijOn i e here := h.bijOn here
  engine o mine := by
    obtain ⟨i, a, eq, e, here, -⟩ := h.pointed o _ (deed_eq_some.2 ⟨mine, rfl⟩)
    exact ⟨i, e, here, mine, congrArg Prod.fst eq⟩
  single o o' mine mine' := h.single mine mine'
  count i e here := h.count here
  destroy n := (h.destroyProxy n).1
  drop o a mine there := by
    obtain ⟨i, b, eq, live⟩ := h.pointed o _ (deed_eq_some.2 ⟨mine, rfl⟩)
    simp only [Prod.mk.injEq, there, Option.some.injEq] at eq
    obtain ⟨eq, rfl⟩ := eq
    rw [eq]
    exact (h.host.destroyHandle_closes live).1
  empty none i e here := by
    have nobody : w.ownersOf i = ∅ := Set.eq_empty_of_forall_notMem fun o inside => none o inside.1
    have count := h.count here
    rw [nobody, Set.encard_empty] at count
    exact_mod_cast count.symm

/-- **No leak and no double free.** After any steps in which objects are made and destroyed through
proxies and tokens only, whether the steps succeed or not, the live objects of every engine are in
bijection with their owners. -/
theorem run_accounted (specs : List (EngineSettings × Bus Event)) (steps : List Step)
    (managed : ∀ s ∈ steps, s.isManaged) : ((ofEngines specs).run steps).Accounted :=
  (matched_run specs managed).accounted

theorem two_engines_accounted :
    let specs := [({}, ⟨1, by decide, #[], 1⟩), ({}, ⟨1, by decide, #[], 1⟩)]
    let steps := [.allocate (.engine 0), .addTorrent 1 (.ofMetadata .sample), .release 0,
      .wrap (.engine 1) ⟨2, 0, 1⟩, .adopt 1, .dropToken 0, .destroy 1, .allocate (.engine 0)]
    (∀ s ∈ steps, s.isManaged) ∧ ((ofEngines specs).run steps).Accounted :=
  have managed : ∀ s ∈ [Step.allocate (.engine 0), .addTorrent 1 (.ofMetadata .sample), .release 0,
      .wrap (.engine 1) ⟨2, 0, 1⟩, .adopt 1, .dropToken 0, .destroy 1, .allocate (.engine 0)],
      s.isManaged := by decide
  ⟨managed, run_accounted _ _ managed⟩

end World

end TorrentHandle
