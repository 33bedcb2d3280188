import Mathlib.Data.List.Basic
import Mathlib.Data.List.Induction
import Mathlib.Data.List.Nodup
import TorrentHandle.Torrent.Basic

/-!
The trackers of a torrent. One is added at the end unless its address is there, so what comes of
adding many is the first of each address: the list keeps what it has, and grows by addresses that
are new.
-/

namespace TorrentHandle

variable {t : Tracker} {l l' : List Tracker} {url : String}

/-! ### One tracker -/

lemma addTracker_of_mem (there : ∃ t' ∈ l, t'.url = t.url) : addTracker l t = l := by
  have found : l.any (·.url == t.url) = true := by simpa using there
  rw [addTracker, if_pos found]

lemma addTracker_of_new (new : ∀ t' ∈ l, t'.url ≠ t.url) : addTracker l t = l ++ [t] := by
  have missed : ¬ l.any (·.url == t.url) = true := by simpa using new
  rw [addTracker, if_neg missed]

lemma addTracker_cases (l : List Tracker) (t : Tracker) :
    (∃ t' ∈ l, t'.url = t.url) ∧ addTracker l t = l ∨
      (∀ t' ∈ l, t'.url ≠ t.url) ∧ addTracker l t = l ++ [t] := by
  by_cases there : ∃ t' ∈ l, t'.url = t.url
  · exact .inl ⟨there, addTracker_of_mem there⟩
  · have new : ∀ t' ∈ l, t'.url ≠ t.url := fun t' inside same => there ⟨t', inside, same⟩
    exact .inr ⟨new, addTracker_of_new new⟩

lemma prefix_addTracker (l : List Tracker) (t : Tracker) : l <+: addTracker l t := by
  rcases addTracker_cases l t with ⟨-, same⟩ | ⟨-, longer⟩
  · exact same.symm ▸ List.prefix_rfl
  · exact longer.symm ▸ List.prefix_append l [t]

/-! ### First of each address -/

/-- The first tracker of each address, in order. -/
def firstByUrl (trackers : List Tracker) : List Tracker :=
  trackers.eraseDupsBy fun t t' => t.url == t'.url

/-- After a tracker no other one of its address counts. -/
lemma firstByUrl_cons (t : Tracker) (l : List Tracker) :
    firstByUrl (t :: l) = t :: firstByUrl (l.filter (·.url ≠ t.url)) := by
  rw [firstByUrl, List.eraseDupsBy_cons, firstByUrl]
  simp only [beq_eq_false_iff_ne]

/-- A tracker at the end counts only if no other one has its address. -/
lemma firstByUrl_concat (t : Tracker) (l : List Tracker) :
    firstByUrl (l ++ [t]) = addTracker (firstByUrl l) t := by
  match l with
  | [] => rfl
  | first :: l =>
    have ih := firstByUrl_concat t (l.filter (·.url ≠ first.url))
    rw [List.cons_append, firstByUrl_cons, firstByUrl_cons, List.filter_append]
    by_cases same : t.url = first.url
    · have gone : [t].filter (·.url ≠ first.url) = [] := by simp [same]
      rw [gone, List.append_nil, addTracker_of_mem ⟨first, List.mem_cons_self, same.symm⟩]
    · have stays : [t].filter (·.url ≠ first.url) = [t] := by simp [same]
      rw [stays, ih]
      rcases addTracker_cases (firstByUrl (l.filter (·.url ≠ first.url))) t with
        ⟨⟨t', inside, there⟩, kept⟩ | ⟨new, longer⟩
      · rw [kept, addTracker_of_mem ⟨t', List.mem_cons_of_mem _ inside, there⟩]
      · rw [longer, addTracker_of_new, List.cons_append]
        rw [List.forall_mem_cons]
        exact ⟨fun there => same there.symm, new⟩
termination_by l.length
decreasing_by
  have := List.length_filter_le (·.url ≠ first.url) l
  simp only [List.length_cons]
  omega

theorem foldl_addTracker (l l' : List Tracker) :
    l'.foldl addTracker (firstByUrl l) = firstByUrl (l ++ l') := by
  induction l' using List.reverseRecOn with
  | nil => rw [List.foldl_nil, List.append_nil]
  | append_singleton l' t ih =>
    rw [List.foldl_concat, ih, ← List.append_assoc, firstByUrl_concat]

lemma prefix_foldl_addTracker (l l' : List Tracker) : l <+: l'.foldl addTracker l := by
  refine List.foldlRecOn (motive := (l <+: ·)) l' addTracker List.prefix_rfl ?_
  intro grown before t _
  exact before.trans (prefix_addTracker grown t)

lemma nodup_firstByUrl (l : List Tracker) : ((firstByUrl l).map (·.url)).Nodup := by
  induction l using List.reverseRecOn with
  | nil => exact List.nodup_nil
  | append_singleton l t ih =>
    rw [firstByUrl_concat]
    rcases addTracker_cases (firstByUrl l) t with ⟨-, same⟩ | ⟨new, longer⟩
    · rwa [same]
    · rw [longer, List.map_append, List.map_singleton, ← List.concat_eq_append, List.nodup_concat]
      refine ⟨?_, ih⟩
      intro inside
      obtain ⟨t', there, same⟩ := List.mem_map.1 inside
      exact new t' there same

lemma mem_map_url_firstByUrl : url ∈ (firstByUrl l).map (·.url) ↔ url ∈ l.map (·.url) := by
  induction l using List.reverseRecOn with
  | nil => rfl
  | append_singleton l t ih =>
    rw [firstByUrl_concat, List.map_append, List.mem_append, ← ih]
    rcases addTracker_cases (firstByUrl l) t with ⟨⟨t', inside, there⟩, same⟩ | ⟨-, longer⟩
    · rw [same, List.map_singleton, List.mem_singleton, ← there]
      refine ⟨.inl, ?_⟩
      rintro (old | rfl)
      · exact old
      · exact List.mem_map_of_mem inside
    · rw [longer, List.map_append, List.mem_append]

lemma Torrent.foldl_withTracker (t : Torrent) (l : List Tracker) :
    l.foldl withTracker t = { t with trackers := l.foldl addTracker t.trackers } := by
  induction l generalizing t with
  | nil => rfl
  | cons tracker l ih => exact ih (t.withTracker tracker)

end TorrentHandle
