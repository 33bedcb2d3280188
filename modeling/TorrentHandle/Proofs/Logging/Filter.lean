import Mathlib.Data.Char
import Mathlib.Data.List.Induction
import Mathlib.Data.List.Lex
import Mathlib.Data.Prod.Lex
import TorrentHandle.Logging.Filter

/-!
What a filter decides. Directives are in a linear order, by target, number of fields and names of
fields; of those that fit an event the largest decides, and of equals the last one.
-/

namespace TorrentHandle.Logging

/-! ### The order of directives -/

namespace Directive

variable {d e : Directive} {as bs : List Char}

lemma charsLt_iff : charsLt as bs = true ↔ as < bs := by
  fun_induction charsLt as bs with
  | case1 as => simp
  | case2 => simp
  | case3 a as b bs ih =>
    rw [List.cons_lt_cons_iff, ← ih, Bool.or_eq_true, Bool.and_eq_true, beq_iff_eq,
      decide_eq_true_eq]
    exact Iff.rfl

lemma namesLe_iff {as bs : List (List Char)} : namesLe as bs = true ↔ as ≤ bs := by
  rw [← not_lt]
  fun_induction namesLe as bs with
  | case1 as => simp
  | case2 => simp
  | case3 a as b bs ih =>
    rw [List.cons_lt_cons_iff, Bool.or_eq_true, Bool.and_eq_true, beq_iff_eq, ih, charsLt_iff]
    obtain less | rfl | more := lt_trichotomy a b
    · simp [less, less.not_gt, less.ne']
    · simp
    · simp [more, more.not_gt, more.ne']

/-- What decides between directives. -/
def key (d : Directive) : ℕ ×ₗ ℕ ×ₗ List (List Char) :=
  toLex (d.specificity, toLex (d.fields.length, d.fields))

lemma yieldsTo_iff : d.yieldsTo e = true ↔ d.key ≤ e.key := by
  unfold yieldsTo key
  simp only [Prod.Lex.toLex_le_toLex, bne_iff_ne]
  split_ifs with other more
  · simp [other]
  · simp [not_not.1 other, more]
  · simp [not_not.1 other, not_not.1 more, namesLe_iff]

end Directive

/-! ### The directive that decides -/

namespace Filter

variable {f ds : Filter} {d x : Directive} {level level' : Level} {target : List Char}
  {fields : List (List Char)}

/-- The largest of some directives is `d`, and of equals the last one. -/
def IsLastMax (ds : List Directive) (d : Directive) : Prop :=
  ∃ before after, ds = before ++ d :: after ∧ (∀ e ∈ before, e.key ≤ d.key) ∧
    ∀ e ∈ after, e.key < d.key

def better (best : Option Directive) (d : Directive) : Option Directive :=
  match best with
  | none => some d
  | some b => if b.yieldsTo d then some d else some b

lemma IsLastMax.all (max : IsLastMax ds d) : d ∈ ds ∧ ∀ e ∈ ds, e.key ≤ d.key := by
  obtain ⟨before, after, rfl, le, lt⟩ := max
  refine ⟨by simp, fun e inside => ?_⟩
  rw [List.mem_append, List.mem_cons] at inside
  obtain inside | rfl | inside := inside
  · exact le e inside
  · exact le_rfl
  · exact (lt e inside).le

lemma isLastMax_concat : IsLastMax (ds ++ [x]) d ↔
    d = x ∧ (∀ e ∈ ds, e.key ≤ x.key) ∨ IsLastMax ds d ∧ x.key < d.key := by
  constructor
  · rintro ⟨before, after, split, le, lt⟩
    obtain rfl | ⟨after, y, rfl⟩ := List.eq_nil_or_concat after
    · obtain ⟨rfl, same⟩ := List.append_inj' split rfl
      cases same
      exact .inl ⟨rfl, le⟩
    · rw [List.concat_eq_append, ← List.cons_append, ← List.append_assoc] at split
      obtain ⟨rfl, same⟩ := List.append_inj' split rfl
      cases same
      rw [List.concat_eq_append, List.forall_mem_append] at lt
      exact .inr ⟨⟨before, after, rfl, le, lt.1⟩, lt.2 x (List.mem_singleton_self x)⟩
  · rintro (⟨rfl, le⟩ | ⟨⟨before, after, rfl, le, lt⟩, last⟩)
    · exact ⟨ds, [], rfl, le, nofun⟩
    · refine ⟨before, after ++ [x], by simp, le, List.forall_mem_append.2 ⟨lt, ?_⟩⟩
      rintro e inside
      rwa [List.mem_singleton.1 inside]

lemma better_ne_none (best : Option Directive) : better best x ≠ none := by
  unfold better
  split
  · exact nofun
  · split <;> exact nofun

lemma foldl_better_eq_none : ds.foldl better none = none ↔ ds = [] := by
  refine ⟨fun none => ?_, by rintro rfl; rfl⟩
  obtain rfl | ⟨ds, x, rfl⟩ := List.eq_nil_or_concat ds
  · rfl
  · rw [List.concat_eq_append, List.foldl_append] at none
    exact absurd none (better_ne_none _)

lemma foldl_better_eq_some : ds.foldl better none = some d ↔ IsLastMax ds d := by
  induction ds using List.reverseRecOn generalizing d with
  | nil => exact ⟨nofun, fun ⟨before, after, split, _⟩ => by simp at split⟩
  | append_singleton ds x ih =>
    rw [List.foldl_append, List.foldl_cons, List.foldl_nil, isLastMax_concat, ← ih]
    cases best : ds.foldl better none with
    | none =>
      obtain rfl := foldl_better_eq_none.1 best
      simp [better, eq_comm]
    | some b =>
      obtain ⟨there, max⟩ := (ih.1 best).all
      rw [better]
      split_ifs with yields
      · -- `x` is as large as the largest before it
        rw [Directive.yieldsTo_iff] at yields
        constructor
        · rintro ⟨⟩
          exact .inl ⟨rfl, fun e inside => (max e inside).trans yields⟩
        · rintro (⟨rfl, -⟩ | ⟨⟨⟩, less⟩)
          · rfl
          · exact absurd yields less.not_ge
      · rw [Directive.yieldsTo_iff, not_le] at yields
        constructor
        · rintro ⟨⟩
          exact .inr ⟨rfl, yields⟩
        · rintro (⟨rfl, le⟩ | ⟨same, -⟩)
          · exact absurd (le b there) yields.not_ge
          · exact same

/-- The directive fits the event, those before it that fit are no larger, and those after it that
fit are smaller. -/
structure Decides (f : Filter) (target : List Char) (fields : List (List Char)) (d : Directive) :
    Prop where
  fits : d.fits target fields = true
  split : ∃ before after, f = before ++ d :: after ∧
    (∀ e ∈ before, e.fits target fields = true → e.key ≤ d.key) ∧
    ∀ e ∈ after, e.fits target fields = true → e.key < d.key

/-- **The last of the largest directives that fit decides.** -/
theorem deciding?_eq_some : f.deciding? target fields = some d ↔ f.Decides target fields d := by
  change (f.filter (·.fits target fields)).foldl better none = some d ↔ _
  rw [foldl_better_eq_some]
  constructor
  · rintro ⟨before, after, split, le, lt⟩
    obtain ⟨before, rest, rfl, rfl, split'⟩ := List.filter_eq_append_iff.1 split
    obtain ⟨more, after, rfl, none, fits, rfl⟩ := List.filter_eq_cons_iff.1 split'
    refine ⟨fits, before ++ more, after, by simp, ?_, ?_⟩
    · intro e inside passes
      rw [List.mem_append] at inside
      obtain inside | inside := inside
      · exact le e (List.mem_filter.2 ⟨inside, passes⟩)
      · exact absurd passes (none e inside)
    · exact fun e inside passes => lt e (List.mem_filter.2 ⟨inside, passes⟩)
  · rintro ⟨fits, before, after, rfl, le, lt⟩
    refine ⟨before.filter (·.fits target fields), after.filter (·.fits target fields), ?_, ?_, ?_⟩
    · rw [List.filter_append, List.filter_cons, if_pos fits]
    · intro e inside
      obtain ⟨inside, passes⟩ := List.mem_filter.1 inside
      exact le e inside passes
    · intro e inside
      obtain ⟨inside, passes⟩ := List.mem_filter.1 inside
      exact lt e inside passes

theorem enables_iff : f.enables level target fields = true ↔
    ∃ d, f.Decides target fields d ∧ level.rank ≤ d.level.rank := by
  simp only [← deciding?_eq_some, enables]
  cases f.deciding? target fields <;> simp

theorem enables_of_rank_le (severe : level'.rank ≤ level.rank)
    (enabled : f.enables level target fields = true) :
    f.enables level' target fields = true := by
  obtain ⟨d, decides, passes⟩ := enables_iff.1 enabled
  exact enables_iff.2 ⟨d, decides, severe.trans passes⟩

lemma enables_level : enables [{ level := level' }] level target fields = true ↔
    level.rank ≤ level'.rank := decide_eq_true_iff

/-! ### Filters of texts -/

/-- No text leaves a filter without directives. -/
theorem ofTextLossy_ne_nil (s : String) : ofTextLossy s ≠ [] := by
  unfold ofTextLossy ofDirectives
  split
  · exact List.cons_ne_nil _ _
  · rename_i some
    exact fun none => some (by rw [none]; rfl)

lemma filterMap_eq_of_mapM {α β : Type} {read : α → Option β} {xs : List α} {ys : List β}
    (each : xs.mapM read = some ys) : xs.filterMap read = ys := by
  induction xs generalizing ys with
  | nil => exact Option.some.inj each
  | cons x xs ih =>
    rw [List.mapM_cons] at each
    obtain ⟨y, first, each⟩ := Option.bind_eq_some_iff.1 each
    obtain ⟨ys, others, ⟨⟩⟩ := Option.bind_eq_some_iff.1 each
    rw [List.filterMap_cons_some first, ih others]

theorem ofTextLossy_eq {s : String} (read : ofText? s = some f) : ofTextLossy s = f := by
  obtain ⟨ds, each, rfl⟩ := Option.map_eq_some_iff.1 read
  rw [ofTextLossy, filterMap_eq_of_mapM each]

end Filter

end TorrentHandle.Logging
