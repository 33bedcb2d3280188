import Mathlib.Data.List.Forall2
import Mathlib.Data.List.Nodup
import TorrentHandle.Json.Reader
import TorrentHandle.Proofs.Json.Grammar
import TorrentHandle.Proofs.Stages

/-!
Readers of lists and records. The items of a list are read one by one. The members of a record are
read in text order, but what is given depends only on the values that each name has: a field gets
its only value, or its fallback if it has none, and nothing is given where a field has two. Values
of other names are passed over.
-/

namespace TorrentHandle.Json

/-- The values that a name has in a record, in text order. -/
def named (name : String) (ms : List (Token × Doc)) : List Doc :=
  ms.filterMap fun m => if m.1 = .text name then some m.2 else none

/-- The names of all members are texts. -/
def Named (ms : List (Token × Doc)) : Prop := ∀ m ∈ ms, ∃ s, m.1 = .text s

variable {depth : ℕ} {ms : List (Token × Doc)} {name s : String} {d : Doc}

lemma named_cons_self : named name ((.text name, d) :: ms) = d :: named name ms := by simp [named]

lemma named_cons_of_ne (other : s ≠ name) : named name ((.text s, d) :: ms) = named name ms := by
  simp [named, other]

lemma named_eq_nil (other : ∀ m ∈ ms, m.1 ≠ .text name) : named name ms = [] :=
  List.filterMap_eq_nil_iff.2 fun m there => if_neg (other m there)

lemma mem_named : d ∈ named name ms ↔ (Token.text name, d) ∈ ms := by
  simp only [named, List.mem_filterMap, Option.ite_none_right_eq_some, Option.some.injEq]
  constructor
  · rintro ⟨⟨_, _⟩, there, rfl, rfl⟩
    exact there
  · exact fun there => ⟨_, there, rfl, rfl⟩

lemma named_of_perm {ms' : List (Token × Doc)} (order : ms.Perm ms') (texts : Named ms) : Named ms' :=
  fun m there => texts m (order.mem_iff.2 there)

lemma named_text : Named ((.text s, d) :: ms) ↔ Named ms := by
  simp [Named]

section Pointwise

variable {α β : Type} {R S : α → β → Prop} {as : List α} {bs : List β}

lemma forall₂_congr_mem (same : ∀ a ∈ as, ∀ b, R a b ↔ S a b) :
    List.Forall₂ R as bs ↔ List.Forall₂ S as bs := by
  induction as generalizing bs with
  | nil => simp
  | cons a as ih =>
    obtain ⟨first, others⟩ := List.forall_mem_cons.1 same
    simp only [List.forall₂_cons_left_iff, first, ih others]

lemma exists_of_forall₂ {a : α} (each : List.Forall₂ R as bs) (there : a ∈ as) : ∃ b, R a b := by
  induction each with
  | nil => cases there
  | cons first _ ih =>
    obtain rfl | there := List.mem_cons.1 there
    · exact ⟨_, first⟩
    · exact ih there

end Pointwise

namespace Reader

/-! ### Lists -/

lemma items_eq_ok {read : Doc → Except Fault Value} {ds : List Doc} {vs : List Value} :
    items read ds = .ok vs ↔ List.Forall₂ (fun d v => read d = .ok v) ds vs := by
  induction ds generalizing vs with
  | nil => simp [items, eq_comm]
  | cons d ds ih =>
    rw [items, List.forall₂_cons_left_iff]
    cases read d with
    | error f => simp
    | ok v => simp [map_eq_ok, ih, @eq_comm _ vs]

lemma list_items {r : Reader} {inside : ℕ} {ds : List Doc} (entered : deeper depth = .ok inside) :
    Reader.list r depth (.list ds .closed) = (items (r inside) ds).map .list := by
  simp only [Reader.list, entered, bind, Except.bind, ended, Ending.fault?]
  cases items (r inside) ds <;> rfl

/-! ### Fields -/

variable {fields : List Field} {field : Field} {found : List (String × Value)}
  {vs : List (String × Value)} {p : String × Value}

/-- What a field gets: the value that was found before, what its only value is read as, or the
fallback if there is none. -/
inductive Field.Filled (depth : ℕ) (field : Field) : Option Value → List Doc → Value → Prop where
  | found {v : Value} : Filled depth field (some v) [] v
  | read {d : Doc} {v : Value} (reads : field.reader depth d = .ok v) : Filled depth field none [d] v
  | missing {v : Value} (fallback : field.fallback = some v) : Filled depth field none [] v

namespace Field

variable {ds : List Doc} {v w : Value}

lemma filled_some : field.Filled depth (some v) ds w ↔ ds = [] ∧ w = v := by
  constructor
  · rintro ⟨⟩
    exact ⟨rfl, rfl⟩
  · rintro ⟨rfl, rfl⟩
    exact .found

lemma filled_cons :
    field.Filled depth none (d :: ds) w ↔ ds = [] ∧ field.reader depth d = .ok w := by
  constructor
  · rintro (_ | reads)
    exact ⟨rfl, reads⟩
  · rintro ⟨rfl, reads⟩
    exact .read reads

lemma filled_nil : field.Filled depth none [] w ↔ field.fallback = some w := by
  constructor
  · rintro (_ | _ | fallback)
    exact fallback
  · exact .missing

/-- The member that a field gets from those that were found before and those that follow. -/
structure Gets (depth : ℕ) (found : List (String × Value)) (ms : List (Token × Doc))
    (field : Field) (p : String × Value) : Prop where
  name : p.1 = field.name
  value : field.Filled depth (found.lookup field.name) (named field.name ms) p.2

/-! ### One member -/

lemma gets_congr {ms' : List (Token × Doc)} (same : named field.name ms = named field.name ms') :
    field.Gets depth found ms p ↔ field.Gets depth found ms' p := by
  constructor <;> rintro ⟨name, value⟩
  · exact ⟨name, same ▸ value⟩
  · exact ⟨name, same.symm ▸ value⟩

lemma gets_of_ne (other : s ≠ field.name) :
    field.Gets depth found ((.text s, d) :: ms) p ↔ field.Gets depth found ms p :=
  gets_congr (named_cons_of_ne other)

lemma Filled.length_le {tag : Option Value} (filled : field.Filled depth tag ds v) :
    ds.length ≤ 1 := by
  cases filled <;> simp

lemma gets_of_perm {ms' : List (Token × Doc)} (order : ms.Perm ms') :
    field.Gets depth found ms p ↔ field.Gets depth found ms' p := by
  have order' : (named field.name ms).Perm (named field.name ms') := order.filterMap _
  have same {ds ds' : List Doc} (order : ds.Perm ds') (few : ds.length ≤ 1) : ds = ds' := by
    match ds, few with
    | [], _ => exact (List.nil_perm.1 order).symm
    | [d], _ => exact List.singleton_perm.1 order
  constructor <;> intro gets
  · exact (gets_congr (same order' gets.value.length_le)).1 gets
  · exact (gets_congr (same order'.symm gets.value.length_le)).1 gets

lemma gets_found_of_ne (other : s ≠ field.name) :
    field.Gets depth ((s, v) :: found) ms p ↔ field.Gets depth found ms p := by
  have skipped : ((s, v) :: found).lookup field.name = found.lookup field.name := by
    rw [List.lookup_cons, beq_false_of_ne other.symm]
  constructor <;> rintro ⟨name, value⟩
  · exact ⟨name, skipped ▸ value⟩
  · exact ⟨name, skipped.symm ▸ value⟩

/-- A member whose name had a value before is refused. -/
lemma not_gets (again : found.lookup field.name = some v) :
    ¬ field.Gets depth found ((.text field.name, d) :: ms) p := by
  rintro ⟨-, value⟩
  rw [named_cons_self, again, filled_some] at value
  exact List.cons_ne_nil _ _ value.1

/-- A member whose name had no value before is read, and may not come again. -/
lemma gets_self (new : found.lookup field.name = none) :
    field.Gets depth found ((.text field.name, d) :: ms) p ↔
      ∃ v, field.reader depth d = .ok v ∧ field.Gets depth ((field.name, v) :: found) ms p := by
  constructor
  · rintro ⟨name, value⟩
    rw [named_cons_self, new, filled_cons] at value
    refine ⟨p.2, value.2, name, ?_⟩
    rw [List.lookup_cons_self, filled_some]
    exact ⟨value.1, rfl⟩
  · rintro ⟨v, reads, name, value⟩
    rw [List.lookup_cons_self, filled_some] at value
    refine ⟨name, ?_⟩
    rw [named_cons_self, new, filled_cons, value.2]
    exact ⟨value.1, reads⟩

lemma gets_only (last : named field.name ms = []) :
    field.Gets depth [] ((.text field.name, d) :: ms) p ↔
      ∃ v, field.reader depth d = .ok v ∧ p = (field.name, v) := by
  rw [gets_self List.lookup_nil]
  refine exists_congr fun v => and_congr_right fun _ => ⟨?_, ?_⟩
  · rintro ⟨name, value⟩
    rw [List.lookup_cons_self, filled_some] at value
    exact Prod.ext name value.2
  · rintro rfl
    refine ⟨rfl, ?_⟩
    rw [List.lookup_cons_self, filled_some]
    exact ⟨last, rfl⟩

end Field

open Reader.Field

/-! ### All members -/

/-- Where no members follow, a field gets what was found, or the fallback. -/
lemma Field.gets_nil : field.Gets depth found [] p ↔
    ∃ v, (found.lookup field.name).or field.fallback = some v ∧ p = (field.name, v) := by
  constructor
  · rintro ⟨name, value⟩
    refine ⟨p.2, ?_, Prod.ext name rfl⟩
    revert value
    cases found.lookup field.name with
    | none => exact filled_nil.1
    | some v => exact fun value => congrArg some (filled_some.1 value).2.symm
  · rintro ⟨v, value, rfl⟩
    refine ⟨rfl, ?_⟩
    revert value
    show _ → field.Filled depth (found.lookup field.name) [] v
    cases found.lookup field.name with
    | none => exact filled_nil.2
    | some v => exact fun value => filled_some.2 ⟨rfl, (Option.some.inj value).symm⟩

lemma complete_iff :
    complete found fields = .ok vs ↔ List.Forall₂ (Gets depth found []) fields vs := by
  induction fields generalizing vs with
  | nil => simp [complete, eq_comm]
  | cons field fields ih =>
    simp only [List.forall₂_cons_left_iff, gets_nil, ← ih, complete]
    cases found.lookup field.name <;> cases field.fallback <;> simp [map_eq_ok, @eq_comm _ vs]

/-- **Members are read by name**: what each field gets does not depend on where it stands. -/
theorem members_iff (names : (fields.map Field.name).Nodup)
    (wellFormed : ∀ m ∈ ms, m.1.IsName ∧ m.2.Complete) :
    (members fields depth found ms >>= fun found => complete found fields) = .ok vs ↔
      Named ms ∧ List.Forall₂ (Gets depth found ms) fields vs := by
  induction ms generalizing found with
  | nil => exact ⟨fun done => ⟨nofun, complete_iff.1 done⟩, fun ⟨_, gets⟩ => complete_iff.2 gets⟩
  | cons m ms ih =>
    obtain ⟨⟨isName, whole⟩, others⟩ := List.forall_mem_cons.1 wellFormed
    obtain ⟨t, d⟩ := m
    obtain rfl | ⟨s, rfl⟩ := isName
    · refine ⟨nofun, fun ⟨named, _⟩ => ?_⟩
      obtain ⟨_, ⟨⟩⟩ := named _ (List.mem_cons_self ..)
    rw [members, named_text]
    cases known : fields.find? (·.name == s) with
    | none =>
      have other : ∀ field ∈ fields, s ≠ field.name := by
        rintro field there rfl
        exact List.find?_eq_none.1 known field there (beq_self_eq_true _)
      simp only [skipFault?_of_complete whole]
      rw [ih others, forall₂_congr_mem fun field there _ => gets_of_ne (other field there)]
    | some field =>
      have there := List.mem_of_find?_eq_some known
      obtain rfl : field.name = s := by simpa using List.find?_some known
      cases before : found.lookup field.name with
      | some v =>
        refine ⟨nofun, fun ⟨_, gets⟩ => ?_⟩
        obtain ⟨p, gets⟩ := exists_of_forall₂ gets there
        exact absurd gets (not_gets before)
      | none =>
        cases reads : field.reader depth d with
        | error f =>
          simp only [Option.isSome_none, Bool.false_eq_true, if_false, reads]
          refine ⟨nofun, fun ⟨_, gets⟩ => ?_⟩
          obtain ⟨p, gets⟩ := exists_of_forall₂ gets there
          obtain ⟨v, reads', -⟩ := (gets_self before).1 gets
          exact nomatch reads.symm.trans reads'
        | ok v =>
          have step : ∀ field' ∈ fields, ∀ p,
              field'.Gets depth found ((.text field.name, d) :: ms) p ↔
                field'.Gets depth ((field.name, v) :: found) ms p := by
            intro field' there' p
            by_cases same : field.name = field'.name
            · obtain rfl := List.inj_on_of_nodup_map names there there' same
              simp [gets_self before, reads]
            · exact (gets_of_ne same).trans (gets_found_of_ne same).symm
          rw [forall₂_congr_mem step, ← ih others]
          simp only [Option.isSome_none, Bool.false_eq_true, if_false, reads]

/-! ### By position -/

/-- Members by position: names of fields, before the values as far as these go. -/
def placed (names : List String) (ds : List Doc) : List (Token × Doc) :=
  (names.map Token.text).zip ds

lemma placed_cons {names : List String} {ds : List Doc} :
    placed (name :: names) (d :: ds) = (.text name, d) :: placed names ds := rfl

lemma placed_nil {names : List String} : placed names [] = [] := List.zip_nil_right

lemma named_placed_of_notMem {names : List String} {ds : List Doc} (other : name ∉ names) :
    named name (placed names ds) = [] := by
  refine named_eq_nil fun m there same => ?_
  obtain ⟨s, inside, eq⟩ := List.mem_map.1 (List.of_mem_zip there).1
  obtain rfl := Token.text.inj (eq.trans same)
  exact other inside

lemma positions_nil : positions depth .closed fields [] = complete [] fields := by
  induction fields with
  | nil => rfl
  | cons field fields ih =>
    simp only [positions, complete, ih, Ending.fault?, List.lookup_nil]
    split <;> rename_i missing <;> simp_all

theorem positions_iff {ds : List Doc} (names : (fields.map Field.name).Nodup) :
    positions depth .closed fields ds = .ok vs ↔ ds.length ≤ fields.length ∧
      List.Forall₂ (Gets depth [] (placed (fields.map Field.name) ds)) fields vs := by
  induction fields generalizing ds vs with
  | nil =>
    cases ds with
    | nil => simp [positions, ended, Ending.fault?, eq_comm]
    | cons d ds => simp [positions]
  | cons field fields ih =>
    cases ds with
    | nil => simp only [positions_nil, placed_nil, ← complete_iff, List.length_nil, Nat.zero_le,
        true_and]
    | cons d ds =>
      rw [List.map_cons, List.nodup_cons] at names
      have others : ∀ field' ∈ fields, ∀ p, field'.Gets depth []
          ((.text field.name, d) :: placed (fields.map Field.name) ds) p ↔
            field'.Gets depth [] (placed (fields.map Field.name) ds) p :=
        fun field' there p => gets_of_ne fun same => names.1 (same ▸ List.mem_map_of_mem there)
      rw [List.map_cons, placed_cons, List.forall₂_cons_left_iff, positions]
      simp only [gets_only (named_placed_of_notMem names.1), forall₂_congr_mem others]
      cases reads : field.reader depth d with
      | error f => simp
      | ok v => simp [map_eq_ok, ih names.2, @eq_comm _ vs, and_assoc]

end Reader

open Reader

/-! ### Records -/

/-- The members that a tree lists for a record with the given names: its own, or its items by
position. -/
def Doc.Lists (names : List String) (d : Doc) (ms : List (Token × Doc)) : Prop :=
  d = .record ms .closed ∨
    ∃ ds, d = .list ds .closed ∧ ds.length ≤ names.length ∧ ms = placed names ds

lemma named_placed (names : List String) (ds : List Doc) : Named (placed names ds) := by
  intro m there
  obtain ⟨s, -, name⟩ := List.mem_map.1 (List.of_mem_zip there).1
  exact ⟨s, name.symm⟩

lemma Doc.Lists.complete {names : List String} (lists : d.Lists names ms) (whole : d.Complete) :
    ∀ m ∈ ms, m.2.Complete := by
  obtain rfl | ⟨ds, rfl, -, rfl⟩ := lists
  · exact fun m there => (whole.members.2 m there).2
  · exact fun m there => whole.items.2 m.2 (List.of_mem_zip there).2

section Record

variable {inside : ℕ} {fields : List Field} {vs : List (String × Value)} {v : Value}
  (unlike : (fields.map Field.name).Nodup) (entered : deeper depth = .ok inside)

include entered

lemma record_members : Reader.record fields depth (.record ms .closed) =
    (members fields inside [] ms >>= fun found => complete found fields).map .record := by
  simp only [Reader.record, entered, bind, Except.bind, pure, Except.pure, ended, Ending.fault?]
  cases members fields inside [] ms with
  | error f => rfl
  | ok found => cases complete found fields <;> rfl

lemma record_positions {ds : List Doc} : Reader.record fields depth (.list ds .closed) =
    (positions inside .closed fields ds).map .record := by
  simp only [Reader.record, entered, bind, Except.bind, pure, Except.pure]
  cases positions inside .closed fields ds <;> rfl

include unlike

theorem record_iff (whole : d.Complete) : Reader.record fields depth d = .ok v ↔
    ∃ ms, d.Lists (fields.map Field.name) ms ∧ Named ms ∧
      ∃ vs, List.Forall₂ (Field.Gets inside [] ms) fields vs ∧ .record vs = v := by
  cases d with
  | record ms ending =>
    obtain ⟨rfl, wellFormed⟩ := whole.members
    rw [record_members entered, map_eq_ok]
    simp [Doc.Lists, members_iff unlike wellFormed, and_assoc]
  | list ds ending =>
    obtain ⟨rfl, -⟩ := whole.items
    rw [record_positions entered, map_eq_ok]
    simp [Doc.Lists, positions_iff unlike, and_assoc, named_placed]
  | _ => simp [Reader.record, Doc.Lists]

end Record

/-! ### Tagged records -/

section Tagged

variable {tagName kind : String} {kinds : List String} {tag : Option String}

/-- The tag that is known from what was found before and the values that its name has. -/
inductive TagKnown (kinds : List String) : Option String → List Doc → String → Prop where
  | found {kind : String} : TagKnown kinds (some kind) [] kind
  | read {kind : String} (known : kind ∈ kinds) : TagKnown kinds none [.text kind] kind

lemma tagKnown_some {ds : List Doc} : TagKnown kinds (some s) ds kind ↔ ds = [] ∧ s = kind := by
  constructor
  · rintro ⟨⟩
    exact ⟨rfl, rfl⟩
  · rintro ⟨rfl, rfl⟩
    exact .found

lemma tagKnown_cons {ds : List Doc} : TagKnown kinds none (d :: ds) kind ↔
    ds = [] ∧ Reader.tag kinds d = .ok kind := by
  constructor
  · rintro (_ | known)
    exact ⟨rfl, if_pos known⟩
  · rintro ⟨rfl, read⟩
    unfold Reader.tag at read
    split at read
    · split at read
      · cases read
        exact .read ‹_›
      · cases read
    · cases read

theorem storeMembers_iff (wellFormed : ∀ m ∈ ms, m.1.IsName ∧ m.2.Complete) :
    storeMembers tagName kinds depth tag ms = .ok (some kind) ↔ Named ms ∧
      (∀ m ∈ ms, m.1 ≠ .text tagName → m.2.storeFault? depth = none) ∧
      TagKnown kinds tag (named tagName ms) kind := by
  induction ms generalizing tag with
  | nil =>
    cases tag with
    | none => exact ⟨nofun, fun ⟨_, _, known⟩ => nomatch known⟩
    | some s => simp [storeMembers, Named, named, tagKnown_some]
  | cons m ms ih =>
    obtain ⟨⟨isName, whole⟩, others⟩ := List.forall_mem_cons.1 wellFormed
    obtain ⟨t, d⟩ := m
    obtain rfl | ⟨s, rfl⟩ := isName
    · refine ⟨nofun, fun ⟨named, _⟩ => ?_⟩
      obtain ⟨_, ⟨⟩⟩ := named _ (List.mem_cons_self ..)
    rw [storeMembers, named_text, List.forall_mem_cons]
    by_cases same : s = tagName
    · subst same
      rw [if_pos rfl, named_cons_self]
      cases tag with
      | some s' => simp [tagKnown_some]
      | none =>
        rw [tagKnown_cons]
        cases read : Reader.tag kinds d with
        | error f => simp
        | ok s' => simp [ih others, tagKnown_some]
    · rw [if_neg same, named_cons_of_ne same]
      cases stored : d.storeFault? depth with
      | some f => simp [same]
      | none => simp [ih others]

lemma tagKnown_none {ds : List Doc} :
    TagKnown kinds none ds kind ↔ kind ∈ kinds ∧ ds = [.text kind] := by
  constructor
  · rintro (_ | known)
    exact ⟨known, rfl⟩
  · rintro ⟨known, rfl⟩
    exact .read known

/-- The members of a tagged record without its tag. -/
def untagged (tagName : String) (ms : List (Token × Doc)) : List (Token × Doc) :=
  ms.filter fun m => m.1 != .text tagName

lemma named_untagged (other : name ≠ tagName) : named name (untagged tagName ms) = named name ms := by
  rw [named, untagged, List.filterMap_filter]
  refine List.filterMap_congr fun m _ => ?_
  by_cases same : m.1 = .text name <;> simp [same, other]

variable {inside : ℕ} {variants : List (String × List Field)} {v : Value}

lemma stored_iff {read : List Field → Except Fault (List (String × Value))} :
    stored variants tagName kind read = .ok v ↔ ∃ fields, variants.lookup kind = some fields ∧
      ∃ vs, read fields = .ok vs ∧ .record ((tagName, .text kind) :: vs) = v := by
  unfold stored
  cases variants.lookup kind with
  | none => simp
  | some fields => cases eq : read fields <;> simp [eq]

lemma known_of_lookup {fields : List Field} (listed : variants.lookup kind = some fields) :
    kind ∈ variants.map (·.1) := by
  obtain ⟨before, after, rfl, -⟩ := List.lookup_eq_some_iff.1 listed
  simp

lemma tagged_members (entered : deeper depth = .ok inside) :
    Reader.tagged tagName variants depth (.record ms .closed) = .ok v ↔
      ∃ kind, storeMembers tagName (variants.map (·.1)) inside none ms = .ok (some kind) ∧
        stored variants tagName kind (fun fields =>
          members fields inside [] (untagged tagName ms) >>= fun found => complete found fields) =
          .ok v := by
  simp only [Reader.tagged, entered, bind, Except.bind, ended, Ending.fault?]
  cases storeMembers tagName (variants.map (·.1)) inside none ms with
  | error f => simp
  | ok tag => cases tag <;> simp [untagged]

/-- **A tagged record is read by the names of its members**, the tag among them. -/
theorem tagged_iff (entered : deeper depth = .ok inside)
    (unlike : ∀ kind fields, variants.lookup kind = some fields →
      (tagName :: fields.map Field.name).Nodup)
    (wellFormed : ∀ m ∈ ms, m.1.IsName ∧ m.2.Complete) :
    Reader.tagged tagName variants depth (.record ms .closed) = .ok v ↔ Named ms ∧
      (∀ m ∈ ms, m.1 ≠ .text tagName → m.2.storeFault? inside = none) ∧
      ∃ kind, named tagName ms = [.text kind] ∧
        ∃ fields, variants.lookup kind = some fields ∧
          ∃ vs, List.Forall₂ (Field.Gets inside [] ms) fields vs ∧
            .record ((tagName, .text kind) :: vs) = v := by
  have read {kind fields vs} (listed : variants.lookup kind = some fields) (texts : Named ms) :
      (members fields inside [] (untagged tagName ms) >>= fun found => complete found fields) =
        .ok vs ↔ List.Forall₂ (Field.Gets inside [] ms) fields vs := by
    obtain ⟨apart, names⟩ := List.nodup_cons.1 (unlike kind fields listed)
    have whole : ∀ m ∈ untagged tagName ms, m.1.IsName ∧ m.2.Complete :=
      fun m there => wellFormed m (List.mem_of_mem_filter there)
    have texts' : Named (untagged tagName ms) := fun m there => texts m (List.mem_of_mem_filter there)
    have other : ∀ field ∈ fields, field.name ≠ tagName := by
      rintro field there rfl
      exact apart (List.mem_map_of_mem there)
    rw [members_iff names whole, and_iff_right texts',
      forall₂_congr_mem fun field there _ => Field.gets_congr (named_untagged (other field there))]
  simp only [tagged_members entered, storeMembers_iff wellFormed, tagKnown_none, stored_iff]
  constructor
  · rintro ⟨kind, ⟨texts, stored, -, tag⟩, fields, listed, vs, done, rfl⟩
    exact ⟨texts, stored, kind, tag, fields, listed, vs, (read listed texts).1 done, rfl⟩
  · rintro ⟨texts, stored, kind, tag, fields, listed, vs, gets, rfl⟩
    exact ⟨kind, ⟨texts, stored, known_of_lookup listed, tag⟩, fields, listed, vs,
      (read listed texts).2 gets, rfl⟩

end Tagged

end TorrentHandle.Json
