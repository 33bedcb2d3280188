import TorrentHandle.Proofs.Json.Members
import TorrentHandle.Proofs.Json.RoundTrip

/-!
Well-typed trees. A form is typed if it is known of every complete tree whether it stands for a
value of the type, and for which; its reader then takes these trees and no others. Texts, truth
values, numbers and lists have typed forms, and so have records all of whose fields do: what such a
record stands for depends only on the values that each name has.
-/

namespace TorrentHandle.Json

open Reader

variable {α : Type} [Form α] {depth inside levels : ℕ} {d : Doc} {a b : α} {s name : String}
  {ms : List (Token × Doc)}

/-- The tree is read as the value, with the given depth left. -/
def Reads (depth : ℕ) (d : Doc) (a : α) : Prop :=
  ∃ v, Form.reader α depth d = .ok v ∧ Form.ofValue? v = some a

/-- A form of which it is known what trees it reads, where more depth is left than it can need. -/
class TypedForm (α : Type) [Form α] where
  levels : ℕ
  /-- The tree is one of the value. -/
  Stands : Doc → α → Prop
  reads_iff {depth : ℕ} {d : Doc} {a : α} (whole : d.Complete) (deep : levels < depth) :
    Reads depth d a ↔ Stands d a

open TypedForm

lemma decode_iff_reads (spelled : d.Spelled s) : decode s = .ok a ↔ Reads depthLimit d a := by
  simp only [decode, read, parse_of_spelled spelled, Reads, if_true]
  cases Form.reader α depthLimit d with
  | error f => simp
  | ok v => cases means : (Form.ofValue? v : Option α) <;> simp [means]

theorem decode_iff [TypedForm α] (shallow : TypedForm.levels α < depthLimit)
    (spelled : d.Spelled s) : decode s = .ok a ↔ Stands d a :=
  (decode_iff_reads spelled).trans (reads_iff spelled.complete shallow)

/-! ### Texts, numbers and lists -/

instance : TypedForm String where
  levels := 0
  Stands d s := d = .text s
  reads_iff {_ d _} _ _ := by
    cases d <;> simp [Reads, Form.reader, Reader.text, Form.ofValue?]

instance : TypedForm Bool where
  levels := 0
  Stands d b := d = .bool b
  reads_iff {_ d _} _ _ := by
    cases d <;> simp [Reads, Form.reader, Reader.bool, Form.ofValue?]

instance : TypedForm (Option String) where
  levels := 0
  Stands d s := d = match s with
    | some s => .text s
    | none => .null
  reads_iff {_ d s} _ _ := by
    cases d <;> cases s <;> simp [Reads, Form.reader, Reader.optionalText, Reader.text, Form.ofValue?]

lemma integer_iff {low high : ℤ} {v : Value} : Reader.integer low high depth d = .ok v ↔
    ∃ i, d = .number (.integer i) ∧ (low ≤ i ∧ i ≤ high) ∧ .integer i = v := by
  unfold Reader.integer
  split
  · rename_i i
    by_cases inside : low ≤ i ∧ i ≤ high <;> simp [inside]
  · rename_i other
    exact ⟨nofun, fun ⟨i, number, _⟩ => absurd number (other i)⟩

lemma reads_integer {low high : ℤ} (ofInt : ℤ → α) (toInt : α → ℤ)
    (reader : Form.reader α = .integer low high)
    (means : ∀ i, Form.ofValue? (.integer i) = some (ofInt i))
    (toInt_ofInt : ∀ i, low ≤ i → i ≤ high → toInt (ofInt i) = i)
    (ofInt_toInt : ∀ a, ofInt (toInt a) = a) (inside : ∀ a, low ≤ toInt a ∧ toInt a ≤ high) :
    Reads depth d a ↔ d = .number (.integer (toInt a)) := by
  simp only [Reads, reader, integer_iff]
  constructor
  · rintro ⟨_, ⟨i, rfl, ⟨least, most⟩, rfl⟩, value⟩
    obtain rfl := Option.some.inj ((means i).symm.trans value)
    rw [toInt_ofInt i least most]
  · rintro rfl
    exact ⟨_, ⟨toInt a, rfl, inside a, rfl⟩, (means _).trans (congrArg some (ofInt_toInt a))⟩

lemma reads_unsigned {bits : ℕ} (ofNat : ℕ → α) (toNat : α → ℕ)
    (reader : Form.reader α = .unsigned bits)
    (means : ∀ i : ℤ, Form.ofValue? (.integer i) = some (ofNat i.toNat))
    (toNat_ofNat : ∀ n, n < Nat.pow 2 bits → toNat (ofNat n) = n)
    (ofNat_toNat : ∀ a, ofNat (toNat a) = a) (small : ∀ a, toNat a < Nat.pow 2 bits) :
    Reads depth d a ↔ d = .number (.integer (toNat a)) := by
  refine reads_integer (ofNat ·.toNat) (toNat ·) reader means (fun i least most => ?_)
    (fun a => ofNat_toNat a) fun a => ?_
  · have := toNat_ofNat i.toNat (by omega)
    omega
  · have := small a
    omega

lemma reads_signed {bits : ℕ} (ofInt : ℤ → α) (toInt : α → ℤ)
    (reader : Form.reader α = .signed bits)
    (means : ∀ i, Form.ofValue? (.integer i) = some (ofInt i))
    (toInt_ofInt : ∀ i : ℤ, -Nat.pow 2 (bits - 1) ≤ i → i < Nat.pow 2 (bits - 1) → toInt (ofInt i) = i)
    (ofInt_toInt : ∀ a, ofInt (toInt a) = a) (low : ∀ a, -Nat.pow 2 (bits - 1) ≤ toInt a)
    (high : ∀ a, toInt a < Nat.pow 2 (bits - 1)) :
    Reads depth d a ↔ d = .number (.integer (toInt a)) := by
  refine reads_integer ofInt toInt reader means (fun i least most => ?_) ofInt_toInt fun a => ?_
  · exact toInt_ofInt i least (by omega)
  · exact ⟨low a, Int.le_sub_one_of_lt (high a)⟩

instance : TypedForm UInt8 where
  levels := 0
  Stands d n := d = .number (.integer n.toNat)
  reads_iff _ _ := reads_unsigned UInt8.ofNat UInt8.toNat rfl (fun _ => rfl)
    (fun _ => UInt8.toNat_ofNat_of_lt') (fun _ => UInt8.ofNat_toNat) UInt8.toNat_lt

instance : TypedForm UInt32 where
  levels := 0
  Stands d n := d = .number (.integer n.toNat)
  reads_iff _ _ := reads_unsigned UInt32.ofNat UInt32.toNat rfl (fun _ => rfl)
    (fun _ => UInt32.toNat_ofNat_of_lt') (fun _ => UInt32.ofNat_toNat) UInt32.toNat_lt

instance : TypedForm UInt64 where
  levels := 0
  Stands d n := d = .number (.integer n.toNat)
  reads_iff _ _ := reads_unsigned UInt64.ofNat UInt64.toNat rfl (fun _ => rfl)
    (fun _ => UInt64.toNat_ofNat_of_lt') (fun _ => UInt64.ofNat_toNat) UInt64.toNat_lt

instance : TypedForm Int32 where
  levels := 0
  Stands d n := d = .number (.integer n.toInt)
  reads_iff _ _ := reads_signed Int32.ofInt Int32.toInt rfl (fun _ => rfl)
    (fun _ => Int32.toInt_ofInt_of_le) Int32.ofInt_toInt Int32.le_toInt Int32.toInt_lt

instance : TypedForm Int64 where
  levels := 0
  Stands d n := d = .number (.integer n.toInt)
  reads_iff _ _ := reads_signed Int64.ofInt Int64.toInt rfl (fun _ => rfl)
    (fun _ => Int64.toInt_ofInt_of_le) Int64.ofInt_toInt Int64.le_toInt Int64.toInt_lt

lemma ofItems?_cons {v : Value} {vs : List Value} {as : List α} :
    ofItems? (v :: vs) = some as ↔
      ∃ a as', Form.ofValue? v = some a ∧ ofItems? vs = some as' ∧ as = a :: as' := by
  rw [ofItems?]
  cases (Form.ofValue? v : Option α) with
  | none => simp
  | some a => cases (ofItems? vs : Option (List α)) <;> simp [@eq_comm _ as]

lemma items_iff {ds : List Doc} {as : List α} :
    (∃ vs, items (Form.reader α depth) ds = .ok vs ∧ ofItems? vs = some as) ↔
      List.Forall₂ (Reads depth) ds as := by
  induction ds generalizing as with
  | nil => simp [items, ofItems?, eq_comm]
  | cons d ds ih =>
    simp only [items_eq_ok, List.forall₂_cons_left_iff] at ih ⊢
    constructor
    · rintro ⟨_, ⟨v, vs, read, others, rfl⟩, means⟩
      obtain ⟨a, as, first, means', rfl⟩ := ofItems?_cons.1 means
      exact ⟨a, as, ⟨v, read, first⟩, ih.1 ⟨vs, others, means'⟩, rfl⟩
    · rintro ⟨a, as, ⟨v, read, first⟩, others, rfl⟩
      obtain ⟨vs, others', means⟩ := ih.2 others
      exact ⟨_, ⟨v, vs, read, others', rfl⟩, ofItems?_cons.2 ⟨a, as, first, means, rfl⟩⟩

instance [TypedForm α] : TypedForm (List α) where
  levels := TypedForm.levels α + 1
  Stands d as := ∃ ds, d = .list ds .closed ∧ List.Forall₂ Stands ds as
  reads_iff {depth d as} whole deep := by
    obtain ⟨inside, entered, left⟩ := deeper_of_lt deep
    cases d with
    | list ds ending =>
      obtain ⟨rfl, each⟩ := whole.items
      have read : Reads depth (.list ds .closed) as ↔ ∃ vs, items (Form.reader α inside) ds = .ok vs ∧
          ofItems? vs = some as := by
        simp only [Reads, Form.reader, list_items entered, map_eq_ok]
        simp [Form.ofValue?]
      rw [read, items_iff, forall₂_congr_mem fun d there _ => reads_iff (each d there) left]
      simp
    | _ => simp [Reads, Form.reader, Reader.list]

lemma oneOf_iff {names : List String} {v : Value} (whole : d.Complete)
    (entered : deeper depth = .ok inside) : Reader.oneOf names depth d = .ok v ↔
      ∃ s ∈ names, (d = .text s ∨ d = .record [(.text s, .null)] .closed) ∧ .text s = v := by
  cases d with
  | text s => by_cases known : s ∈ names <;> simp [Reader.oneOf, known]
  | record ms ending =>
    obtain ⟨rfl, wellFormed⟩ := whole.members
    simp only [Reader.oneOf, entered, bind, Except.bind]
    cases ms with
    | nil => simp
    | cons m more =>
      obtain ⟨t, d⟩ := m
      obtain ⟨rfl | ⟨s, rfl⟩, -⟩ := wellFormed _ (List.mem_cons_self ..)
      · simp
      · by_cases known : s ∈ names <;> cases d <;> cases more <;>
          simp [known, ended, Ending.fault?, eq_comm]
  | gap t =>
    obtain ⟨_, within⟩ := whole
    cases within
  | _ => simp [Reader.oneOf]

/-! ### Records -/

section Given

variable [TypedForm α]

/-- The name has one value, and this stands for `a`. -/
def Given (name : String) (ms : List (Token × Doc)) (a : α) : Prop :=
  ∃ d, named name ms = [d] ∧ Stands d a

/-- As `Given`, but where the name has no value the fallback is taken. -/
def GivenOr (fallback : α) (name : String) (ms : List (Token × Doc)) (a : α) : Prop :=
  named name ms = [] ∧ a = fallback ∨ Given name ms a

variable (whole : ∀ m ∈ ms, m.2.Complete) (deep : levels < inside)
  (small : TypedForm.levels α ≤ levels)

include whole deep small

/-- A field gets what its form reads of the only value of its name, or the fallback. -/
lemma filled_iff {fallback : Option Value} :
    (∃ v, (Reader.Field.mk name (Form.reader α) fallback).Filled inside none (named name ms) v ∧
        Form.ofValue? v = some a) ↔
      named name ms = [] ∧ (∃ v, fallback = some v ∧ Form.ofValue? v = some a) ∨
        Given name ms a := by
  have reads : ∀ d ∈ named name ms, (Reads inside d a ↔ Stands d a) := fun d there =>
    reads_iff (whole _ (mem_named.1 there)) (Nat.lt_of_le_of_lt small deep)
  rw [Given]
  revert reads
  cases named name ms with
  | nil => simp [Field.filled_nil]
  | cons d ds =>
    intro reads
    have first := reads d (List.mem_cons_self ..)
    simp [Field.filled_cons, ← first, Reads, and_assoc]

lemma filled_of : (∃ v, (Field.of α name).Filled inside none (named name ms) v ∧
    Form.ofValue? v = some a) ↔ Given name ms a := by
  refine (filled_iff whole deep small).trans ?_
  simp

lemma filled_withDefault [LawfulForm α] : (∃ v, (Field.withDefault name b).Filled inside none
    (named name ms) v ∧ Form.ofValue? v = some a) ↔ GivenOr b name ms a := by
  refine (filled_iff whole deep small).trans ?_
  have taken : (∃ v, some (Form.toValue b) = some v ∧ Form.ofValue? v = some a) ↔ a = b := by
    simp [@eq_comm _ a]
  exact or_congr_left (and_congr_right fun _ => taken)

end Given

/-- The values that the fields get, one by one. -/
lemma exists_gets_cons {field : Field} {fields : List Field} {P : List (String × Value) → Prop} :
    (∃ vs, List.Forall₂ (Field.Gets inside [] ms) (field :: fields) vs ∧ P vs) ↔
      ∃ v, field.Filled inside none (named field.name ms) v ∧
        ∃ vs, List.Forall₂ (Field.Gets inside [] ms) fields vs ∧ P ((field.name, v) :: vs) := by
  simp only [List.forall₂_cons_left_iff]
  constructor
  · rintro ⟨_, ⟨⟨_, v⟩, vs, ⟨rfl, value⟩, others, rfl⟩, holds⟩
    exact ⟨v, value, vs, others, holds⟩
  · rintro ⟨v, value, vs, others, holds⟩
    exact ⟨_, ⟨(field.name, v), vs, ⟨rfl, value⟩, others, rfl⟩, holds⟩

lemma exists_gets_nil {P : List (String × Value) → Prop} :
    (∃ vs, List.Forall₂ (Field.Gets inside [] ms) [] vs ∧ P vs) ↔ P [] := by
  simp

/-- A form of records of which it is known what members give which value. -/
class RecordForm (α : Type) [Form α] where
  fields : List Field
  levels : ℕ
  /-- The members give the value. -/
  GivenBy : α → List (Token × Doc) → Prop
  reader_eq : Form.reader α = .record fields
  unlike : (fields.map Field.name).Nodup
  givenBy_iff {inside : ℕ} {ms : List (Token × Doc)} {a : α} (whole : ∀ m ∈ ms, m.2.Complete)
    (deep : levels < inside) : (∃ vs, List.Forall₂ (Field.Gets inside [] ms) fields vs ∧
      Form.ofValue? (.record vs) = some a) ↔ GivenBy a ms

namespace RecordForm

def names (α : Type) [Form α] [RecordForm α] : List String := (fields α).map Field.name

variable [RecordForm α] (whole : ∀ m ∈ ms, m.2.Complete)

include whole

lemma length_le_of_givenBy (given : GivenBy a ms) (known : name ∈ names α) :
    (named name ms).length ≤ 1 := by
  obtain ⟨field, there, rfl⟩ := List.mem_map.1 known
  obtain ⟨vs, gets, -⟩ := (givenBy_iff whole (Nat.lt_succ_self _)).2 given
  obtain ⟨p, gets⟩ := exists_of_forall₂ gets there
  exact gets.value.length_le

lemma givenBy_of_perm {ms' : List (Token × Doc)} (order : ms.Perm ms') (given : GivenBy a ms) :
    GivenBy a ms' := by
  obtain ⟨vs, gets, means⟩ := (givenBy_iff whole (Nat.lt_succ_self _)).2 given
  refine (givenBy_iff (fun m there => whole m (order.mem_iff.2 there)) (Nat.lt_succ_self _)).1 ?_
  exact ⟨vs, gets.imp fun _ _ => (Field.gets_of_perm order).1, means⟩

end RecordForm

/-- **A record stands for what its members give.** -/
instance [RecordForm α] : TypedForm α where
  levels := RecordForm.levels α + 1
  Stands d a := ∃ ms, d.Lists (RecordForm.names α) ms ∧ Named ms ∧ RecordForm.GivenBy a ms
  reads_iff {depth d a} whole deep := by
    obtain ⟨inside, entered, left⟩ := deeper_of_lt deep
    simp only [Reads, RecordForm.reader_eq, record_iff RecordForm.unlike entered whole]
    constructor
    · rintro ⟨_, ⟨ms, lists, texts, vs, gets, rfl⟩, means⟩
      exact ⟨ms, lists, texts,
        (RecordForm.givenBy_iff (lists.complete whole) left).1 ⟨vs, gets, means⟩⟩
    · rintro ⟨ms, lists, texts, given⟩
      obtain ⟨vs, gets, means⟩ := (RecordForm.givenBy_iff (lists.complete whole) left).2 given
      exact ⟨_, ⟨ms, lists, texts, vs, gets, rfl⟩, means⟩

lemma length_le_of_stands [RecordForm α] (whole : (Doc.record ms .closed).Complete)
    (stands : Stands (.record ms .closed) a) (known : name ∈ RecordForm.names α) :
    (named name ms).length ≤ 1 := by
  obtain ⟨ms', lists, -, given⟩ := stands
  obtain rfl : ms' = ms := by simpa [Doc.Lists, eq_comm] using lists
  exact RecordForm.length_le_of_givenBy (lists.complete whole) given known

/-! ### Texts of records -/

/-- The text of a record with the given members is decoded as what these give, in whatever order
they stand, and not at all if a known name has two values. -/
structure DecodedByName (GivenBy : α → List (Token × Doc) → Prop) (Known : String → Prop)
    (s : String) (ms : List (Token × Doc)) : Prop where
  decoded (a : α) : decode s = .ok a ↔ Named ms ∧ GivenBy a ms
  reordered {s' : String} {ms' : List (Token × Doc)} (order : ms.Perm ms')
    (spelled : (Doc.record ms' .closed).Spelled s') (a : α) : decode s' = .ok a ↔ decode s = .ok a
  refused {name : String} (known : Known name) (twice : 2 ≤ (named name ms).length) :
    ∃ f, (decode s : Except Fault α) = .error f

lemma complete_of_spelled (spelled : (Doc.record ms .closed).Spelled s) :
    ∀ m ∈ ms, m.2.Complete := fun m there => (spelled.complete.members.2 m there).2

lemma refused_of_ne_ok {β : Type} {x : Except Fault β} (none : ∀ b, x ≠ .ok b) :
    ∃ f, x = .error f := by
  cases x with
  | error f => exact ⟨f, rfl⟩
  | ok b => exact absurd rfl (none b)

lemma DecodedByName.of {GivenBy : α → List (Token × Doc) → Prop} {Known : String → Prop}
    (decoded : ∀ {s ms}, (Doc.record ms .closed).Spelled s → ∀ a,
      decode s = .ok a ↔ Named ms ∧ GivenBy a ms)
    (reorder : ∀ {ms ms' a}, (∀ m ∈ ms, m.2.Complete) → ms.Perm ms' → GivenBy a ms → GivenBy a ms')
    (once : ∀ {name a}, (∀ m ∈ ms, m.2.Complete) → GivenBy a ms → Known name →
      (named name ms).length ≤ 1)
    (spelled : (Doc.record ms .closed).Spelled s) : DecodedByName GivenBy Known s ms where
  decoded := decoded spelled
  reordered order spelled' a := by
    rw [decoded spelled, decoded spelled']
    constructor <;> rintro ⟨texts, given⟩
    · exact ⟨named_of_perm order.symm texts,
        reorder (complete_of_spelled spelled') order.symm given⟩
    · exact ⟨named_of_perm order texts, reorder (complete_of_spelled spelled) order given⟩
  refused {name} known twice := refused_of_ne_ok fun a done => by
    have given := ((decoded spelled a).1 done).2
    exact absurd (once (complete_of_spelled spelled) given known) (Nat.not_le_of_lt twice)

theorem decodedByName [RecordForm α] (shallow : RecordForm.levels α + 1 < depthLimit)
    (spelled : (Doc.record ms .closed).Spelled s) :
    DecodedByName (fun a : α => RecordForm.GivenBy a) (· ∈ RecordForm.names α) s ms := by
  refine .of (fun spelled a => ?_) (fun whole order => RecordForm.givenBy_of_perm whole order)
    RecordForm.length_le_of_givenBy spelled
  refine (decode_iff shallow spelled).trans ?_
  simp [Stands, Doc.Lists]

end TorrentHandle.Json
