import TorrentHandle.Proofs.Json.Members
import TorrentHandle.Proofs.Json.Tree

/-!
Readers on the trees of values: when a reader gives the value that the tree is of. For a record
each member is to be read by the field of its name, in whatever order the members stand.
-/

namespace TorrentHandle.Json

variable {levels depth : ℕ} {r : Reader} {v : Value}

/-- A value of so many levels that the reader gives back where more levels are left. -/
structure Value.ReadBy (r : Reader) (levels : ℕ) (v : Value) : Prop where
  within : v.Within levels
  reads : ∀ {depth}, levels < depth → r depth v.doc = .ok v

/-- A value of so many levels that the reader takes for another one where more levels are left. -/
structure Value.ReadAs (r : Reader) (levels : ℕ) (v w : Value) : Prop where
  within : v.Within levels
  reads : ∀ {depth}, levels < depth → r depth v.doc = .ok w

lemma Value.readAs_self : v.ReadAs r levels v ↔ v.ReadBy r levels :=
  ⟨fun h => ⟨h.within, h.reads⟩, fun h => ⟨h.within, h.reads⟩⟩

namespace Value.ReadBy

lemma mono {levels' : ℕ} (readBy : v.ReadBy r levels) (le : levels ≤ levels') :
    v.ReadBy r levels' where
  within := readBy.within.mono le
  reads deep := readBy.reads (Nat.lt_of_le_of_lt le deep)

lemma text (s : String) : (Value.text s).ReadBy .text 0 := ⟨.text s, fun _ => rfl⟩

lemma bool (b : Bool) : (Value.bool b).ReadBy .bool 0 := ⟨.bool b, fun _ => rfl⟩

lemma integer {low high i : ℤ} (fits : Fits i) (inside : low ≤ i ∧ i ≤ high) :
    (Value.integer i).ReadBy (.integer low high) 0 := by
  refine ⟨.integer fits, fun _ => ?_⟩
  rw [Value.doc]
  exact if_pos inside

lemma accepting {test : Value → Bool} (readBy : v.ReadBy r levels) (passes : test v) :
    v.ReadBy (r.accepting test) levels := by
  refine ⟨readBy.within, fun deep => ?_⟩
  simp only [Reader.accepting, readBy.reads deep, passes, if_true]

lemma oneOf {names : List String} {s : String} (known : s ∈ names) :
    (Value.text s).ReadBy (.oneOf names) 0 :=
  ⟨.text s, fun _ => if_pos known⟩

end Value.ReadBy

/-! ### Lists -/

theorem Value.ReadAs.list {vs ws : List Value}
    (each : List.Forall₂ (Value.ReadAs r levels) vs ws) :
    (Value.list vs).ReadAs r.list (levels + 1) (.list ws) := by
  have within : ∀ v ∈ vs, v.Within levels :=
    ((List.forall₂_and_left vs ws).1 (each.imp fun _ _ readAs => ⟨readAs.within, readAs⟩)).1
  refine ⟨.list within, fun deep => ?_⟩
  obtain ⟨inside, entered, left⟩ := deeper_of_lt deep
  rw [Value.doc_list, Reader.list_items entered, map_eq_ok]
  refine ⟨ws, Reader.items_eq_ok.2 (List.forall₂_map_left_iff.2 ?_), rfl⟩
  exact each.imp fun _ _ readAs => readAs.reads left

lemma Value.ReadBy.list {items : List Value} (each : ∀ v ∈ items, v.ReadBy r levels) :
    (Value.list items).ReadBy r.list (levels + 1) :=
  readAs_self.1 (.list (List.forall₂_same.2 fun v there => readAs_self.2 (each v there)))

/-! ### Members -/

open Reader

/-- The member is what the field is for. -/
structure Reader.Field.Holds (levels : ℕ) (field : Field) (m : String × Value) : Prop where
  name : field.name = m.1
  value : m.2.ReadBy field.reader levels

variable {fields : List Field} {ms : List (String × Value)}

/-- A member of a record: its name, its value as it is written, and what that is read as. -/
structure Reading where
  name : String
  written : Value
  read : Value

namespace Reading

def member (p : Reading) : String × Value := (p.name, p.written)

def result (p : Reading) : String × Value := (p.name, p.read)

def doc (p : Reading) : Token × Doc := (.text p.name, p.written.doc)

/-- A member that is read as it is written. -/
def plain (m : String × Value) : Reading := ⟨m.1, m.2, m.2⟩

lemma map_member_plain (ms : List (String × Value)) : (ms.map plain).map member = ms :=
  List.map_map.trans (List.map_id ms)

lemma map_result_plain (ms : List (String × Value)) : (ms.map plain).map result = ms :=
  List.map_map.trans (List.map_id ms)

lemma named_doc {ps : List Reading} {p : Reading} (names : (ps.map name).Nodup) (inside : p ∈ ps) :
    named p.name (ps.map doc) = [p.written.doc] := by
  induction ps with
  | nil => cases inside
  | cons q ps ih =>
    rw [List.map_cons, List.nodup_cons] at names
    obtain rfl | inside := List.mem_cons.1 inside
    · rw [List.map_cons, doc, named_cons_self, named_eq_nil]
      rintro _ there same
      obtain ⟨p', here, rfl⟩ := List.mem_map.1 there
      exact names.1 (List.mem_map.2 ⟨p', here, Token.text.inj same⟩)
    · have other : q.name ≠ p.name := by
        rintro same
        exact names.1 (same ▸ List.mem_map_of_mem inside)
      rw [List.map_cons, doc, named_cons_of_ne other, ih names.2 inside]

lemma named_docs (ps : List Reading) : Named (ps.map doc) :=
  List.forall_mem_map.2 fun p _ => ⟨p.name, rfl⟩

end Reading

/-- The member is what the field is for, and is read by it. -/
structure Reader.Field.Takes (levels : ℕ) (field : Field) (p : Reading) : Prop where
  name : field.name = p.name
  value : p.written.ReadAs field.reader levels p.read

variable {ps ps' : List Reading}

section Takes

variable (each : List.Forall₂ (Field.Takes levels) fields ps)

include each

lemma map_name_eq : fields.map Field.name = ps.map Reading.name := by
  induction each with
  | nil => rfl
  | cons first _ ih => rw [List.map_cons, List.map_cons, first.name, ih]

lemma exists_field {p : Reading} (inside : p ∈ ps) : ∃ field ∈ fields, field.Takes levels p := by
  induction each with
  | nil => cases inside
  | @cons field p' fields ps first _ ih =>
    obtain rfl | inside := List.mem_cons.1 inside
    · exact ⟨field, List.mem_cons_self .., first⟩
    · obtain ⟨field, there, takes⟩ := ih inside
      exact ⟨field, List.mem_cons_of_mem _ there, takes⟩

theorem gets_of_takes {all : List Reading} (names : (all.map Reading.name).Nodup)
    (inside : ∀ p ∈ ps, p ∈ all) (deep : levels < depth) :
    List.Forall₂ (Field.Gets depth [] (all.map Reading.doc)) fields (ps.map Reading.result) := by
  refine List.forall₂_map_right_iff.2 (List.forall₂_iff_zip.2 ⟨each.length_eq, fun there => ?_⟩)
  have takes := List.forall₂_zip each there
  refine ⟨takes.name.symm, ?_⟩
  rw [takes.name, Reading.named_doc names (inside _ (List.of_mem_zip there).2)]
  exact .read (takes.value.reads deep)

lemma within_of_takes : ∀ p ∈ ps, p.written.Within levels := by
  intro p there
  obtain ⟨field, -, takes⟩ := exists_field each there
  exact takes.value.within

end Takes

lemma takes_of_holds (each : List.Forall₂ (Field.Holds levels) fields ms) :
    List.Forall₂ (Field.Takes levels) fields (ms.map Reading.plain) :=
  List.forall₂_map_right_iff.2 <| each.imp fun _ _ holds =>
    ⟨holds.name, Value.readAs_self.2 holds.value⟩

/-! ### Records -/

theorem Value.ReadAs.record (names : (fields.map Field.name).Nodup)
    (each : List.Forall₂ (Field.Takes levels) fields ps) (order : ps'.Perm ps) :
    (Value.record (ps'.map Reading.member)).ReadAs (.record fields) (levels + 1)
      (.record (ps.map Reading.result)) := by
  have within : (Value.record (ps'.map Reading.member)).Within (levels + 1) := by
    refine .record fun m there => ?_
    obtain ⟨p, inside, rfl⟩ := List.mem_map.1 there
    exact within_of_takes each p (order.mem_iff.1 inside)
  refine ⟨within, fun deep => ?_⟩
  obtain ⟨inside, entered, left⟩ := deeper_of_lt deep
  have docs : (ps'.map Reading.member).map (fun m => (Token.text m.1, m.2.doc)) =
      ps'.map Reading.doc := List.map_map
  have whole : (Value.record (ps'.map Reading.member)).doc.Complete := ⟨_, within.storable.within⟩
  have names' : (ps'.map Reading.name).Nodup := by
    rw [(order.map Reading.name).nodup_iff, ← map_name_eq each]
    exact names
  have gets := gets_of_takes each names' (fun p => order.mem_iff.2) left
  rw [Value.doc_record, docs] at whole ⊢
  exact (record_iff names entered whole).2 ⟨_, .inl rfl, Reading.named_docs ps', _, gets, rfl⟩

/-- A record whose members stand in another order is read as if they stood in that of the fields. -/
lemma Value.ReadAs.reorder {ms' : List (String × Value)} (names : (fields.map Field.name).Nodup)
    (each : List.Forall₂ (Field.Holds levels) fields ms) (order : ms'.Perm ms) :
    (Value.record ms').ReadAs (.record fields) (levels + 1) (.record ms) := by
  have read := ReadAs.record names (takes_of_holds each) (order.map Reading.plain)
  rwa [Reading.map_member_plain, Reading.map_result_plain] at read

theorem Value.ReadBy.record (names : (fields.map Field.name).Nodup)
    (each : List.Forall₂ (Field.Holds levels) fields ms) :
    (Value.record ms).ReadBy (.record fields) (levels + 1) :=
  readAs_self.1 (.reorder names each (List.Perm.refl ms))

theorem Value.ReadBy.tagged {tagName : String} {variants : List (String × List Field)}
    {kind : String} (unlike : ∀ kind fields, variants.lookup kind = some fields →
      (tagName :: fields.map Field.name).Nodup)
    (listed : variants.lookup kind = some fields)
    (each : List.Forall₂ (Field.Holds levels) fields ms) :
    (Value.record ((tagName, .text kind) :: ms)).ReadBy (.tagged tagName variants)
      (levels + 1) := by
  have takes := takes_of_holds each
  have within : ∀ m ∈ (tagName, Value.text kind) :: ms, m.2.Within levels :=
    List.forall_mem_cons.2 ⟨.text kind, fun m there =>
      within_of_takes takes (Reading.plain m) (List.mem_map_of_mem there)⟩
  let all := ((tagName, Value.text kind) :: ms).map Reading.plain
  have names : (all.map Reading.name).Nodup := by
    have names := unlike kind fields listed
    rwa [map_name_eq takes] at names
  have whole : (Value.record ((tagName, .text kind) :: ms)).doc.Complete :=
    ⟨_, (Value.Within.record within).storable.within⟩
  have docs : ((tagName, Value.text kind) :: ms).map (fun m => (Token.text m.1, m.2.doc)) =
      all.map Reading.doc := by
    rw [List.map_map]
    rfl
  refine ⟨.record within, fun deep => ?_⟩
  obtain ⟨inside, entered, left⟩ := deeper_of_lt deep
  have tag : named tagName (all.map Reading.doc) = [.text kind] :=
    Reading.named_doc names (List.mem_cons_self ..)
  have gets := gets_of_takes takes names (fun p => List.mem_cons_of_mem _) left
  rw [Reading.map_result_plain] at gets
  have stored : ∀ m ∈ all.map Reading.doc, m.1 ≠ .text tagName → m.2.storeFault? inside = none := by
    rw [← docs]
    intro _ there _
    obtain ⟨m, here, rfl⟩ := List.mem_map.1 there
    exact storeFault?_doc (within m here) left
  rw [Value.doc_record, docs] at whole ⊢
  exact (tagged_iff entered unlike whole.members.2).2
    ⟨Reading.named_docs all, stored, kind, tag, fields, listed, ms, gets, rfl⟩

end TorrentHandle.Json
