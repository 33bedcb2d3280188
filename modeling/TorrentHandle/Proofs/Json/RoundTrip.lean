import TorrentHandle.Event.Forms
import TorrentHandle.Proofs.Json.Reading
import TorrentHandle.Settings.Forms
import TorrentHandle.Torrent.Forms

/-!
What is written is read back. A form is lawful if every value that it writes is read by its own
reader and means what was written; the forms of texts, numbers and lists are, and so are those of
records whose members have lawful forms.
-/

namespace TorrentHandle.Json

open TorrentHandle.Text

variable {α : Type} [Form α]

/-- A form that reads back what it writes, with a bound on the levels of what it writes. -/
class LawfulForm (α : Type) [Form α] where
  levels : ℕ
  readBy (a : α) : (Form.toValue a).ReadBy (Form.reader α) levels
  means (a : α) : Form.ofValue? (Form.toValue a) = some a

attribute [simp] LawfulForm.means

lemma decode_render {levels : ℕ} {v : Value} {a : α}
    (readAs : v.ReadAs (Form.reader α) levels (Form.toValue a)) (shallow : levels < depthLimit)
    (means : Form.ofValue? (Form.toValue a) = some a) : decode v.render = .ok a := by
  rw [decode, read, parse_render readAs.within]
  simp only [readAs.reads shallow, if_true, means]

lemma decode_encode_of {levels : ℕ} {a : α}
    (readBy : (Form.toValue a).ReadBy (Form.reader α) levels) (shallow : levels < depthLimit)
    (means : Form.ofValue? (Form.toValue a) = some a) :
    decode (encode a) = .ok a :=
  decode_render (Value.readAs_self.2 readBy) shallow means

theorem decode_encode [LawfulForm α] (shallow : LawfulForm.levels α < depthLimit) (a : α) :
    decode (encode a) = .ok a :=
  decode_encode_of (LawfulForm.readBy a) shallow (LawfulForm.means a)

/-! ### Texts, numbers and lists -/

instance : LawfulForm String := ⟨0, .text, fun _ => rfl⟩

instance : LawfulForm Bool := ⟨0, .bool, fun _ => rfl⟩

instance : LawfulForm (Option String) where
  levels := 0
  readBy s := by
    cases s with
    | none => exact ⟨.null, fun _ => rfl⟩
    | some s => exact ⟨.text s, fun _ => rfl⟩
  means s := by cases s <;> rfl

lemma Value.ReadBy.unsigned {bits n : ℕ} (small : n < Nat.pow 2 bits) (fits : bits ≤ 64) :
    (Value.integer n).ReadBy (.unsigned bits) 0 := by
  have most : Nat.pow 2 bits ≤ Nat.pow 2 64 := Nat.pow_le_pow_right (by decide) fits
  have least : maxUnsigned + 1 = Nat.pow 2 64 := by decide
  exact .integer ⟨by omega, by omega⟩ ⟨by omega, by omega⟩

lemma Value.ReadBy.signed {bits : ℕ} {i : ℤ} (low : -Nat.pow 2 (bits - 1) ≤ i)
    (high : i < Nat.pow 2 (bits - 1)) (fits : bits ≤ 64) :
    (Value.integer i).ReadBy (.signed bits) 0 := by
  have most : Nat.pow 2 (bits - 1) ≤ Nat.pow 2 63 :=
    Nat.pow_le_pow_right (by decide) (by omega)
  have least : minSignedMagnitude = Nat.pow 2 63 := by decide
  have less : minSignedMagnitude ≤ maxUnsigned := by decide
  exact .integer ⟨by omega, by omega⟩ ⟨low, by omega⟩

instance : LawfulForm UInt8 where
  levels := 0
  readBy n := .unsigned n.toNat_lt (by decide)
  means n := by simp [Form.ofValue?, Form.toValue]

instance : LawfulForm UInt32 where
  levels := 0
  readBy n := .unsigned n.toNat_lt (by decide)
  means n := by simp [Form.ofValue?, Form.toValue]

instance : LawfulForm UInt64 where
  levels := 0
  readBy n := .unsigned n.toNat_lt (by decide)
  means n := by simp [Form.ofValue?, Form.toValue]

instance : LawfulForm Int32 where
  levels := 0
  readBy n := .signed n.le_toInt n.toInt_lt (by decide)
  means n := by simp [Form.ofValue?, Form.toValue]

instance : LawfulForm Int64 where
  levels := 0
  readBy n := .signed n.le_toInt n.toInt_lt (by decide)
  means n := by simp [Form.ofValue?, Form.toValue]

lemma ofItems?_map [LawfulForm α] (as : List α) : ofItems? (as.map Form.toValue) = some as := by
  induction as with
  | nil => rfl
  | cons a as ih => simp [ofItems?, ih]

instance [LawfulForm α] : LawfulForm (List α) where
  levels := LawfulForm.levels α + 1
  readBy as := .list fun v inside => by
    obtain ⟨a, -, rfl⟩ := List.mem_map.1 inside
    exact LawfulForm.readBy a
  means as := ofItems?_map as

/-! ### Fields -/

section Fields

variable [LawfulForm α] {levels : ℕ}

lemma Reader.Field.Holds.of (name : String) (a : α) (small : LawfulForm.levels α ≤ levels) :
    (Reader.Field.of α name).Holds levels (name, Form.toValue a) :=
  ⟨rfl, (LawfulForm.readBy a).mono small⟩

lemma Reader.Field.Holds.withDefault (name : String) (fallback a : α)
    (small : LawfulForm.levels α ≤ levels) :
    (Reader.Field.withDefault name fallback).Holds levels (name, Form.toValue a) :=
  ⟨rfl, (LawfulForm.readBy a).mono small⟩

lemma Reader.Field.Takes.of (name : String) (a : α) (small : LawfulForm.levels α ≤ levels) :
    (Reader.Field.of α name).Takes levels (.plain (name, Form.toValue a)) :=
  ⟨rfl, Value.readAs_self.2 ((LawfulForm.readBy a).mono small)⟩

end Fields

end TorrentHandle.Json

namespace TorrentHandle

open TorrentHandle.Json

/-! ### Torrents -/

instance : LawfulForm InfoHash where
  levels := 0
  readBy hash := by
    have means : InfoHash.ofValue? (.text hash.toHex) = some hash := InfoHash.ofHex?_toHex
    exact .accepting (.text _) (congrArg Option.isSome means)
  means hash := InfoHash.ofHex?_toHex

instance : LawfulForm FilePriority where
  levels := 0
  readBy p := .accepting (.unsigned p.value.toNat_lt (by decide)) (by cases p <;> rfl)
  means p := by cases p <;> rfl

instance : LawfulForm Tracker where
  levels := 1
  readBy t := by
    refine .record (by decide) ?_
    repeat refine .cons (.of _ _ (by decide)) ?_
    exact .nil
  means t := by
    delta instFormTracker
    simp

instance : LawfulForm PieceDeadline where
  levels := 1
  readBy d := by
    refine .record (by decide) ?_
    repeat refine .cons (.of _ _ (by decide)) ?_
    exact .nil
  means d := by
    delta instFormPieceDeadline
    simp

instance : LawfulForm FileEntry where
  levels := 1
  readBy f := by
    refine .record (by decide) ?_
    repeat refine .cons (.of _ _ (by decide)) ?_
    exact .nil
  means f := by
    delta instFormFileEntry
    simp

instance : LawfulForm Metadata where
  levels := 3
  readBy m := by
    refine .record (by decide) ?_
    repeat refine .cons (.of _ _ (by decide)) ?_
    exact .nil
  means m := by
    delta instFormMetadata
    simp

/-! ### Events -/

/-- The fields of each kind of event have different names, none of them that of the tag. -/
lemma Event.variants_unlike (kind : String) (fields : List Reader.Field)
    (listed : Event.variants.lookup kind = some fields) : ("type" :: fields.map Reader.Field.name).Nodup := by
  have all : ∀ variant ∈ Event.variants, ("type" :: variant.2.map Reader.Field.name).Nodup := by
    simp only [Event.variants, List.forall_mem_cons]
    decide
  obtain ⟨before, after, split, -⟩ := List.lookup_eq_some_iff.1 listed
  exact all (kind, fields) (by simp [split])

instance : LawfulForm Event where
  levels := 2
  readBy e := by
    cases e <;>
    · refine .tagged Event.variants_unlike rfl ?_
      repeat refine .cons (.of _ _ (by decide)) ?_
      exact .nil
  means e := by
    delta instFormEvent
    cases e <;> simp [Event.members, Event.kind, Event.ofMembers?]

/-! ### Settings -/

lemma LogFormatSetting.ofName?_eq_some {s : String} {f : LogFormatSetting} :
    ofName? s = some f ↔ s = f.name := by
  constructor
  · intro found
    rw [ofName?] at found
    exact (by simpa using List.find?_some found : f.name = s).symm
  · rintro rfl
    cases f <;> rfl

instance : LawfulForm LogFormatSetting where
  levels := 0
  readBy f := .oneOf (by cases f <;> decide)
  means f := by cases f <;> rfl

instance : LawfulForm LoggingSettings where
  levels := 1
  readBy s := by
    refine .record (by decide) ?_
    repeat refine .cons (.withDefault _ _ _ (by decide)) ?_
    exact .nil
  means s := by
    delta instFormLoggingSettings
    simp

instance : LawfulForm EngineSettings where
  levels := 2
  readBy s := by
    refine .record (by decide) ?_
    repeat refine .cons (.withDefault _ _ _ (by decide)) ?_
    exact .nil
  means s := by
    delta instFormEngineSettings
    simp

/-! ### Envelopes and all forms together -/

/-- Only the text of the time has to be read back for the whole envelope to be. -/
lemma Envelope.decode_encode {e : Envelope}
    (kept : Instant.ofText? e.timestamp.render = some e.timestamp) : decode (encode e) = .ok e := by
  have means : Form.ofValue? (Form.toValue e.timestamp) = some e.timestamp := kept
  have time : (Form.toValue e.timestamp).ReadBy (Form.reader Instant) 0 :=
    .accepting (.text _) (congrArg Option.isSome kept)
  have readBy : (Form.toValue e).ReadBy (Form.reader Envelope) 3 := by
    refine .record (by decide) ?_
    refine .cons (.of _ _ (by decide)) (.cons ⟨rfl, time.mono (by decide)⟩ ?_)
    exact .cons (.of _ _ (by decide)) .nil
  refine decode_encode_of readBy (by decide) ?_
  delta instFormEnvelope
  simp [means]

/-- The value is read back from its text, and again from the text of what any of its texts is read
as. -/
def Json.RoundTrips {α : Type} [Form α] (a : α) : Prop :=
  decode (encode a) = .ok a ∧ ∀ s, decode s = .ok a →
    ∃ text, (decode s : Except Fault α).map encode = .ok text ∧ decode text = .ok a

lemma Json.RoundTrips.of {α : Type} [Form α] {a : α} (back : decode (encode a) = .ok a) :
    RoundTrips a := by
  refine ⟨back, fun s read => ⟨encode a, ?_, back⟩⟩
  rw [read]
  rfl

/-- **What is written is read back**, for every form of the core types; an envelope needs that the
text of its time is. -/
theorem forms_round_trip :
    (∀ m : Metadata, RoundTrips m) ∧ (∀ f : FileEntry, RoundTrips f) ∧
    (∀ t : Tracker, RoundTrips t) ∧ (∀ d : PieceDeadline, RoundTrips d) ∧
    (∀ hash : InfoHash, RoundTrips hash) ∧ (∀ e : Event, RoundTrips e) ∧
    (∀ s : EngineSettings, RoundTrips s) ∧ (∀ s : LoggingSettings, RoundTrips s) ∧
    ∀ e : Envelope, Instant.ofText? e.timestamp.render = some e.timestamp → RoundTrips e := by
  refine ⟨?_, ?_, ?_, ?_, ?_, ?_, ?_, ?_, fun e kept => .of (Envelope.decode_encode kept)⟩
  all_goals exact fun a => .of (Json.decode_encode (by decide) a)

theorem sample_forms_round_trip :
    Instant.ofText? (Instant.mk 20000 3600 5000000).render = some ⟨20000, 3600, 5000000⟩ ∧
    RoundTrips (Envelope.mk 18446744073709551615 ⟨20000, 3600, 5000000⟩
      (.metadataReceived (-9223372036854775808) "\"b\" \\ \n \x01")) := by
  have kept : Instant.ofText? (Instant.mk 20000 3600 5000000).render =
      some ⟨20000, 3600, 5000000⟩ := by decide +kernel
  exact ⟨kept, forms_round_trip.2.2.2.2.2.2.2.2 _ kept⟩

end TorrentHandle
