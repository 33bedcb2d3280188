import Mathlib.Tactic.MkIffOfInductiveProp
import TorrentHandle.Proofs.Json.Typed

/-!
Objects of the core types. Each type says what its members have to be: those of the settings may be
missing, those of all other types may not. An object is decoded as what its members give, whatever
their order and whatever other members stand between them.
-/

namespace TorrentHandle

open TorrentHandle.Json TorrentHandle.Json.Reader TorrentHandle.Json.TypedForm

variable {ms : List (Token × Doc)} {s name : String}

/-! ### Hashes and formats -/

instance : TypedForm InfoHash where
  levels := 0
  Stands d hash := ∃ s, d = .text s ∧ InfoHash.ofHex? s = some hash
  reads_iff {depth d hash} _ _ := by
    cases d with
    | text s =>
      cases hex : InfoHash.ofHex? s <;>
        simp [Reads, Form.reader, Form.ofValue?, Reader.accepting, Reader.text, InfoHash.ofValue?, hex]
    | _ => simp [Reads, Form.reader, Reader.accepting, Reader.text]

lemma LogFormatSetting.name_mem (f : LogFormatSetting) : f.name ∈ all.map (·.name) := by
  cases f <;> decide

/-- A format by its name alone, or as a record of one member. -/
instance : TypedForm LogFormatSetting where
  levels := 1
  Stands d f := d = .text f.name ∨ d = .record [(.text f.name, .null)] .closed
  reads_iff {depth d f} whole deep := by
    obtain ⟨inside, entered, -⟩ := deeper_of_lt deep
    simp only [Reads, Form.reader, oneOf_iff whole entered]
    constructor
    · rintro ⟨_, ⟨s, known, written, rfl⟩, means⟩
      obtain rfl := LogFormatSetting.ofName?_eq_some.1 means
      exact written
    · intro written
      exact ⟨_, ⟨f.name, f.name_mem, written, rfl⟩, LogFormatSetting.ofName?_eq_some.2 rfl⟩

/-! ### Fields -/

lemma name_of {α : Type} [Form α] : (Field.of α name).name = name := rfl

lemma name_withDefault {α : Type} [Form α] {a : α} : (Field.withDefault name a).name = name := rfl

/-! ### Torrents -/

@[mk_iff]
structure Tracker.GivenBy (t : Tracker) (ms : List (Token × Doc)) : Prop where
  url : Given "url" ms t.url
  tier : Given "tier" ms t.tier
  failLimit : Given "fail_limit" ms t.failLimit

instance : RecordForm Tracker where
  fields := [.of String "url", .of UInt8 "tier", .of UInt8 "fail_limit"]
  levels := 0
  GivenBy := Tracker.GivenBy
  reader_eq := rfl
  unlike := by decide
  givenBy_iff {_ _ t} whole deep := by
    simp (disch := decide) only [exists_gets_cons, exists_gets_nil, name_of, Tracker.givenBy_iff,
      ← filled_of whole deep]
    delta instFormTracker
    cases t
    simp only [bind, Option.bind_eq_some_iff, Option.some.injEq, Tracker.mk.injEq]
    grind

@[mk_iff]
structure PieceDeadline.GivenBy (d : PieceDeadline) (ms : List (Token × Doc)) : Prop where
  piece : Given "piece" ms d.piece
  milliseconds : Given "deadline_ms" ms d.milliseconds

instance : RecordForm PieceDeadline where
  fields := [.of UInt32 "piece", .of UInt32 "deadline_ms"]
  levels := 0
  GivenBy := PieceDeadline.GivenBy
  reader_eq := rfl
  unlike := by decide
  givenBy_iff {_ _ d} whole deep := by
    simp (disch := decide) only [exists_gets_cons, exists_gets_nil, name_of, PieceDeadline.givenBy_iff,
      ← filled_of whole deep]
    delta instFormPieceDeadline
    cases d
    simp only [bind, Option.bind_eq_some_iff, Option.some.injEq, PieceDeadline.mk.injEq]
    grind

@[mk_iff]
structure FileEntry.GivenBy (f : FileEntry) (ms : List (Token × Doc)) : Prop where
  index : Given "index" ms f.index
  name : Given "name" ms f.name
  path : Given "path_in_torrent" ms f.path
  offset : Given "offset" ms f.offset
  size : Given "size" ms f.size

instance : RecordForm FileEntry where
  fields := [.of UInt32 "index", .of String "name", .of String "path_in_torrent", .of UInt64 "offset",
    .of UInt64 "size"]
  levels := 0
  GivenBy := FileEntry.GivenBy
  reader_eq := rfl
  unlike := by decide
  givenBy_iff {_ _ f} whole deep := by
    simp (disch := decide) only [exists_gets_cons, exists_gets_nil, name_of, FileEntry.givenBy_iff,
      ← filled_of whole deep]
    delta instFormFileEntry
    cases f
    simp only [bind, Option.bind_eq_some_iff, Option.some.injEq, FileEntry.mk.injEq]
    grind

@[mk_iff]
structure Metadata.GivenBy (m : Metadata) (ms : List (Token × Doc)) : Prop where
  name : Given "name" ms m.name
  infoHash : Given "info_hash" ms m.infoHash
  totalSize : Given "total_size" ms m.totalSize
  pieceLength : Given "piece_length" ms m.pieceLength
  pieceCount : Given "num_pieces" ms m.pieceCount
  files : Given "files" ms m.files

instance : RecordForm Metadata where
  fields := [.of String "name", .of InfoHash "info_hash", .of UInt64 "total_size", .of UInt32
    "piece_length", .of UInt32 "num_pieces", .of (List FileEntry) "files"]
  levels := 2
  GivenBy := Metadata.GivenBy
  reader_eq := rfl
  unlike := by decide
  givenBy_iff {_ _ m} whole deep := by
    simp (disch := decide) only [exists_gets_cons, exists_gets_nil, name_of, Metadata.givenBy_iff,
      ← filled_of whole deep]
    delta instFormMetadata
    cases m
    simp only [bind, Option.bind_eq_some_iff, Option.some.injEq, Metadata.mk.injEq]
    grind

/-! ### Settings -/

/-- The members give the logging settings, those that are missing by their defaults. -/
@[mk_iff]
structure LoggingSettings.GivenBy (s : LoggingSettings) (ms : List (Token × Doc)) : Prop where
  level : GivenOr "info" "level" ms s.level
  format : GivenOr .auto "format" ms s.format

instance : RecordForm LoggingSettings where
  fields :=
    let defaults : LoggingSettings := {}
    [.withDefault "level" defaults.level,
    .withDefault "format" defaults.format]
  levels := 1
  GivenBy := LoggingSettings.GivenBy
  reader_eq := rfl
  unlike := by decide
  givenBy_iff {_ _ s} whole deep := by
    simp (disch := decide) only [exists_gets_cons, exists_gets_nil, name_withDefault,
      LoggingSettings.givenBy_iff, ← filled_withDefault whole deep]
    delta instFormLoggingSettings
    cases s
    simp only [bind, Option.bind_eq_some_iff, Option.some.injEq, LoggingSettings.mk.injEq]
    grind

/-- The members give the settings, those that are missing by their defaults. -/
@[mk_iff]
structure EngineSettings.GivenBy (s : EngineSettings) (ms : List (Token × Doc)) : Prop where
  peerFingerprint : GivenOr "-AL4000-" "peer_fingerprint" ms s.peerFingerprint
  userAgent : GivenOr "ani_libtorrent/3.0.0" "user_agent" ms s.userAgent
  handshakeClientVersion : GivenOr (some "3.0.0") "handshake_client_version" ms s.handshakeClientVersion
  downloadRateLimit : GivenOr 0 "download_rate_limit_bytes" ms s.downloadRateLimit
  uploadRateLimit : GivenOr 0 "upload_rate_limit_bytes" ms s.uploadRateLimit
  shareRatioLimit : GivenOr 200 "share_ratio_limit" ms s.shareRatioLimit
  defaultTrackers : GivenOr [] "default_trackers" ms s.defaultTrackers
  defaultTrackerFailLimit : GivenOr 0 "default_tracker_fail_limit" ms s.defaultTrackerFailLimit
  logging : GivenOr {} "logging" ms s.logging

instance : RecordForm EngineSettings where
  fields :=
    let defaults : EngineSettings := {}
    [.withDefault "peer_fingerprint" defaults.peerFingerprint,
    .withDefault "user_agent" defaults.userAgent,
    .withDefault "handshake_client_version" defaults.handshakeClientVersion,
    .withDefault "download_rate_limit_bytes" defaults.downloadRateLimit,
    .withDefault "upload_rate_limit_bytes" defaults.uploadRateLimit,
    .withDefault "share_ratio_limit" defaults.shareRatioLimit,
    .withDefault "default_trackers" defaults.defaultTrackers,
    .withDefault "default_tracker_fail_limit" defaults.defaultTrackerFailLimit,
    .withDefault "logging" defaults.logging]
  levels := 2
  GivenBy := EngineSettings.GivenBy
  reader_eq := rfl
  unlike := by decide
  givenBy_iff {_ _ s} whole deep := by
    simp (disch := decide) only [exists_gets_cons, exists_gets_nil, name_withDefault,
      EngineSettings.givenBy_iff, ← filled_withDefault whole deep]
    delta instFormEngineSettings
    cases s
    simp only [bind, Option.bind_eq_some_iff, Option.some.injEq, EngineSettings.mk.injEq]
    grind

/-! ### Events -/

def Event.GivenBy (e : Event) (ms : List (Token × Doc)) : Prop :=
  named "type" ms = [.text e.kind] ∧ match e with
    | .statusUpdated handle state paused bytesDownloaded bytesTotal =>
      Given "handle_id" ms handle ∧ Given "state" ms state ∧ Given "paused" ms paused ∧
        Given "bytes_downloaded" ms bytesDownloaded ∧ Given "bytes_total" ms bytesTotal
    | .resumeDataSaved handle payload => Given "handle_id" ms handle ∧ Given "payload" ms payload
    | .fileProgress handle bytesPerFile =>
      Given "handle_id" ms handle ∧ Given "bytes_per_file" ms bytesPerFile
    | .stateChanged handle state paused =>
      Given "handle_id" ms handle ∧ Given "state" ms state ∧ Given "paused" ms paused
    | .metadataReceived handle name => Given "handle_id" ms handle ∧ Given "name" ms name
    | .torrentRemoved handle => Given "handle_id" ms handle

lemma Event.kind_of_members {kind : String} {values : List Value} {e : Event}
    (means : Event.ofMembers? kind values = some e) : kind = e.kind := by
  unfold Event.ofMembers? at means
  split at means
  case h_7 => cases means
  all_goals
    simp only [bind, Option.bind_eq_some_iff, Option.some.injEq] at means
    grind [Event.kind]

/-- What the fields of an event get is the event if the members give it. -/
lemma Event.givenBy_iff {inside : ℕ} {e : Event} (whole : ∀ m ∈ ms, m.2.Complete)
    (deep : 1 < inside) :
    (∃ kind, named "type" ms = [.text kind] ∧ ∃ fields, Event.variants.lookup kind = some fields ∧
      ∃ vs, List.Forall₂ (Field.Gets inside [] ms) fields vs ∧
        Event.ofMembers? kind (vs.map (·.2)) = some e) ↔ e.GivenBy ms := by
  have known : (∃ kind, named "type" ms = [.text kind] ∧
      ∃ fields, Event.variants.lookup kind = some fields ∧
        ∃ vs, List.Forall₂ (Field.Gets inside [] ms) fields vs ∧
          Event.ofMembers? kind (vs.map (·.2)) = some e) ↔ named "type" ms = [.text e.kind] ∧
      ∃ fields, Event.variants.lookup e.kind = some fields ∧
        ∃ vs, List.Forall₂ (Field.Gets inside [] ms) fields vs ∧
          Event.ofMembers? e.kind (vs.map (·.2)) = some e := by
    constructor
    · rintro ⟨kind, tag, fields, listed, vs, gets, means⟩
      obtain rfl := Event.kind_of_members means
      exact ⟨tag, fields, listed, vs, gets, means⟩
    · exact fun ⟨tag, rest⟩ => ⟨e.kind, tag, rest⟩
  rw [known]
  unfold Event.GivenBy
  refine and_congr_right fun _ => ?_
  cases e <;> simp (disch := decide) only [← filled_of whole deep]
  all_goals
    simp [Event.variants, Event.kind, List.lookup_cons, exists_gets_cons, name_of,
      Event.ofMembers?, Option.bind_eq_some_iff, -Bool.exists_bool]
  all_goals grind

lemma Event.decode_iff {e : Event} (spelled : (Doc.record ms .closed).Spelled s) :
    decode s = .ok e ↔
      Named ms ∧ (∀ m ∈ ms, m.2.Storable (depthLimit - 2)) ∧ e.GivenBy ms := by
  have whole := complete_of_spelled spelled
  have entered : deeper depthLimit = .ok (depthLimit - 1) := rfl
  have shallow : 1 < depthLimit - 1 := by decide
  rw [decode_iff_reads spelled]
  simp only [Reads, Form.reader, tagged_iff entered variants_unlike spelled.complete.members.2]
  constructor
  · rintro ⟨_, ⟨texts, stored, kind, tag, fields, listed, vs, gets, rfl⟩, means⟩
    have given := (givenBy_iff whole shallow).1 ⟨kind, tag, fields, listed, vs, gets, means⟩
    refine ⟨texts, fun m there => ?_, given⟩
    by_cases isTag : m.1 = .text "type"
    · have value : m.2 ∈ named "type" ms := mem_named.2 (isTag ▸ there)
      rw [tag, List.mem_singleton] at value
      exact value ▸ Doc.storable_text kind
    · exact (storeFault?_eq_none (whole m there)).1 (stored m there isTag)
  · rintro ⟨texts, storable, given⟩
    obtain ⟨kind, tag, fields, listed, vs, gets, means⟩ := (givenBy_iff whole shallow).2 given
    have stored : ∀ m ∈ ms, m.1 ≠ .text "type" → m.2.storeFault? (depthLimit - 1) = none :=
      fun m there _ => (storeFault?_eq_none (whole m there)).2 (storable m there)
    exact ⟨_, ⟨texts, stored, kind, tag, fields, listed, vs, gets, rfl⟩, means⟩

/-- The names that an event has: that of the tag, and those of the fields of its kind. -/
def Event.Knows (ms : List (Token × Doc)) (name : String) : Prop :=
  name = "type" ∨ ∃ kind fields, named "type" ms = [.text kind] ∧
    Event.variants.lookup kind = some fields ∧ name ∈ fields.map Field.name

lemma Event.decodedByName (spelled : (Doc.record ms .closed).Spelled s) :
    DecodedByName (fun (e : Event) ms =>
      (∀ m ∈ ms, m.2.Storable (depthLimit - 2)) ∧ e.GivenBy ms) (Event.Knows ms) s ms := by
  refine .of (fun spelled e => Event.decode_iff spelled) ?_ ?_ spelled
  · rintro ms ms' e whole order ⟨storable, given⟩
    have storable' : ∀ m ∈ ms', m.2.Storable (depthLimit - 2) :=
      fun m there => storable m (order.mem_iff.2 there)
    have whole' : ∀ m ∈ ms', m.2.Complete := fun m there => whole m (order.mem_iff.2 there)
    obtain ⟨kind, tag, fields, listed, vs, gets, means⟩ :=
      (givenBy_iff whole (Nat.lt_succ_self _)).2 given
    have tag' : named "type" ms' = [.text kind] := by
      have order' : (named "type" ms).Perm (named "type" ms') := order.filterMap _
      rw [tag] at order'
      exact (List.singleton_perm.1 order').symm
    refine ⟨storable', (givenBy_iff whole' (Nat.lt_succ_self _)).1 ?_⟩
    exact ⟨kind, tag', fields, listed, vs, gets.imp fun _ _ => (Field.gets_of_perm order).1, means⟩
  · rintro name e whole ⟨-, given⟩ known
    obtain ⟨kind, tag, fields, listed, vs, gets, -⟩ :=
      (givenBy_iff whole (Nat.lt_succ_self _)).2 given
    obtain rfl | ⟨kind', fields', tag', listed', there⟩ := known
    · rw [tag]
      exact Nat.le_refl _
    · obtain ⟨rfl⟩ : kind' = kind := by simpa using tag'.symm.trans tag
      obtain rfl := Option.some.inj (listed'.symm.trans listed)
      obtain ⟨field, inside, rfl⟩ := List.mem_map.1 there
      obtain ⟨p, gets⟩ := exists_of_forall₂ gets inside
      exact gets.value.length_le

/-! ### Objects -/

lemma version_of_null {version : Option String} (stands : Stands .null version) :
    version = none := by
  cases version with
  | none => rfl
  | some s => cases stands

/-- **Objects are decoded by the names of their members.** What the settings, the logging settings,
metadata, a file, a tracker, a deadline and an event are decoded as depends only on the values that
each name has, in whatever order these stand and whatever else stands between them. Members of the
settings that are missing have their defaults, all others have to be there. Among the values of an
event none may be beyond what can be stored. No name that is known may have two values, in the
object itself or in the objects within it. -/
theorem objects_decoded_by_name (spelled : (Doc.record ms .closed).Spelled s) :
    DecodedByName EngineSettings.GivenBy (· ∈ RecordForm.names EngineSettings) s ms ∧
    DecodedByName LoggingSettings.GivenBy (· ∈ RecordForm.names LoggingSettings) s ms ∧
    DecodedByName Metadata.GivenBy (· ∈ RecordForm.names Metadata) s ms ∧
    DecodedByName FileEntry.GivenBy (· ∈ RecordForm.names FileEntry) s ms ∧
    DecodedByName Tracker.GivenBy (· ∈ RecordForm.names Tracker) s ms ∧
    DecodedByName PieceDeadline.GivenBy (· ∈ RecordForm.names PieceDeadline) s ms ∧
    DecodedByName (fun (e : Event) ms =>
      (∀ m ∈ ms, m.2.Storable (depthLimit - 2)) ∧ e.GivenBy ms) (Event.Knows ms) s ms ∧
    (∀ settings : EngineSettings, decode s = .ok settings →
      (named "handshake_client_version" ms = [.null] → settings.handshakeClientVersion = none) ∧
      (named "handshake_client_version" ms = [] →
        settings.handshakeClientVersion = some "3.0.0")) ∧
    (∀ ls name, named "logging" ms = [.record ls .closed] →
      name ∈ RecordForm.names LoggingSettings → 2 ≤ (named name ls).length →
        ∃ f, (decode s : Except Fault EngineSettings) = .error f) ∧
    ∀ files fs name, named "files" ms = [.list files .closed] → .record fs .closed ∈ files →
      name ∈ RecordForm.names FileEntry → 2 ≤ (named name fs).length →
        ∃ f, (decode s : Except Fault Metadata) = .error f := by
  have settings : DecodedByName EngineSettings.GivenBy _ s ms := decodedByName (by decide) spelled
  have metadata : DecodedByName Metadata.GivenBy _ s ms := decodedByName (by decide) spelled
  have whole := complete_of_spelled spelled
  refine ⟨settings, decodedByName (by decide) spelled, metadata, decodedByName (by decide) spelled,
    decodedByName (by decide) spelled, decodedByName (by decide) spelled,
    Event.decodedByName spelled, fun a done => ⟨fun null => ?_, fun absent => ?_⟩, ?_, ?_⟩
  · obtain ⟨absent, -⟩ | ⟨d, value, stands⟩ := ((settings.decoded a).1 done).2.handshakeClientVersion
    · exact nomatch absent.symm.trans null
    · obtain rfl : d = .null := by simpa using value.symm.trans null
      exact version_of_null stands
  · obtain ⟨-, value⟩ | ⟨d, value, -⟩ := ((settings.decoded a).1 done).2.handshakeClientVersion
    · exact value
    · exact nomatch absent.symm.trans value
  · intro ls name value known twice
    refine refused_of_ne_ok fun a done => ?_
    obtain ⟨absent, -⟩ | ⟨d, value', stands⟩ := ((settings.decoded a).1 done).2.logging
    · exact nomatch absent.symm.trans value
    · obtain rfl : d = .record ls .closed := by simpa using value'.symm.trans value
      have within := whole _ (mem_named.1 (value ▸ List.mem_singleton_self _))
      exact absurd (length_le_of_stands within stands known) (Nat.not_le_of_lt twice)
  · intro files fs name value there known twice
    refine refused_of_ne_ok fun a done => ?_
    obtain ⟨d, value', ds, listed, each⟩ := ((metadata.decoded a).1 done).2.files
    obtain rfl : d = .list files .closed := by simpa using value'.symm.trans value
    obtain rfl : files = ds := by simpa using listed
    have within := whole _ (mem_named.1 (value ▸ List.mem_singleton_self _))
    obtain ⟨f, stands⟩ := exists_of_forall₂ each there
    exact absurd (length_le_of_stands (within.items.2 _ there) stands known)
      (Nat.not_le_of_lt twice)

theorem sample_settings_decoded_by_name :
    let s := "\x7b\"y\":[],\"logging\":\x7b\"x\":1,\"level\":\"warn\"\x7d," ++
      "\"handshake_client_version\":null\x7d"
    let ms := [(Token.text "y", Doc.list [] .closed),
      (.text "logging", .record [(.text "x", .number (.integer 1)), (.text "level", .text "warn")]
        .closed),
      (.text "handshake_client_version", .null)]
    (Doc.record ms .closed).Spelled s ∧ decode s = .ok ({
      handshakeClientVersion := none
      logging := { level := "warn" } } : EngineSettings) := by
  intro s ms
  let v := Value.record [("y", .list []),
    ("logging", .record [("x", .integer 1), ("level", .text "warn")]),
    ("handshake_client_version", .null)]
  have within : v.Within 2 := by
    refine .record (List.forall_mem_cons.2 ⟨.list (List.forall_mem_nil _), ?_⟩)
    refine List.forall_mem_cons.2 ⟨.record ?_, List.forall_mem_singleton.2 .null⟩
    exact List.forall_mem_cons.2 ⟨.integer ⟨by decide, by decide⟩, List.forall_mem_singleton.2 (.text _)⟩
  have text : v.render = s := by decide +kernel
  have tree : v.doc = .record ms .closed := rfl
  have spelled : (Doc.record ms .closed).Spelled s := text ▸ tree ▸ spelled_render within
  refine ⟨spelled, ((objects_decoded_by_name spelled).1.decoded _).2 ⟨?_, ?_⟩⟩
  · simp [Named, ms]
  · exact {
      peerFingerprint := .inl ⟨rfl, rfl⟩
      userAgent := .inl ⟨rfl, rfl⟩
      handshakeClientVersion := .inr ⟨.null, rfl, rfl⟩
      downloadRateLimit := .inl ⟨rfl, rfl⟩
      uploadRateLimit := .inl ⟨rfl, rfl⟩
      shareRatioLimit := .inl ⟨rfl, rfl⟩
      defaultTrackers := .inl ⟨rfl, rfl⟩
      defaultTrackerFailLimit := .inl ⟨rfl, rfl⟩
      logging := .inr ⟨_, rfl, _, .inl rfl, by simp [Named],
        { level := .inr ⟨_, rfl, rfl⟩, format := .inl ⟨rfl, rfl⟩ }⟩ }

/-- An event is stored before it is read, and escapes that stand for no character cannot be: the
event is refused although it has all its members. -/
theorem lone_surrogate_refused :
    let s := "\x7b\"x\":\"\\ud800\",\"type\":\"torrent_removed\",\"handle_id\":1\x7d"
    let ms := [(Token.text "x", Doc.loneSurrogate), (.text "type", .text "torrent_removed"),
      (.text "handle_id", .number (.integer 1))]
    (Doc.record ms .closed).Spelled s ∧ Named ms ∧
      (∀ m ∈ ms, m.2.Within (depthLimit - 2) ∧ .number .outOfRange ∉ m.2.tokens) ∧
      (Event.torrentRemoved 1).GivenBy ms ∧ ∀ e : Event, decode s ≠ .ok e := by
  intro s ms
  have names : ∀ m ∈ ms, m.1.IsName := by simp [ms, Token.IsName]
  have shallow : ∀ m ∈ ms, m.2.Within (depthLimit - 2) :=
    List.forall_mem_cons.2 ⟨.loneSurrogate, List.forall_mem_cons.2 ⟨.text _,
      List.forall_mem_singleton.2 (.number _)⟩⟩
  have units : UnitsSpelling [.coded 0xD800] ['\\', 'u', 'd', '8', '0', '0'] :=
    .cons (.code (by decide)) .nil
  have chars : s.toList = '\x7b' :: (quote "x" ++ ':' ::
      ('"' :: (['\\', 'u', 'd', '8', '0', '0'] ++ ['"']) ++ ',' :: (quote "type" ++ ':' ::
      (quote "torrent_removed" ++ ',' :: (quote "handle_id" ++ ':' ::
      (Text.Decimal.intDigits 1 ++ ['\x7d'])))))) := by decide +kernel
  have spelled : (Doc.record ms .closed).Spelled s := by
    refine ⟨⟨_, .record names shallow⟩, ?_⟩
    rw [chars]
    refine .mark (by decide) (.token (spelling_quote _) (.mark (by decide) ?_))
    refine .token (.text units) (.mark (by decide) ?_)
    refine .token (spelling_quote _) (.mark (by decide) (.token (spelling_quote _) ?_))
    refine .mark (by decide) (.token (spelling_quote _) (.mark (by decide) ?_))
    exact .token (spelling_intDigits ⟨by decide, by decide⟩)
      (.mark (by decide) (.nil (List.forall_mem_nil _)))
  refine ⟨spelled, by simp [Named, ms], fun m there => ⟨shallow m there, ?_⟩,
    ⟨rfl, _, rfl, rfl⟩, fun e done => ?_⟩
  · revert m
    simp [ms, Doc.tokens]
  · obtain ⟨-, storable, -⟩ := (Event.decode_iff spelled).1 done
    exact (storable _ (List.mem_cons_self ..)).paired (List.mem_singleton_self _)

end TorrentHandle
