import TorrentHandle.Proofs.Json.RoundTrip
import TorrentHandle.Proofs.Settings.Validate
import TorrentHandle.Proofs.Text.Blank
import TorrentHandle.Settings.Load

/-!
Loading settings. What is loaded is what the file gives, with the fields replaced for which the
environment has values, and it keeps the rules; what a replaced field was before does not matter.
Of several faults the first is told, in the order file, format, limits, rules.
-/

namespace TorrentHandle

open TorrentHandle.Text

/-! ### Values from outside -/

/-- The value is a limit: digits after at most one plus sign, with blanks around. -/
def GivesLimit (value : String) (limit : UInt64) : Prop :=
  ∃ sign digits, Framed (sign ++ digits) value.toList ∧ (sign = [] ∨ sign = ['+']) ∧
    digits ≠ [] ∧ (∀ c ∈ digits, c.isDigit = true) ∧ Decimal.value digits = limit.toNat

/-- The value names a format, in any case and with blanks around. -/
def GivesFormat (value : String) (format : LogFormatSetting) : Prop :=
  ∃ core, Framed core value.toList ∧ core.map Char.toLower = format.name.toList

/-- The environment has a value of this name which gives nothing that is wanted. -/
def Malformed {α : Type} (gives : String → α → Prop) (lookup : String → Option String)
    (name : String) (e : ConfigError) : Prop :=
  ∃ value, lookup name = some value ∧ (∀ a, ¬ gives value a) ∧ e = .invalidOverride name value

/-- A reader of values from outside accepts what is wanted and names what it refuses. -/
structure ReadsOverride {α : Type} (parse : String → String → Except ConfigError α)
    (gives : String → α → Prop) : Prop where
  accepts : ∀ {name value a}, parse name value = .ok a ↔ gives value a
  refuses : ∀ {name value e}, parse name value = .error e ↔
    (∀ a, ¬ gives value a) ∧ e = .invalidOverride name value

namespace ReadsOverride

variable {α : Type} {parse : String → String → Except ConfigError α} {gives : String → α → Prop}
  {lookup : String → Option String} {name : String} {present a : α} {e : ConfigError}

/-- It is enough that it accepts what is wanted and refuses by one error. -/
lemma of_accepts (accepts : ∀ {name value a}, parse name value = .ok a ↔ gives value a)
    (refuses : ∀ {name value e}, parse name value = .error e → e = .invalidOverride name value) :
    ReadsOverride parse gives where
  accepts := accepts
  refuses {name value e} := by
    constructor
    · intro refused
      refine ⟨fun a given => ?_, refuses refused⟩
      rw [accepts.2 given] at refused
      cases refused
    · rintro ⟨none, rfl⟩
      cases read : parse name value with
      | ok a => exact absurd (accepts.1 read) (none a)
      | error e => rw [refuses read]

lemma override_eq_ok (reads : ReadsOverride parse gives) :
    EngineSettings.override lookup name parse present = .ok a ↔
      ∃ given, Option.Rel gives (lookup name) given ∧ given.getD present = a := by
  unfold EngineSettings.override
  cases lookup name with
  | none =>
    constructor
    · rintro ⟨⟩
      exact ⟨none, .none, rfl⟩
    · rintro ⟨_, ⟨⟩, rfl⟩
      rfl
  | some value =>
    refine reads.accepts.trans ⟨fun given => ⟨some a, .some given, rfl⟩, ?_⟩
    rintro ⟨_, ⟨given⟩, rfl⟩
    exact given

lemma override_eq_error (reads : ReadsOverride parse gives) :
    EngineSettings.override lookup name parse present = .error e ↔
      FirstOf [Malformed gives lookup name] e := by
  rw [firstOf_singleton]
  unfold EngineSettings.override Malformed
  cases lookup name with
  | none => exact ⟨nofun, nofun⟩
  | some value =>
    refine reads.refuses.trans ⟨fun refused => ⟨value, rfl, refused⟩, ?_⟩
    rintro ⟨_, ⟨⟩, refused⟩
    exact refused

end ReadsOverride

namespace EngineSettings

lemma ofNat_eq_iff {n : ℕ} {limit : UInt64} (small : n ≤ Json.maxUnsigned) :
    UInt64.ofNat n = limit ↔ n = limit.toNat := by
  have range : Json.maxUnsigned + 1 = UInt64.size := rfl
  rw [← UInt64.toNat_inj, UInt64.toNat_ofNat_of_lt' (by omega)]

theorem limitOverride_reads : ReadsOverride limitOverride GivesLimit := by
  refine .of_accepts (fun {name value limit} => ?_) (fun {name value e} refused => ?_)
  · have accepted : limitOverride name value = .ok limit ↔
        ∃ n, Decimal.parse? Json.maxUnsigned (trimChars value.toList) = some n ∧
          UInt64.ofNat n = limit := by
      unfold limitOverride
      split <;> simp_all
    rw [accepted]
    constructor
    · rintro ⟨n, read, same⟩
      obtain ⟨sign, digits, trimmed, signed, nonempty, each, rfl, small⟩ :=
        Decimal.parse?_eq_some.1 read
      exact ⟨sign, digits, trimmed ▸ framed_trimChars _, signed, nonempty, each,
        (ofNat_eq_iff small).1 same⟩
    · rintro ⟨sign, digits, framed, signed, nonempty, each, same⟩
      have shown : ∀ c ∈ sign ++ digits, isBlank c = false := by
        intro c inside
        obtain inside | inside := List.mem_append.1 inside
        · obtain rfl | rfl := signed
          · cases inside
          · obtain rfl := List.mem_singleton.1 inside
            decide
        · exact not_blank_of_isDigit (each c inside)
      have small : limit.toNat ≤ Json.maxUnsigned := Nat.le_of_lt_succ limit.toNat_lt
      exact ⟨limit.toNat, Decimal.parse?_eq_some.2 ⟨sign, digits, (trimChars_eq_iff shown).2 framed,
        signed, nonempty, each, same, small⟩, (ofNat_eq_iff small).2 rfl⟩
  · unfold limitOverride at refused
    split at refused <;> cases refused
    rfl

theorem formatOverride_reads : ReadsOverride formatOverride GivesFormat := by
  refine .of_accepts (fun {name value format} => ?_) (fun {name value e} refused => ?_)
  · have accepted : formatOverride name value = .ok format ↔
        (trimChars value.toList).map Char.toLower = format.name.toList := by
      rw [← String.toList_ofList (l := (trimChars value.toList).map Char.toLower), String.toList_inj,
        ← LogFormatSetting.ofName?_eq_some]
      unfold formatOverride
      split <;> simp_all
    rw [accepted]
    constructor
    · exact fun named => ⟨_, framed_trimChars _, named⟩
    · rintro ⟨core, framed, named⟩
      have shown : ∀ c ∈ core, isBlank c = false := by
        intro c inside
        have letters : format.name.toList.all fun c => !isBlank c := by cases format <;> decide
        by_contra blank
        have lowered := List.all_eq_true.1 letters c.toLower (named ▸ List.mem_map_of_mem inside)
        rw [isBlank_toLower (by simpa using blank)] at lowered
        cases lowered
      rw [(trimChars_eq_iff shown).2 framed, named]
  · unfold formatOverride at refused
    split at refused <;> cases refused
    rfl

end EngineSettings

/-! ### Replaced fields -/

/-- The fields that the environment replaces, with their values. -/
structure Overrides where
  level : Option String
  format : Option LogFormatSetting
  download : Option UInt64
  upload : Option UInt64

namespace Overrides

/-- The environment has exactly these values, each well-formed. -/
structure From (lookup : String → Option String) (o : Overrides) : Prop where
  level : o.level = lookup levelVariable
  format : Option.Rel GivesFormat (lookup formatVariable) o.format
  download : Option.Rel GivesLimit (lookup downloadLimitVariable) o.download
  upload : Option.Rel GivesLimit (lookup uploadLimitVariable) o.upload

/-- The settings with exactly these fields replaced. -/
def applyTo (o : Overrides) (s : EngineSettings) : EngineSettings :=
  { s with
    logging :=
      { level := o.level.getD s.logging.level, format := o.format.getD s.logging.format }
    downloadRateLimit := o.download.getD s.downloadRateLimit
    uploadRateLimit := o.upload.getD s.uploadRateLimit }

end Overrides

namespace EngineSettings

variable {f g s : EngineSettings} {lookup : String → Option String} {e : ConfigError}

lemma levelOverride_reads :
    ReadsOverride (fun _ value => .ok value) fun value level => level = value :=
  .of_accepts ⟨fun | rfl => rfl, fun | rfl => rfl⟩ nofun

lemma rel_level {value level : Option String} :
    Option.Rel (fun value level => level = value) value level ↔ level = value := by
  constructor
  · rintro (same | _)
    · rw [same]
    · rfl
  · rintro rfl
    cases level with
    | none => exact .none
    | some level => exact .some rfl

lemma applyOverrides_eq_ok :
    f.applyOverrides lookup = .ok g ↔ ∃ o : Overrides, o.From lookup ∧ o.applyTo f = g := by
  simp only [applyOverrides, bind_eq_ok, levelOverride_reads.override_eq_ok,
    formatOverride_reads.override_eq_ok, limitOverride_reads.override_eq_ok]
  constructor
  · rintro ⟨_, ⟨level, hasLevel, rfl⟩, _, ⟨format, hasFormat, rfl⟩, _, ⟨download, hasDownload, rfl⟩,
      _, ⟨upload, hasUpload, rfl⟩, ⟨⟩⟩
    exact ⟨⟨level, format, download, upload⟩,
      ⟨rel_level.1 hasLevel, hasFormat, hasDownload, hasUpload⟩, rfl⟩
  · rintro ⟨⟨level, format, download, upload⟩, given, rfl⟩
    exact ⟨_, ⟨level, rel_level.2 given.level, rfl⟩, _, ⟨format, given.format, rfl⟩,
      _, ⟨download, given.download, rfl⟩, _, ⟨upload, given.upload, rfl⟩, rfl⟩

/-- The faults that values from outside can have, in the order in which they are told. -/
def overrideFaults (lookup : String → Option String) : List (ConfigError → Prop) :=
  [Malformed GivesFormat lookup formatVariable, Malformed GivesLimit lookup downloadLimitVariable,
    Malformed GivesLimit lookup uploadLimitVariable]

lemma applyOverrides_eq_error :
    f.applyOverrides lookup = .error e ↔ FirstOf (overrideFaults lookup) e := by
  have level : ∃ level, override lookup levelVariable (fun _ value => .ok value) f.logging.level =
      .ok level := by
    unfold override
    split <;> exact ⟨_, rfl⟩
  obtain ⟨level, read⟩ := level
  rw [applyOverrides, read]
  change (override lookup formatVariable formatOverride f.logging.format >>= _) = _ ↔ _
  refine bind_eq_error (fun _ => formatOverride_reads.override_eq_error) fun format _ => ?_
  refine bind_eq_error (fun _ => limitOverride_reads.override_eq_error) fun download _ => ?_
  rw [← List.append_nil [Malformed GivesLimit lookup uploadLimitVariable]]
  exact bind_eq_error (fun _ => limitOverride_reads.override_eq_error) fun upload _ =>
    ⟨nofun, nofun⟩

end EngineSettings

/-! ### Files -/

/-- The settings to start with: the defaults without a file, and else those that the text of the
file stands for. -/
inductive SettingsFile.Gives : Option SettingsFile → EngineSettings → Prop where
  | absent : Gives none {}
  | parsed {text path : String} {s : EngineSettings} (read : Json.decode text = .ok s) :
    Gives (some (.bytes text.toUTF8 path)) s

/-- A file that gives no settings, and why. The path is told. -/
inductive SettingsFile.Fails : Option SettingsFile → ConfigError → Prop where
  | missing {path : String} :
    Fails (some (.missing path)) (@ConfigError.unreadable path .notFound)
  | directory {path : String} :
    Fails (some (.directory path)) (@ConfigError.unreadable path .isDirectory)
  | undecoded {content : ByteArray} {path : String}
    (noText : ∀ text : String, text.toUTF8 ≠ content) :
    Fails (some (.bytes content path)) (@ConfigError.unreadable path .invalidData)
  | unparsed {text path : String} {fault : Json.Fault}
    (refused : (Json.decode text : Except Json.Fault EngineSettings) = .error fault) :
    Fails (some (.bytes text.toUTF8 path)) (@ConfigError.unparsable path fault)

lemma fromUTF8?_eq_some {content : ByteArray} {text : String} :
    String.fromUTF8? content = some text ↔ text.toUTF8 = content := by
  unfold String.fromUTF8?
  constructor
  · intro read
    split at read
    · cases read
      rfl
    · cases read
  · rintro rfl
    exact dif_pos text.isValidUTF8

namespace EngineSettings

variable {f f' g s : EngineSettings} {lookup : String → Option String} {e : ConfigError}
  {file file' : Option SettingsFile}

def start : Option SettingsFile → Except ConfigError EngineSettings
  | some file => ofFile file
  | none => .ok {}

lemma load_eq (file : Option SettingsFile) (lookup : String → Option String) :
    load file lookup = start file >>= fun f =>
      f.applyOverrides lookup >>= fun g => g.validate >>= fun _ => .ok g := by
  cases file <;> rfl

lemma ofFile_bytes (text path : String) : ofFile (.bytes text.toUTF8 path) =
    match (Json.decode text : Except Json.Fault EngineSettings) with
    | .error fault => .error (@ConfigError.unparsable path fault)
    | .ok s => .ok s := by
  have text' : String.fromUTF8? text.toUTF8 = some text := fromUTF8?_eq_some.2 rfl
  cases read : (Json.decode text : Except Json.Fault EngineSettings) <;>
    simp only [ofFile, SettingsFile.text, SettingsFile.path, text', read]

lemma start_eq_ok : start file = .ok f ↔ SettingsFile.Gives file f := by
  constructor
  · intro started
    match file, started with
    | none, started =>
      cases started
      exact .absent
    | some (.missing _), started | some (.directory _), started => cases started
    | some (.bytes content _), started =>
      cases read : String.fromUTF8? content with
      | none => simp [start, ofFile, SettingsFile.text, read] at started
      | some text =>
        obtain rfl := fromUTF8?_eq_some.1 read
        rw [start, ofFile_bytes] at started
        split at started
        · cases started
        · rename_i parsed
          cases started
          exact .parsed parsed
  · rintro (_ | read)
    · rfl
    · rw [start, ofFile_bytes, read]

lemma start_eq_error : start file = .error e ↔ FirstOf [SettingsFile.Fails file] e := by
  rw [firstOf_singleton]
  constructor
  · intro failed
    match file, failed with
    | some (.missing _), failed =>
      cases failed
      exact .missing
    | some (.directory _), failed =>
      cases failed
      exact .directory
    | some (.bytes content _), failed =>
      cases read : String.fromUTF8? content with
      | none =>
        simp only [start, ofFile, SettingsFile.text, SettingsFile.path, read] at failed
        cases failed
        refine .undecoded fun text same => ?_
        rw [fromUTF8?_eq_some.2 same] at read
        cases read
      | some text =>
        obtain rfl := fromUTF8?_eq_some.1 read
        rw [start, ofFile_bytes] at failed
        split at failed
        · rename_i refused
          cases failed
          exact .unparsed refused
        · cases failed
  · rintro (_ | _ | @⟨content, _, noText⟩ | refused)
    · rfl
    · rfl
    · cases read : String.fromUTF8? content with
      | none => simp only [start, ofFile, SettingsFile.text, SettingsFile.path, read]
      | some text => exact absurd (fromUTF8?_eq_some.1 read) (noText text)
    · rw [start, ofFile_bytes, refused]

/-- Settings that differ in replaced fields only. -/
structure AgreeApart (lookup : String → Option String) (f f' : EngineSettings) : Prop where
  others : { f with
    logging := f'.logging
    downloadRateLimit := f'.downloadRateLimit
    uploadRateLimit := f'.uploadRateLimit } = f'
  level : lookup levelVariable = none → f.logging.level = f'.logging.level
  format : lookup formatVariable = none → f.logging.format = f'.logging.format
  download : lookup downloadLimitVariable = none → f.downloadRateLimit = f'.downloadRateLimit
  upload : lookup uploadLimitVariable = none → f.uploadRateLimit = f'.uploadRateLimit

lemma override_congr {α : Type} {name : String} {parse : String → String → Except ConfigError α}
    {present present' : α} (same : lookup name = none → present = present') :
    override lookup name parse present = override lookup name parse present' := by
  unfold override
  split
  · rfl
  · rw [same ‹_›]

/-- **What a replaced field was before does not matter.** -/
theorem AgreeApart.applyOverrides_eq (agree : AgreeApart lookup f f') :
    f.applyOverrides lookup = f'.applyOverrides lookup := by
  unfold applyOverrides
  rw [override_congr agree.level, override_congr agree.format, override_congr agree.download,
    override_congr agree.upload, ← agree.others]

/-- The rules that the settings break once the fields are replaced. -/
def BreaksRules (file : Option SettingsFile) (lookup : String → Option String) (e : ConfigError) :
    Prop :=
  ∃ f o, SettingsFile.Gives file f ∧ Overrides.From lookup o ∧ (o.applyTo f).validate = .error e

/-- The faults that loading can meet, in the order in which they are told. -/
def loadFaults (file : Option SettingsFile) (lookup : String → Option String) :
    List (ConfigError → Prop) :=
  [SettingsFile.Fails file,
    Malformed GivesFormat lookup formatVariable,
    Malformed GivesLimit lookup downloadLimitVariable,
    Malformed GivesLimit lookup uploadLimitVariable,
    BreaksRules file lookup]

lemma load_eq_ok : load file lookup = .ok s ↔
    ∃ (f : EngineSettings) (o : Overrides), SettingsFile.Gives file f ∧ o.From lookup ∧
      s = o.applyTo f ∧ s.validate = .ok () := by
  simp only [load_eq, bind_eq_ok, start_eq_ok, applyOverrides_eq_ok]
  constructor
  · rintro ⟨f, given, _, ⟨o, has, rfl⟩, ⟨⟩, valid, ⟨⟩⟩
    exact ⟨f, o, given, has, rfl, valid⟩
  · rintro ⟨f, o, given, has, rfl, valid⟩
    exact ⟨f, given, _, ⟨o, has, rfl⟩, (), valid, rfl⟩

lemma load_eq_error : load file lookup = .error e ↔ FirstOf (loadFaults file lookup) e := by
  rw [load_eq]
  refine bind_eq_error (fun _ => start_eq_error) fun f started => ?_
  change _ ↔ FirstOf (overrideFaults lookup ++ ([BreaksRules file lookup] ++ [])) e
  refine bind_eq_error (fun _ => applyOverrides_eq_error) fun g replaced => ?_
  refine bind_eq_error (fun e => ?_) fun _ _ => ⟨nofun, nofun⟩
  rw [firstOf_singleton]
  obtain ⟨o, has, rfl⟩ := applyOverrides_eq_ok.1 replaced
  constructor
  · exact fun broken => ⟨f, o, start_eq_ok.1 started, has, broken⟩
  · -- there is one document to start with, and one way to replace its fields
    rintro ⟨f', o', given', has', broken⟩
    have same : Except.ok f = .ok f' := started.symm.trans (start_eq_ok.2 given')
    cases same
    have same : Except.ok (o.applyTo f) = .ok (o'.applyTo f) :=
      replaced.symm.trans (applyOverrides_eq_ok.2 ⟨o', has', rfl⟩)
    rwa [Except.ok.inj same]

/-! ### What is loaded -/

/-- What holds of settings that were loaded. -/
structure IsLoaded (s : EngineSettings) : Prop where
  valid : s.validate = .ok ()
  /-- They are loaded again from their own text, wherever it is kept. -/
  again : ∀ path, load (some (.bytes (Json.encode s).toUTF8 path)) (fun _ => none) = .ok s
  download : s.downloadRateLimit.toNat ≤ 2147483647
  upload : s.uploadRateLimit.toNat ≤ 2147483647
  trackers : ∀ url ∈ s.defaultTrackers,
    ∃ scheme ∈ ["http://", "https://", "udp://"], scheme.toList <+: url.toList

lemma from_nothing : Overrides.From (fun _ => none) ⟨none, none, none, none⟩ :=
  ⟨rfl, .none, .none, .none⟩

lemma IsLoaded.of_valid (valid : s.validate = .ok ()) : IsLoaded s where
  valid := valid
  again path := by
    have back : Json.decode (Json.encode s) = .ok s := Json.decode_encode (by decide) s
    exact load_eq_ok.2 ⟨s, ⟨none, none, none, none⟩, .parsed back, from_nothing, rfl, valid⟩
  download := (validate_eq_ok.1 valid).download
  upload := (validate_eq_ok.1 valid).upload
  trackers url inside := by
    obtain ⟨scheme, listed, begins⟩ :=
      List.any_eq_true.1 ((validate_eq_ok.1 valid).trackers url inside)
    exact ⟨scheme, listed, List.isPrefixOf_iff_prefix.1 begins⟩

/-- **Loading settings.** Settings are loaded if and only if the file, where one is named, gives
settings, every value of the environment is well-formed, and the settings with exactly those fields
replaced keep the rules; they are what is loaded. Otherwise the first fault is told, in the order
file, format, download limit, upload limit, rules. What is loaded keeps the rules, so it is loaded
again from its own text; and files whose settings differ in replaced fields only load alike. -/
theorem load_tells (file : Option SettingsFile) (lookup : String → Option String) :
    (∀ s, load file lookup = .ok s ↔ ∃ (f : EngineSettings) (o : Overrides),
      SettingsFile.Gives file f ∧ o.From lookup ∧ s = o.applyTo f ∧ s.validate = .ok ()) ∧
    (∀ e, load file lookup = .error e ↔ FirstOf (loadFaults file lookup) e) ∧
    (∀ s, load file lookup = .ok s → IsLoaded s) ∧
    ∀ file' f f', SettingsFile.Gives file f → SettingsFile.Gives file' f' →
      AgreeApart lookup f f' → load file lookup = load file' lookup := by
  refine ⟨fun s => load_eq_ok, fun e => load_eq_error, fun s loaded => ?_, ?_⟩
  · obtain ⟨-, -, -, -, -, valid⟩ := load_eq_ok.1 loaded
    exact .of_valid valid
  · intro file' f f' given given' agree
    rw [load_eq, load_eq, start_eq_ok.2 given, start_eq_ok.2 given']
    change (f.applyOverrides lookup >>= _) = (f'.applyOverrides lookup >>= _)
    rw [agree.applyOverrides_eq]

theorem repaired_limit_load_tells : ∃ file file' lookup,
    SettingsFile.Gives file { downloadRateLimit := 4294967296, shareRatioLimit := 150 } ∧
    SettingsFile.Gives file' { shareRatioLimit := 150 } ∧ lookup downloadLimitVariable = some "+7 " ∧
    load file lookup = .ok { downloadRateLimit := 7, shareRatioLimit := 150 } ∧
    IsLoaded { downloadRateLimit := 7, shareRatioLimit := 150 } ∧
    load file lookup = load file' lookup := by
  let lookup := fun name => if name = downloadLimitVariable then some "+7 " else none
  let text (limit : UInt64) : String :=
    Json.encode ({ downloadRateLimit := limit, shareRatioLimit := 150 } : EngineSettings)
  have given : SettingsFile.Gives (some (.bytes (text 4294967296).toUTF8))
      { downloadRateLimit := 4294967296, shareRatioLimit := 150 } :=
    .parsed (Json.decode_encode (by decide) _)
  have given' : SettingsFile.Gives (some (.bytes (text 0).toUTF8)) { shareRatioLimit := 150 } :=
    .parsed (Json.decode_encode (by decide) _)
  have seven : GivesLimit "+7 " 7 :=
    ⟨['+'], ['7'], ⟨[], [' '], rfl, nofun, List.forall_mem_singleton.2 (by decide)⟩, .inr rfl, nofun,
      List.forall_mem_singleton.2 (by decide), rfl⟩
  have replaced : Overrides.From lookup ⟨none, none, some 7, none⟩ :=
    ⟨rfl, .none, .some seven, .none⟩
  have tells := load_tells (some (.bytes (text 4294967296).toUTF8)) lookup
  have loaded := (tells.1 { downloadRateLimit := 7, shareRatioLimit := 150 }).2
    ⟨_, _, given, replaced, rfl, by decide⟩
  exact ⟨_, _, lookup, given, given', rfl, loaded, tells.2.2.1 _ loaded,
    tells.2.2.2 _ _ _ given given' ⟨rfl, fun _ => rfl, fun _ => rfl, nofun, fun _ => rfl⟩⟩

end EngineSettings

end TorrentHandle
