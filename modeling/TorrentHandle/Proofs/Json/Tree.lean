import Mathlib.Data.Int.Notation
import TorrentHandle.Json.Value
import TorrentHandle.Proofs.Json.Grammar
import TorrentHandle.Proofs.Text.Decimal
import TorrentHandle.Proofs.Text.Hex

/-!
Trees of values. The compact text of a value spells its tree, so it is read as that tree; and the
tree of a value that is not too deep can be stored.
-/

namespace TorrentHandle.Json

open TorrentHandle.Text

variable {levels depth : ℕ} {v : Value} {c : Char} {cs : List Char} {ts : List Token}

/-! ### Texts -/

/-- The characters that are written with an escape of one letter. -/
def shortEscaped : List Char := ['"', '\\', '\x08', '\x0c', '\n', '\r', '\t']

/-- The unit that a character is written as inside quotes. -/
def unitOf (c : Char) : TextUnit :=
  if c.toNat < 0x20 ∧ c ∉ shortEscaped then .coded c.toNat else .plain c

lemma quoteChar_of_not_short (long : c ∉ shortEscaped) : quoteChar c =
    if c.toNat < 0x20 then
      ['\\', 'u', '0', '0', Hex.lowerDigit (c.toNat / 16), Hex.lowerDigit (c.toNat % 16)]
    else [c] := by
  simp only [shortEscaped, List.mem_cons, List.not_mem_nil, or_false, not_or] at long
  simp only [quoteChar, long, if_false]

lemma spelling_quoteChar (c : Char) : (unitOf c).Spelling (quoteChar c) := by
  by_cases short : c ∈ shortEscaped
  · rw [unitOf, if_neg (fun control => control.2 short)]
    simp only [shortEscaped, List.mem_cons, List.not_mem_nil, or_false] at short
    obtain rfl | rfl | rfl | rfl | rfl | rfl | rfl := short <;> exact .letter (by decide)
  · rw [quoteChar_of_not_short short, unitOf]
    by_cases control : c.toNat < 0x20
    · have high : Hex.digitValue? (Hex.lowerDigit (c.toNat / 16)) = some (c.toNat / 16) :=
        Hex.digitValue?_lowerDigit (by omega)
      have low : Hex.digitValue? (Hex.lowerDigit (c.toNat % 16)) = some (c.toNat % 16) :=
        Hex.digitValue?_lowerDigit (by omega)
      have zero : Hex.digitValue? '0' = some 0 := by decide
      have code : Hex.quad? '0' '0' (Hex.lowerDigit (c.toNat / 16))
          (Hex.lowerDigit (c.toNat % 16)) = some c.toNat := by
        simp only [Hex.quad?, zero, high, low]
        congr 1
        omega
      rw [if_pos control, if_pos ⟨control, short⟩]
      exact .code code
    · rw [if_neg control, if_neg (fun both => control both.1)]
      simp only [shortEscaped, List.mem_cons, not_or] at short
      exact .plain short.1 short.2.1 (Nat.le_of_not_lt control)

lemma unitsSpelling_quote (cs : List Char) :
    UnitsSpelling (cs.map unitOf) (cs.flatMap quoteChar) := by
  induction cs with
  | nil => exact .nil
  | cons c cs ih => exact .cons (spelling_quoteChar c) ih

lemma decodeUnits_unitOf (cs : List Char) : decodeUnits (cs.map unitOf) = some cs := by
  induction cs with
  | nil => rfl
  | cons c cs ih =>
    rw [List.map_cons, unitOf]
    split
    · rename_i control
      have leading : isLeading c.toNat = false := by simp [isLeading]; omega
      have trailing : isTrailing c.toNat = false := by simp [isTrailing]; omega
      rw [decodeUnits.eq_def]
      simp [leading, trailing, ih, Char.ofNat_toNat]
    · simp [decodeUnits, ih]

lemma spelling_quote (s : String) : (Token.text s).Spelling (quote s) := by
  have stands : textOf (s.toList.map unitOf) = .text s := by
    rw [textOf, decodeUnits_unitOf]
    exact congrArg Token.text (String.ofList_toList)
  rw [← stands]
  exact .text (unitsSpelling_quote s.toList)

/-! ### Numbers -/

/-- An integer that 64 bits hold, with a sign or without. -/
def Fits (i : ℤ) : Prop := -minSignedMagnitude ≤ i ∧ i ≤ maxUnsigned

lemma number_natural {n : ℕ} (small : n ≤ maxUnsigned) :
    Literal.number ⟨false, Decimal.digits n, [], none⟩ = .integer n := by
  simp [Literal.number, Literal.integer?, small]

lemma number_negative {n : ℕ} (pos : 0 < n) (small : n ≤ minSignedMagnitude) :
    Literal.number ⟨true, Decimal.digits n, [], none⟩ = .integer (-n) := by
  simp [Literal.number, Literal.integer?, pos, small]

lemma spelling_digits (negative : Bool) (n : ℕ) :
    Literal.Spelling ⟨negative, Decimal.digits n, [], none⟩
      ((if negative then ['-'] else []) ++ Decimal.digits n) := by
  have digits : ∀ c ∈ Decimal.digits n, c.isDigit := fun _ => Decimal.isDigit_of_mem_digits
  have spelling : Literal.Spelling ⟨negative, _, _, _⟩ _ :=
    .mk Decimal.digits_ne_nil digits (fun _ => Decimal.no_leading_zero) .none .none
  rwa [List.append_nil, List.append_nil] at spelling

lemma spelling_intDigits {i : ℤ} (fits : Fits i) :
    (Token.number (.integer i)).Spelling (Decimal.intDigits i) := by
  obtain ⟨low, high⟩ := fits
  cases i with
  | ofNat n =>
    have number := number_natural (n := n) (by simpa using high)
    exact number ▸ .number (spelling_digits false n)
  | negSucc n =>
    have number := number_negative (Nat.succ_pos n) (by omega)
    exact number ▸ .number (spelling_digits true (n + 1))

/-! ### Trees -/

mutual

def Value.doc : Value → Doc
  | .null => .null
  | .bool b => .bool b
  | .integer i => .number (.integer i)
  | .text s => .text s
  | .list items => .list (itemDocs items) .closed
  | .record members => .record (memberDocs members) .closed

def itemDocs : List Value → List Doc
  | [] => []
  | v :: rest => v.doc :: itemDocs rest

def memberDocs : List (String × Value) → List (Token × Doc)
  | [] => []
  | (name, v) :: rest => (.text name, v.doc) :: memberDocs rest

end

lemma itemDocs_eq_map (items : List Value) : itemDocs items = items.map Value.doc := by
  induction items with
  | nil => rfl
  | cons v items ih => rw [itemDocs, ih, List.map_cons]

lemma memberDocs_eq_map (members : List (String × Value)) :
    memberDocs members = members.map fun m => (.text m.1, m.2.doc) := by
  induction members with
  | nil => rfl
  | cons m members ih => rw [memberDocs, ih, List.map_cons]

lemma Value.doc_list (items : List Value) :
    (Value.list items).doc = .list (items.map Value.doc) .closed := by
  rw [Value.doc, itemDocs_eq_map]

lemma Value.doc_record (members : List (String × Value)) : (Value.record members).doc =
    .record (members.map fun m => (.text m.1, m.2.doc)) .closed := by
  rw [Value.doc, memberDocs_eq_map]

/-- The value has only integers that fit, and lists and records in at most so many levels. -/
inductive Value.Within : ℕ → Value → Prop where
  | null {levels : ℕ} : Within levels .null
  | bool {levels : ℕ} (b : Bool) : Within levels (.bool b)
  | integer {levels : ℕ} {i : ℤ} (fits : Fits i) : Within levels (.integer i)
  | text {levels : ℕ} (s : String) : Within levels (.text s)
  | list {levels : ℕ} {items : List Value} (each : ∀ v ∈ items, Within levels v) :
    Within (levels + 1) (.list items)
  | record {levels : ℕ} {members : List (String × Value)}
    (each : ∀ m ∈ members, Within levels m.2) : Within (levels + 1) (.record members)

lemma Value.Within.mono {levels levels' : ℕ} {v : Value} (within : v.Within levels)
    (le : levels ≤ levels') : v.Within levels' := by
  induction within generalizing levels' with
  | null => exact .null
  | bool b => exact .bool b
  | integer fits => exact .integer fits
  | text s => exact .text s
  | list _ each =>
    obtain ⟨levels', rfl⟩ := Nat.exists_eq_succ_of_ne_zero (Nat.ne_zero_of_lt le)
    exact .list fun v there => each v there (Nat.le_of_succ_le_succ le)
  | record _ each =>
    obtain ⟨levels', rfl⟩ := Nat.exists_eq_succ_of_ne_zero (Nat.ne_zero_of_lt le)
    exact .record fun m there => each m there (Nat.le_of_succ_le_succ le)

lemma isName_members (members : List (String × Value)) :
    ∀ m ∈ members.map fun m => (Token.text m.1, m.2.doc), m.1.IsName := by
  intro m there
  obtain ⟨m, -, rfl⟩ := List.mem_map.1 there
  exact .inr ⟨m.1, rfl⟩

lemma Value.Within.storable (within : v.Within levels) : v.doc.Storable levels := by
  induction within with
  | null => exact Doc.storable_null
  | bool b => exact Doc.storable_bool b
  | integer => exact Doc.storable_number nofun
  | text s => exact Doc.storable_text s
  | @list _ items _ each =>
    rw [Value.doc_list, Doc.storable_list]
    refine ⟨_, rfl, fun d there => ?_⟩
    obtain ⟨v, here, rfl⟩ := List.mem_map.1 there
    exact each v here
  | @record _ members _ each =>
    rw [Value.doc_record, Doc.storable_record (isName_members members)]
    refine ⟨_, rfl, fun m there => ?_⟩
    obtain ⟨m, here, rfl⟩ := List.mem_map.1 there
    exact ⟨nofun, each m here⟩

/-- The text of the value spells its tree, whatever follows. -/
def Value.Spelled (v : Value) : Prop :=
  ∀ {ts cs}, Spells ts cs → Spells (v.doc.tokens ++ ts) (v.chars ++ cs)

lemma spells_itemChars {items : List Value} (each : ∀ v ∈ items, v.Spelled)
    (later : Spells ts cs) : Spells (laterTokens (itemDocs items) ++ ts) (itemChars items ++ cs) := by
  induction items with
  | nil => exact .mark (by decide) later
  | cons v items ih =>
    obtain ⟨first, others⟩ := List.forall_mem_cons.1 each
    rw [itemChars, itemDocs, laterTokens, List.cons_append, List.cons_append, List.append_assoc,
      List.append_assoc]
    exact .mark (by decide) (first (ih others))

lemma spells_memberChars {members : List (String × Value)} (each : ∀ m ∈ members, m.2.Spelled)
    (later : Spells ts cs) :
    Spells (laterMemberTokens (memberDocs members) ++ ts) (memberChars members ++ cs) := by
  induction members with
  | nil => exact .mark (by decide) later
  | cons m members ih =>
    obtain ⟨first, others⟩ := List.forall_mem_cons.1 each
    rw [memberChars, memberDocs, laterMemberTokens]
    simp only [List.cons_append, List.append_assoc]
    exact .mark (by decide) (.token (spelling_quote m.1) (.mark (by decide) (first (ih others))))

theorem spelled_of_within (within : v.Within levels) : v.Spelled := by
  induction within with
  | null => exact fun later => .token .null later
  | bool b =>
    cases b with
    | false => exact fun later => .token .false later
    | true => exact fun later => .token .true later
  | integer fits => exact fun later => .token (spelling_intDigits fits) later
  | text s => exact fun later => .token (spelling_quote s) later
  | @list _ items _ each =>
    intro ts cs later
    cases items with
    | nil => exact .mark (by decide) (.mark (by decide) later)
    | cons v items =>
      obtain ⟨first, others⟩ := List.forall_mem_cons.1 each
      rw [Value.chars, Value.doc, itemDocs, Doc.tokens]
      simp only [List.cons_append, List.append_assoc]
      exact .mark (by decide) (first (spells_itemChars others later))
  | @record _ members _ each =>
    intro ts cs later
    cases members with
    | nil => exact .mark (by decide) (.mark (by decide) later)
    | cons m members =>
      obtain ⟨first, others⟩ := List.forall_mem_cons.1 each
      rw [Value.chars, Value.doc, memberDocs, Doc.tokens]
      simp only [List.cons_append, List.append_assoc]
      refine .mark (by decide) (.token (spelling_quote m.1) (.mark (by decide) ?_))
      exact first (spells_memberChars others later)

lemma spelled_render (within : v.Within levels) : v.doc.Spelled v.render := by
  have spells := spelled_of_within within (.nil (List.forall_mem_nil _))
  rw [List.append_nil, List.append_nil] at spells
  refine ⟨⟨levels, within.storable.within⟩, ?_⟩
  rwa [Value.render, String.toList_ofList]

/-- **The text of a value is read as its tree**, to the end. -/
theorem parse_render (within : v.Within levels) : parse v.render = (v.doc, .finish) :=
  parse_of_spelled (spelled_render within)

/-- The tree of a value is stored where deeper levels are left than it has. -/
lemma storeFault?_doc (within : v.Within levels) (deep : levels < depth) :
    v.doc.storeFault? depth = none := by
  obtain ⟨depth, rfl⟩ := Nat.exists_eq_succ_of_ne_zero (Nat.ne_zero_of_lt deep)
  exact (storeFault?_eq_none ⟨levels, within.storable.within⟩).2 (within.mono (Nat.le_of_lt_succ deep)).storable

end TorrentHandle.Json
