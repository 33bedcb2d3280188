import TorrentHandle.Json.Document
import TorrentHandle.Proofs.Json.Spelling

/-!
Complete trees and the texts that spell them. A tree has its tokens in text order, and a text that
spells these, in whatever way, is read as the tree. A complete tree can be skipped; it can be stored
for later if it is not too deep and if none of its numbers and texts is beyond what can be kept.
-/

namespace TorrentHandle.Json

variable {levels depth : ℕ} {d : Doc} {frames : List Frame} {ts : List Token} {s : String}

mutual

def Doc.tokens : Doc → List Token
  | .null => [.null]
  | .bool b => [.bool b]
  | .number n => [.number n]
  | .text s => [.text s]
  | .loneSurrogate => [.loneSurrogate]
  | .list [] _ => [.openList, .closeList]
  | .list (d :: rest) _ => .openList :: (d.tokens ++ laterTokens rest)
  | .record [] _ => [.openRecord, .closeRecord]
  | .record ((name, d) :: rest) _ =>
    .openRecord :: name :: .colon :: (d.tokens ++ laterMemberTokens rest)
  | .gap t => [t]

/-- The tokens of the items after the first, and the closing bracket. -/
def laterTokens : List Doc → List Token
  | [] => [.closeList]
  | d :: rest => .comma :: (d.tokens ++ laterTokens rest)

/-- The tokens of the members after the first, and the closing bracket. -/
def laterMemberTokens : List (Token × Doc) → List Token
  | [] => [.closeRecord]
  | (name, d) :: rest => .comma :: name :: .colon :: (d.tokens ++ laterMemberTokens rest)

end

/-- A text in quotes, whatever its escapes stand for. -/
def Token.IsName (t : Token) : Prop := t = .loneSurrogate ∨ ∃ s, t = .text s

/-- The tree is complete and has lists and records in at most so many levels. -/
inductive Doc.Within : ℕ → Doc → Prop where
  | null {levels : ℕ} : Within levels .null
  | bool {levels : ℕ} (b : Bool) : Within levels (.bool b)
  | number {levels : ℕ} (n : Number) : Within levels (.number n)
  | text {levels : ℕ} (s : String) : Within levels (.text s)
  | loneSurrogate {levels : ℕ} : Within levels .loneSurrogate
  | list {levels : ℕ} {items : List Doc} (each : ∀ d ∈ items, Within levels d) :
    Within (levels + 1) (.list items .closed)
  | record {levels : ℕ} {members : List (Token × Doc)} (names : ∀ m ∈ members, m.1.IsName)
    (each : ∀ m ∈ members, Within levels m.2) : Within (levels + 1) (.record members .closed)

/-- The tree has no gap and every list and record is closed. -/
def Doc.Complete (d : Doc) : Prop := ∃ levels, d.Within levels

/-- The text is one of the tree, with blanks and escapes in whatever places. -/
structure Doc.Spelled (d : Doc) (s : String) : Prop where
  complete : d.Complete
  spells : Spells d.tokens s.toList

lemma Doc.Complete.items {items : List Doc} {ending : Ending}
    (complete : (Doc.list items ending).Complete) : ending = .closed ∧ ∀ d ∈ items, d.Complete := by
  obtain ⟨_, within⟩ := complete
  cases within with
  | list each => exact ⟨rfl, fun d there => ⟨_, each d there⟩⟩

lemma Doc.Complete.members {members : List (Token × Doc)} {ending : Ending}
    (complete : (Doc.record members ending).Complete) :
    ending = .closed ∧ ∀ m ∈ members, m.1.IsName ∧ m.2.Complete := by
  obtain ⟨_, within⟩ := complete
  cases within with
  | record names each => exact ⟨rfl, fun m there => ⟨names m there, _, each m there⟩⟩

/-! ### Tokens in a row -/

lemma isChain_mark {t : Token} (mark : t.IsMark) (chain : ts.IsChain Apart) :
    (t :: ts).IsChain Apart :=
  List.isChain_cons.2 ⟨fun _ _ => .inl mark, chain⟩

lemma isChain_append_mark {ts' : List Token} (chain : ts.IsChain Apart)
    (chain' : ts'.IsChain Apart) (mark : ∀ t ∈ ts'.head?, t.IsMark) :
    (ts ++ ts').IsChain Apart :=
  List.isChain_append.2 ⟨chain, chain', fun _ _ t first => .inr (mark t first)⟩

lemma isMark_of_listed {t : Token} (listed : t ∈ marks.map Prod.snd) : t.IsMark := by
  obtain ⟨⟨c, _⟩, there, rfl⟩ := List.mem_map.1 listed
  exact ⟨c, there⟩

lemma laterTokens_begin {items : List Doc} : ∀ t ∈ (laterTokens items).head?, t.IsMark := by
  cases items <;> (rintro _ ⟨⟩; exact isMark_of_listed (by decide))

lemma laterMemberTokens_begin {members : List (Token × Doc)} :
    ∀ t ∈ (laterMemberTokens members).head?, t.IsMark := by
  cases members <;> (rintro _ ⟨⟩; exact isMark_of_listed (by decide))

lemma isChain_laterTokens {items : List Doc} (each : ∀ d ∈ items, d.tokens.IsChain Apart) :
    (laterTokens items).IsChain Apart := by
  induction items with
  | nil => exact .singleton _
  | cons d items ih =>
    obtain ⟨first, others⟩ := List.forall_mem_cons.1 each
    exact isChain_mark (isMark_of_listed (by decide))
      (isChain_append_mark first (ih others) laterTokens_begin)

lemma isChain_member {name : Token} {ts' : List Token} (chain : ts.IsChain Apart)
    (chain' : ts'.IsChain Apart) (mark : ∀ t ∈ ts'.head?, t.IsMark) :
    (name :: .colon :: (ts ++ ts')).IsChain Apart := by
  have colon : Token.colon.IsMark := isMark_of_listed (by decide)
  have value := isChain_mark colon (isChain_append_mark chain chain' mark)
  refine List.isChain_cons.2 ⟨?_, value⟩
  rintro _ ⟨⟩
  exact .inr colon

lemma isChain_laterMemberTokens {members : List (Token × Doc)}
    (each : ∀ m ∈ members, m.2.tokens.IsChain Apart) :
    (laterMemberTokens members).IsChain Apart := by
  induction members with
  | nil => exact .singleton _
  | cons m members ih =>
    obtain ⟨first, others⟩ := List.forall_mem_cons.1 each
    exact isChain_mark (isMark_of_listed (by decide))
      (isChain_member first (ih others) laterMemberTokens_begin)

/-- Of two tokens in a row in a tree one is punctuation. -/
lemma isChain_tokens (within : d.Within levels) : d.tokens.IsChain Apart := by
  induction within with
  | null | bool | number | text | loneSurrogate => simp [Doc.tokens]
  | @list _ items _ each =>
    cases items with
    | nil => exact isChain_mark (isMark_of_listed (by decide)) (.singleton _)
    | cons d items =>
      obtain ⟨first, others⟩ := List.forall_mem_cons.1 each
      exact isChain_mark (isMark_of_listed (by decide))
        (isChain_append_mark first (isChain_laterTokens others) laterTokens_begin)
  | @record _ members _ _ each =>
    cases members with
    | nil => exact isChain_mark (isMark_of_listed (by decide)) (.singleton _)
    | cons m members =>
      obtain ⟨first, others⟩ := List.forall_mem_cons.1 each
      exact isChain_mark (isMark_of_listed (by decide))
        (isChain_member first (isChain_laterMemberTokens others) laterMemberTokens_begin)

/-! ### From tokens -/

/-- The tokens of the tree are put together to it wherever a value is expected. -/
def Doc.Built (d : Doc) : Prop :=
  ∀ frames ts, assemble frames .value (d.tokens ++ ts) = assemble frames (.after d) ts

lemma assemble_later {items : List Doc} (each : ∀ d ∈ items, d.Built) (done : List Doc) (d : Doc) :
    assemble (.list done :: frames) (.after d) (laterTokens items ++ ts) =
      assemble frames (.after (.list ((d :: done).reverse ++ items) .closed)) ts := by
  induction items generalizing done d with
  | nil => simp [laterTokens, assemble]
  | cons d' items ih =>
    obtain ⟨first, others⟩ := List.forall_mem_cons.1 each
    rw [laterTokens, List.cons_append, List.append_assoc, assemble, first, ih others]
    simp

lemma assemble_name {name : Token} (isName : name.IsName) (done : List (Token × Doc)) :
    assemble frames (.name done) (name :: .colon :: ts) =
      assemble (.record done name :: frames) .value ts := by
  obtain rfl | ⟨s, rfl⟩ := isName <;> simp only [assemble]

lemma assemble_laterMembers {members : List (Token × Doc)} (names : ∀ m ∈ members, m.1.IsName)
    (each : ∀ m ∈ members, m.2.Built) (done : List (Token × Doc)) (name : Token) (d : Doc) :
    assemble (.record done name :: frames) (.after d) (laterMemberTokens members ++ ts) =
      assemble frames (.after (.record (((name, d) :: done).reverse ++ members) .closed)) ts := by
  induction members generalizing done name d with
  | nil => simp [laterMemberTokens, assemble]
  | cons m members ih =>
    obtain ⟨first, others⟩ := List.forall_mem_cons.1 each
    obtain ⟨isName, names⟩ := List.forall_mem_cons.1 names
    simp only [laterMemberTokens, List.cons_append, List.append_assoc]
    rw [assemble, assemble_name isName, first, ih names others]
    simp

theorem built_of_within (within : d.Within levels) : d.Built := by
  induction within with
  | null | bool | number | text | loneSurrogate =>
    intro frames ts
    simp [Doc.tokens, assemble]
  | @list _ items _ each =>
    intro frames ts
    cases items with
    | nil => simp [Doc.tokens, assemble]
    | cons d items =>
      obtain ⟨first, others⟩ := List.forall_mem_cons.1 each
      rw [Doc.tokens, List.cons_append, List.append_assoc, assemble, first, assemble_later others]
      rfl
  | @record _ members names _ each =>
    intro frames ts
    cases members with
    | nil => simp [Doc.tokens, assemble]
    | cons m members =>
      obtain ⟨first, others⟩ := List.forall_mem_cons.1 each
      obtain ⟨isName, names⟩ := List.forall_mem_cons.1 names
      simp only [Doc.tokens, List.cons_append, List.append_assoc]
      rw [assemble, assemble_name isName, first, assemble_laterMembers names others]
      rfl

/-- **A text that spells a tree is read as it**, to the end. -/
theorem parse_of_spelled (spelled : d.Spelled s) : parse s = (d, .finish) := by
  obtain ⟨⟨levels, within⟩, spells⟩ := spelled
  rw [parse, tokens_of_spells spells (isChain_tokens within), built_of_within within]
  rfl

/-! ### Skipping and storing -/

lemma skipFault?_of_complete (complete : d.Complete) : d.skipFault? = none := by
  obtain ⟨_, within⟩ := complete
  cases within <;> simp [Doc.skipFault?]

lemma deeper_of_lt (deep : levels + 1 < depth) :
    ∃ inside, deeper depth = .ok inside ∧ levels < inside := by
  obtain ⟨depth, rfl⟩ : ∃ d, depth = d + 2 := ⟨depth - 2, by omega⟩
  exact ⟨depth + 1, rfl, by omega⟩

/-- The tree can be stored within so many levels: it is not too deep, its numbers are in range and
the escapes of its texts and names stand for characters. -/
structure Doc.Storable (levels : ℕ) (d : Doc) : Prop where
  within : d.Within levels
  inRange : .number .outOfRange ∉ d.tokens
  paired : .loneSurrogate ∉ d.tokens

section Tokens

variable {t : Token} (unmarked : ¬ t.IsMark)

include unmarked

lemma ne_of_unmarked : t ∉ marks.map Prod.snd := fun listed => unmarked (isMark_of_listed listed)

lemma mem_laterTokens {items : List Doc} :
    t ∈ laterTokens items ↔ ∃ d ∈ items, t ∈ d.tokens := by
  have other := ne_of_unmarked unmarked
  simp only [marks, List.map_cons, List.map_nil, List.mem_cons, not_or] at other
  induction items with
  | nil => simp [laterTokens, other]
  | cons d items ih => simp [laterTokens, other, ih]

lemma mem_laterMemberTokens {members : List (Token × Doc)} :
    t ∈ laterMemberTokens members ↔ ∃ m ∈ members, t = m.1 ∨ t ∈ m.2.tokens := by
  have other := ne_of_unmarked unmarked
  simp only [marks, List.map_cons, List.map_nil, List.mem_cons, not_or] at other
  induction members with
  | nil => simp [laterMemberTokens, other]
  | cons m members ih => simp [laterMemberTokens, other, ih, or_assoc]

lemma mem_tokens_list {items : List Doc} {ending : Ending} :
    t ∈ (Doc.list items ending).tokens ↔ ∃ d ∈ items, t ∈ d.tokens := by
  have other := ne_of_unmarked unmarked
  simp only [marks, List.map_cons, List.map_nil, List.mem_cons, not_or] at other
  cases items <;> simp [Doc.tokens, other, mem_laterTokens unmarked]

lemma mem_tokens_record {members : List (Token × Doc)} {ending : Ending} :
    t ∈ (Doc.record members ending).tokens ↔ ∃ m ∈ members, t = m.1 ∨ t ∈ m.2.tokens := by
  have other := ne_of_unmarked unmarked
  simp only [marks, List.map_cons, List.map_nil, List.mem_cons, not_or] at other
  cases members <;> simp [Doc.tokens, other, mem_laterMemberTokens unmarked, or_assoc]

end Tokens

lemma not_isMark_number (n : Number) : ¬ (Token.number n).IsMark := by simp [Token.IsMark, marks]

lemma not_isMark_loneSurrogate : ¬ Token.loneSurrogate.IsMark := by simp [Token.IsMark, marks]

namespace Doc

lemma storable_null : null.Storable levels := ⟨.null, by simp [tokens], by simp [tokens]⟩

lemma storable_bool (b : Bool) : (bool b).Storable levels :=
  ⟨.bool b, by simp [tokens], by simp [tokens]⟩

lemma storable_number {n : Number} (inRange : n ≠ .outOfRange) : (number n).Storable levels :=
  ⟨.number n, by simpa [tokens] using inRange.symm, by simp [tokens]⟩

lemma storable_text (s : String) : (text s).Storable levels :=
  ⟨.text s, by simp [tokens], by simp [tokens]⟩

lemma storable_list {items : List Doc} : (list items .closed).Storable levels ↔
    ∃ inside, levels = inside + 1 ∧ ∀ d ∈ items, d.Storable inside := by
  have inRange : _ ∈ (list items .closed).tokens ↔ _ :=
    mem_tokens_list (not_isMark_number .outOfRange)
  have paired : _ ∈ (list items .closed).tokens ↔ _ :=
    mem_tokens_list not_isMark_loneSurrogate
  constructor
  · rintro ⟨within, inRange', paired'⟩
    cases within with
    | list each =>
      refine ⟨_, rfl, fun d there => ⟨each d there, fun here => ?_, fun here => ?_⟩⟩
      · exact inRange' (inRange.2 ⟨d, there, here⟩)
      · exact paired' (paired.2 ⟨d, there, here⟩)
  · rintro ⟨inside, rfl, each⟩
    refine ⟨.list fun d there => (each d there).within, fun here => ?_, fun here => ?_⟩
    · obtain ⟨d, there, here⟩ := inRange.1 here
      exact (each d there).inRange here
    · obtain ⟨d, there, here⟩ := paired.1 here
      exact (each d there).paired here

lemma storable_record {members : List (Token × Doc)} (names : ∀ m ∈ members, m.1.IsName) :
    (record members .closed).Storable levels ↔ ∃ inside, levels = inside + 1 ∧
      ∀ m ∈ members, m.1 ≠ .loneSurrogate ∧ m.2.Storable inside := by
  have inRange : _ ∈ (record members .closed).tokens ↔ _ :=
    mem_tokens_record (not_isMark_number .outOfRange)
  have paired : _ ∈ (record members .closed).tokens ↔ _ :=
    mem_tokens_record not_isMark_loneSurrogate
  constructor
  · rintro ⟨within, inRange', paired'⟩
    cases within with
    | record _ each =>
      refine ⟨_, rfl, fun m there => ⟨fun same => ?_, each m there, fun here => ?_, fun here => ?_⟩⟩
      · exact paired' (paired.2 ⟨m, there, .inl same.symm⟩)
      · exact inRange' (inRange.2 ⟨m, there, .inr here⟩)
      · exact paired' (paired.2 ⟨m, there, .inr here⟩)
  · rintro ⟨inside, rfl, each⟩
    refine ⟨.record names fun m there => (each m there).2.within, fun here => ?_, fun here => ?_⟩
    · obtain ⟨m, there, here | here⟩ := inRange.1 here
      · obtain name | ⟨s, name⟩ := names m there <;> exact nomatch here.trans name
      · exact (each m there).2.inRange here
    · obtain ⟨m, there, here | here⟩ := paired.1 here
      · exact (each m there).1 here.symm
      · exact (each m there).2.paired here

end Doc

lemma itemsStoreFault?_eq_none {items : List Doc} :
    itemsStoreFault? depth items = none ↔ ∀ d ∈ items, d.storeFault? depth = none := by
  induction items with
  | nil => simp [itemsStoreFault?]
  | cons d items ih => simp [itemsStoreFault?, ih]

lemma membersStoreFault?_eq_none {members : List (Token × Doc)}
    (names : ∀ m ∈ members, m.1.IsName) : membersStoreFault? depth members = none ↔
      ∀ m ∈ members, m.1 ≠ .loneSurrogate ∧ m.2.storeFault? depth = none := by
  induction members with
  | nil => simp [membersStoreFault?]
  | cons m members ih =>
    obtain ⟨name, d⟩ := m
    obtain ⟨rfl | ⟨s, rfl⟩, others⟩ := List.forall_mem_cons.1 names
    · simp [membersStoreFault?]
    · rw [membersStoreFault?, Option.or_eq_none_iff, ih others, List.forall_mem_cons]
      simp

theorem storeFault?_eq_none (complete : d.Complete) :
    d.storeFault? (levels + 1) = none ↔ d.Storable levels := by
  obtain ⟨_, within⟩ := complete
  induction within generalizing levels with
  | null => exact ⟨fun _ => Doc.storable_null, fun _ => rfl⟩
  | bool b => exact ⟨fun _ => Doc.storable_bool b, fun _ => rfl⟩
  | text s => exact ⟨fun _ => Doc.storable_text s, fun _ => rfl⟩
  | loneSurrogate => exact ⟨nofun, fun storable => absurd storable.paired (by simp [Doc.tokens])⟩
  | number n =>
    cases n with
    | outOfRange => exact ⟨nofun, fun storable => absurd storable.inRange (by simp [Doc.tokens])⟩
    | _ => exact ⟨fun _ => Doc.storable_number nofun, fun _ => rfl⟩
  | @list _ items _ ih =>
    rw [Doc.storable_list, Doc.storeFault?]
    cases levels with
    | zero => exact ⟨nofun, nofun⟩
    | succ inside =>
      simp only [deeper, Ending.fault?, Option.or_none, itemsStoreFault?_eq_none,
        Nat.add_right_cancel_iff, exists_eq_left']
      exact forall₂_congr fun d there => ih d there
  | @record _ members names _ ih =>
    rw [Doc.storable_record names, Doc.storeFault?]
    cases levels with
    | zero => exact ⟨nofun, nofun⟩
    | succ inside =>
      simp only [deeper, Ending.fault?, Option.or_none, membersStoreFault?_eq_none names,
        Nat.add_right_cancel_iff, exists_eq_left']
      exact forall₂_congr fun m there => and_congr_right fun _ => ih m there

end TorrentHandle.Json
