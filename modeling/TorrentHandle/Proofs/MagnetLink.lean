import Mathlib.Data.List.Basic
import Mathlib.Data.List.Induction
import Mathlib.Data.Option.Basic
import Mathlib.Data.Prod.Basic
import TorrentHandle.MagnetLink
import TorrentHandle.Proofs.Text.Percent

/-!
What a magnet link says can be read off its text: no name or address, once encoded, has a separator
in it, so the text falls apart into the parameters that it was put together from.
-/

namespace TorrentHandle

open TorrentHandle.Text

/-! ### Order of trackers -/

/-- The addresses of trackers, tier by tier and in a tier as given. -/
def urlsByTier (trackers : List Tracker) : List String :=
  (List.range UInt8.size).flatMap fun tier =>
    (trackers.filter fun t => t.tier.toNat = tier).map (·.url)

section Ascending

variable {α : Type} {key : α → ℕ} {l : List α}

/-- In a list that ascends by a key, what has the key `n` comes after what has a lesser one. -/
lemma filter_lt_succ (ascending : l.Pairwise fun a b => key a ≤ key b) (n : ℕ) :
    (l.filter fun a => key a < n) ++ (l.filter fun a => key a = n) =
      l.filter fun a => key a < n + 1 := by
  induction ascending with
  | nil => rfl
  | @cons a l above ascending ih =>
    simp only [List.filter_cons, decide_eq_true_eq]
    by_cases less : key a < n
    · rw [if_pos less, if_neg (by omega), if_pos (by omega), List.cons_append, ih]
    · have none : (l.filter fun b => key b < n) = [] := by
        rw [List.filter_eq_nil_iff]
        intro b inside
        have := above b inside
        rw [decide_eq_true_eq]
        omega
      rw [none, List.nil_append] at ih
      rw [none, if_neg less, List.nil_append]
      by_cases last : key a = n
      · rw [if_pos last, if_pos (by omega), ih]
      · rw [if_neg last, if_neg (by omega), ih]

/-- So the list is what has the least key, then what has the next one, and so on. -/
lemma flatMap_filter_of_ascending (ascending : l.Pairwise fun a b => key a ≤ key b) (n : ℕ) :
    ((List.range n).flatMap fun k => l.filter fun a => key a = k) =
      l.filter fun a => key a < n := by
  induction n with
  | zero => simp
  | succ n ih =>
    rw [List.range_succ, List.flatMap_append, ih, List.flatMap_singleton, filter_lt_succ ascending]

end Ascending

lemma tier_trans (a b c : Tracker) (ab : decide (a.tier ≤ b.tier)) (bc : decide (b.tier ≤ c.tier)) :
    decide (a.tier ≤ c.tier) := by
  simp only [decide_eq_true_eq] at *
  exact UInt8.le_trans ab bc

lemma tier_total (a b : Tracker) : decide (a.tier ≤ b.tier) || decide (b.tier ≤ a.tier) := by
  simpa using UInt8.le_total a.tier b.tier

lemma filter_mergeSort (trackers : List Tracker) (tier : ℕ) :
    ((trackers.mergeSort fun a b => a.tier ≤ b.tier).filter fun t => t.tier.toNat = tier) =
      trackers.filter fun t => t.tier.toNat = tier := by
  have level : (trackers.filter fun t => t.tier.toNat = tier).Pairwise fun a b =>
      decide (a.tier ≤ b.tier) := by
    refine List.pairwise_of_forall_mem_list ?_
    intro a inA b inB
    simp only [List.mem_filter, decide_eq_true_eq] at *
    rw [UInt8.le_iff_toNat_le]
    omega
  have kept := (List.sublist_mergeSort tier_trans tier_total level List.filter_sublist).filter
    fun t => decide (t.tier.toNat = tier)
  rw [List.filter_filter] at kept
  simp only [Bool.and_self] at kept
  exact (kept.eq_of_length ((List.mergeSort_perm _ _).symm.filter _).length_eq).symm

/-- Trackers in the order they are to be tried: no tier comes after a higher one, and those of each
tier stand as they were given. -/
structure ByTier (trackers ordered : List Tracker) : Prop where
  perm : ordered.Perm trackers
  ascending : ordered.Pairwise fun a b => a.tier ≤ b.tier
  stable : ∀ tier, (ordered.filter fun t => t.tier = tier) = trackers.filter fun t => t.tier = tier

lemma byTier_mergeSort (trackers : List Tracker) :
    ByTier trackers (trackers.mergeSort fun a b => a.tier ≤ b.tier) where
  perm := List.mergeSort_perm _ _
  ascending := (List.pairwise_mergeSort tier_trans tier_total trackers).imp of_decide_eq_true
  stable tier := by simpa [UInt8.toNat_inj] using filter_mergeSort trackers tier.toNat

/-- **Trackers are taken tier by tier**, and in a tier as they were given. -/
theorem map_url_mergeSort (trackers : List Tracker) :
    (trackers.mergeSort fun a b => a.tier ≤ b.tier).map (·.url) = urlsByTier trackers := by
  have ascending := (List.pairwise_mergeSort tier_trans tier_total trackers).imp
    fun {a b} le => UInt8.le_iff_toNat_le.1 (of_decide_eq_true le)
  have parts := flatMap_filter_of_ascending ascending UInt8.size
  rw [List.filter_eq_self.2 fun t _ => decide_eq_true t.tier.toNat_lt] at parts
  simp only [filter_mergeSort] at parts
  rw [← parts, List.map_flatMap]
  rfl

namespace MagnetLink

/-! ### Text and parameters -/

/-- The parameters in the text of a link: what stands between two separators is one, with the key
up to the first equals sign and, decoded, the value after it. -/
def parameters (text : String) : List (String × Option String) :=
  (text.toList.splitOn '&').map fun part =>
    (String.ofList (part.takeWhile (· ≠ '=')),
      Percent.decode? ((part.dropWhile (· ≠ '=')).drop 1))

/-- A key with an encoded value, as they stand in the text. -/
def pairChars (pair : String × List Char) : List Char := pair.1.toList ++ '=' :: pair.2

lemma intercalate_cons (sep : Char) (part : List Char) (parts : List (List Char)) :
    [sep].intercalate (part :: parts) = part ++ parts.flatMap (sep :: ·) := by
  induction parts generalizing part with
  | nil => simp
  | cons next parts ih =>
    rw [List.intercalate_cons_cons, ih, List.flatMap_cons]
    simp

/-- No separator is in the key, nor the one between parameters in the value. -/
structure Separable (pair : String × List Char) : Prop where
  key : '&' ∉ pair.1.toList ∧ '=' ∉ pair.1.toList
  value : '&' ∉ pair.2

/-- Joined parameters are told apart again. -/
lemma parameters_intercalate {pairs : List (String × List Char)} (some : pairs ≠ [])
    (separable : ∀ pair ∈ pairs, Separable pair) :
    parameters (String.ofList (['&'].intercalate (pairs.map pairChars))) =
      pairs.map fun pair => (pair.1, Percent.decode? pair.2) := by
  rw [parameters, String.toList_ofList, List.splitOn_intercalate, List.map_map]
  · refine List.map_congr_left fun pair inside => ?_
    have plain : ∀ c ∈ pair.1.toList, decide (c ≠ '=') = true := by
      intro c there
      rw [decide_eq_true_eq]
      rintro rfl
      exact (separable pair inside).key.2 there
    simp only [Function.comp_apply, pairChars, List.takeWhile_append_of_pos plain,
      List.dropWhile_append_of_pos plain]
    simp
  · intro part inside
    obtain ⟨pair, there, rfl⟩ := List.mem_map.1 inside
    simp [pairChars, (separable pair there).key.1, (separable pair there).value]
  · simpa using some

/-- The keys of a link with their encoded values. -/
def pairs (link : MagnetLink) : List (String × List Char) :=
  ("magnet:?xt", ("urn:btih:" ++ link.infoHash.toHex).toList) ::
    (link.name.toList.map fun name => ("dn", Percent.encode name)) ++
    link.trackers.map fun url => ("tr", Percent.encode url)

/-- What a link says: the key of each parameter with its value. -/
def facts (link : MagnetLink) : List (String × String) :=
  ("magnet:?xt", "urn:btih:" ++ link.infoHash.toHex) :: (link.name.toList.map ("dn", ·)) ++
    link.trackers.map ("tr", ·)

lemma plain_hash (hash : InfoHash) : '&' ∉ ("urn:btih:" ++ hash.toHex).toList ∧
    '%' ∉ ("urn:btih:" ++ hash.toHex).toList := by
  simp only [String.toList_append, List.mem_append, not_or]
  have none : ['&', '%'].all fun c => (Hex.digitValue? c).isNone := by decide
  have digits : ∀ c ∈ ['&', '%'], c ∉ hash.toHex.toList := by
    intro c separator inside
    have digit := InfoHash.mem_toHex inside
    rw [Option.isNone_iff_eq_none.1 (List.all_eq_true.1 none c separator)] at digit
    cases digit
  exact ⟨⟨by decide, digits _ (by decide)⟩, by decide, digits _ (by decide)⟩

lemma separable_of_mem {link : MagnetLink} {pair : String × List Char}
    (inside : pair ∈ link.pairs) : Separable pair := by
  have keys : ∀ key ∈ ["magnet:?xt", "dn", "tr"], '&' ∉ key.toList ∧ '=' ∉ key.toList := by decide
  have encoded : ∀ s, '&' ∉ Percent.encode s := by
    intro s inside
    have := Percent.mem_encode inside
    revert this
    decide
  simp only [pairs, List.cons_append, List.mem_cons, List.mem_append, List.mem_map] at inside
  obtain rfl | ⟨name, -, rfl⟩ | ⟨url, -, rfl⟩ := inside
  · exact ⟨keys _ (by simp), (plain_hash link.infoHash).1⟩
  · exact ⟨keys _ (by simp), encoded name⟩
  · exact ⟨keys _ (by simp), encoded url⟩

lemma parameter_eq (key : String) :
    parameter key = fun value => '&' :: pairChars (key, Percent.encode value) := rfl

lemma chars_eq_append (link : MagnetLink) : link.chars =
    "magnet:?xt=urn:btih:".toList ++ link.infoHash.toHex.toList ++
      link.name.toList.flatMap (parameter "dn") ++ link.trackers.flatMap (parameter "tr") := by
  obtain ⟨hash, _ | name, urls⟩ := link
  · rfl
  · rw [Option.toList_some, List.flatMap_singleton]
    rfl

lemma chars_eq (link : MagnetLink) :
    link.chars = ['&'].intercalate (link.pairs.map pairChars) := by
  have head : "magnet:?xt=urn:btih:".toList = "magnet:?xt".toList ++ '=' :: "urn:btih:".toList := by
    decide
  have hash : pairChars ("magnet:?xt", ("urn:btih:" ++ link.infoHash.toHex).toList) =
      "magnet:?xt=urn:btih:".toList ++ link.infoHash.toHex.toList := by
    rw [head, pairChars, String.toList_append, List.append_assoc, List.cons_append]
  rw [chars_eq_append, pairs, List.cons_append, List.map_cons, intercalate_cons, hash,
    List.map_append, List.flatMap_append, List.append_assoc]
  rw [parameter_eq, parameter_eq]
  simp only [List.flatMap_map]

/-- **A link is read back from its text**, parameter by parameter. -/
theorem parameters_render (link : MagnetLink) :
    parameters link.render = link.facts.map (Prod.map id some) := by
  have pairs : parameters link.render =
      link.pairs.map fun pair => (pair.1, Percent.decode? pair.2) := by
    rw [render, chars_eq]
    exact parameters_intercalate (List.cons_ne_nil _ _) fun _ => separable_of_mem
  have hash := Percent.decode?_of_plain (plain_hash link.infoHash).2
  simp only [pairs, MagnetLink.pairs, facts, List.map_append, List.map_cons, List.map_map, hash]
  simp only [Function.comp_def, Percent.decode?_encode, Prod.map_apply, id]

/-! ### Building -/

/-- A step in building a link. -/
inductive Edit where
  | withName (name : String)
  | withTrackers (trackers : List Tracker)

def Edit.apply (link : MagnetLink) : Edit → MagnetLink
  | withName name => link.withName name
  | withTrackers trackers => link.withTrackers trackers

/-- The link of a hash after some steps. -/
def build (hash : InfoHash) (edits : List Edit) : MagnetLink :=
  edits.foldl Edit.apply { infoHash := hash }

def Edit.name? : Edit → Option String
  | withName name => some name
  | withTrackers _ => none

def Edit.trackers? : Edit → Option (List Tracker)
  | withName _ => none
  | withTrackers trackers => some trackers

/-- The name last given, unless it is empty. -/
def lastName? (edits : List Edit) : Option String :=
  (edits.filterMap Edit.name?).getLast?.filter (· ≠ "")

/-- The addresses of the trackers last given, in the order they are to be tried. -/
def lastUrls (edits : List Edit) : List String :=
  urlsByTier ((edits.filterMap Edit.trackers?).getLastD [])

lemma build_eq (hash : InfoHash) (edits : List Edit) :
    build hash edits = ⟨hash, lastName? edits, lastUrls edits⟩ := by
  induction edits using List.reverseRecOn with
  | nil => simp [build, lastName?, lastUrls, urlsByTier]
  | append_singleton edits edit ih =>
    rw [build, List.foldl_append, ← build, ih]
    cases edit with
    | withName name =>
      have given : lastName? (edits ++ [.withName name]) =
          if name.isEmpty then none else some name := by
        simp [lastName?, Edit.name?, Option.filter_some]
      simp [given, Edit.apply, withName, lastUrls, Edit.trackers?]
    | withTrackers trackers =>
      have given : lastUrls (edits ++ [.withTrackers trackers]) = urlsByTier trackers := by
        simp [lastUrls, Edit.trackers?]
      simp [given, Edit.apply, withTrackers, map_url_mergeSort, lastName?, Edit.name?]

/-- The values that parameters of one key have. -/
def valuesOf (key : String) (facts : List (String × String)) : List String :=
  (facts.filter fun fact => fact.1 = key).map Prod.snd

lemma valuesOf_facts (link : MagnetLink) :
    valuesOf "magnet:?xt" link.facts = ["urn:btih:" ++ link.infoHash.toHex] ∧
    valuesOf "dn" link.facts = link.name.toList ∧ valuesOf "tr" link.facts = link.trackers := by
  simp [valuesOf, facts, List.filter_map, Function.comp_def, List.filter_true, List.filter_false]

lemma facts_injective : facts.Injective := by
  rintro ⟨hash, name, urls⟩ ⟨hash', name', urls'⟩ same
  obtain ⟨hashes, names, sameUrls⟩ := valuesOf_facts ⟨hash, name, urls⟩
  obtain ⟨hashes', names', sameUrls'⟩ := valuesOf_facts ⟨hash', name', urls'⟩
  rw [same] at hashes names sameUrls
  obtain rfl : hash = hash' := by
    refine InfoHash.toHex_injective ((String.append_right_inj "urn:btih:").1 ?_)
    exact List.singleton_inj.1 (hashes.symm.trans hashes')
  obtain rfl : name = name' := by
    have first := congrArg List.head? (names.symm.trans names')
    rwa [Option.head?_toList, Option.head?_toList] at first
  obtain rfl : urls = urls' := sameUrls.symm.trans sameUrls'
  rfl

/-- **Links lose nothing and are not confused.** Two links have one text just if they have one hash,
one name and the same addresses in order, and all of these are read off the text. -/
theorem links_told_apart (hash hash' : InfoHash) (edits edits' : List Edit) :
    ((build hash edits).render = (build hash' edits').render ↔
      hash = hash' ∧ lastName? edits = lastName? edits' ∧ lastUrls edits = lastUrls edits') ∧
    parameters (build hash edits).render =
      ("magnet:?xt", some ("urn:btih:" ++ hash.toHex)) ::
        ((lastName? edits).toList.map fun name => ("dn", some name)) ++
        ((lastUrls edits).map fun url => ("tr", some url)) ∧
    hash.toHex.length = 40 ∧ InfoHash.ofHex? hash.toHex = some hash := by
  refine ⟨⟨?_, ?_⟩, ?_, InfoHash.length_toHex, InfoHash.ofHex?_toHex⟩
  · intro same
    have read := congrArg parameters same
    rw [parameters_render, parameters_render] at read
    have keep : (Prod.map id some : String × String → String × Option String).Injective :=
      Function.injective_id.prodMap (Option.some_injective _)
    have said := facts_injective (keep.list_map read)
    rw [build_eq, build_eq] at said
    exact MagnetLink.mk.inj said
  · rintro ⟨rfl, name, urls⟩
    rw [build_eq, build_eq, name, urls]
  · rw [parameters_render, build_eq]
    simp [facts, Function.comp_def]

end MagnetLink

end TorrentHandle
