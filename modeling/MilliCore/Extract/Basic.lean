import MilliCore.Store
import Mathlib.Data.List.Dedup
import Mathlib.Data.List.Lex
import Mathlib.Data.List.Sort

set_option autoImplicit false

namespace MilliCore.Extract
open MilliCore.Store

structure KvDelAdd (α : Type) where
  deletion : Option α
  addition : Option α
deriving DecidableEq

/-- A record of the `docid_word_positions` stream: its key `(document_id, fid)`, and on each side
    the `(position, word)` entries of the field, each position the `u16` key of a `KvReaderU16`
    entry read as the `u32` that `index_proximity` takes. -/
structure Record where
  documentId : DocumentId
  fid : FieldId
  value : KvDelAdd (List (ℕ × String))
deriving DecidableEq

inductive ProximityPrecision where
  | byWord
  | byAttribute
deriving DecidableEq

/-- Modelled from the spec (§4.6): `DisabledTyposTerms::is_exact`, the words whose typos are
    disabled. -/
structure DisabledTyposTerms where
  isExact : String → Bool

structure InnerIndexSettings where
  exactAttributes : Finset FieldId
  disabledTyposTerms : DisabledTyposTerms
  proximityPrecision : ProximityPrecision

def InnerIndexSettings.isExact (settings : InnerIndexSettings) (word : String) (fid : FieldId) :
    Bool :=
  decide (fid ∈ settings.exactAttributes) || settings.disabledTyposTerms.isExact word

structure InnerIndexSettingsDiff where
  old : InnerIndexSettings
  new : InnerIndexSettings
  settingsUpdateOnly : Bool

/-! ## Merge joins -/

inductive DelAdd where
  | deletion
  | addition
deriving DecidableEq

def KvDelAdd.get {α : Type} (value : KvDelAdd α) : DelAdd → Option α
  | .deletion => value.deletion
  | .addition => value.addition

def DelAdd.pick {α : Type} : DelAdd → α → α → α
  | .deletion, forDeletion, _ => forDeletion
  | .addition, _, forAddition => forAddition

inductive EitherOrBoth (α β : Type) where
  | left (a : α)
  | right (b : β)
  | both (a : α) (b : β)
deriving DecidableEq

def EitherOrBoth.item {α : Type} : EitherOrBoth α α → α
  | .left x | .right x | .both x _ => x

def EitherOrBoth.delAddValue {α β : Type} (documentId : DocumentId) :
    EitherOrBoth α β → KvDelAdd RoaringBitmap
  | .left _ => ⟨some {documentId}, none⟩
  | .right _ => ⟨none, some {documentId}⟩
  | .both _ _ => ⟨some {documentId}, some {documentId}⟩

/-- `itertools::merge_join_by` over the ascending iterators of two `BTreeSet`s or `BTreeMap`s,
    compared with `cmp` on whole items: each item of either collection comes out once, as `Both`
    when the other holds it too. The ascending order of the output is not modelled: both
    extractors only insert the elements into sorters that merge each key's values. -/
def mergeJoinBy {α : Type} [DecidableEq α] (xs ys : List α) : List (EitherOrBoth α α) :=
  xs.map (fun x => if x ∈ ys then .both x x else .left x) ++ (ys.filter (· ∉ xs)).map .right

theorem mem_mergeJoinBy {α : Type} [DecidableEq α] {xs ys : List α} (side : DelAdd) {x : α}
    {documentId d : DocumentId} :
    (∃ eob ∈ mergeJoinBy xs ys, eob.item = x ∧ d ∈ ((eob.delAddValue documentId).get side).getD ∅) ↔
      x ∈ side.pick xs ys ∧ d = documentId := by
  constructor
  · rintro ⟨eob, heob, rfl, hd⟩
    simp only [mergeJoinBy, List.mem_append, List.mem_map, List.mem_filter] at heob
    rcases heob with ⟨x, hx, rfl⟩ | ⟨y, hy, rfl⟩ <;> cases side <;>
      [split <;> simp_all [EitherOrBoth.item, EitherOrBoth.delAddValue, KvDelAdd.get, DelAdd.pick];
       split <;> simp_all [EitherOrBoth.item, EitherOrBoth.delAddValue, KvDelAdd.get, DelAdd.pick];
       simp [EitherOrBoth.delAddValue, KvDelAdd.get] at hd;
       simp_all [EitherOrBoth.item, EitherOrBoth.delAddValue, KvDelAdd.get, DelAdd.pick]]
  · rintro ⟨hx, rfl⟩
    cases side <;> simp only [DelAdd.pick] at hx
    · by_cases hy : x ∈ ys
      · exact ⟨.both x x, List.mem_append.2 (.inl (List.mem_map.2 ⟨x, hx, by simp [hy]⟩)), rfl,
          by simp [EitherOrBoth.delAddValue, KvDelAdd.get]⟩
      · exact ⟨.left x, List.mem_append.2 (.inl (List.mem_map.2 ⟨x, hx, by simp [hy]⟩)), rfl,
          by simp [EitherOrBoth.delAddValue, KvDelAdd.get]⟩
    · by_cases hy : x ∈ xs
      · exact ⟨.both x x, List.mem_append.2 (.inl (List.mem_map.2 ⟨x, hy, by simp [hx]⟩)), rfl,
          by simp [EitherOrBoth.delAddValue, KvDelAdd.get]⟩
      · exact ⟨.right x, List.mem_append.2 (.inr (List.mem_map.2 ⟨x, by simp [hx, hy], rfl⟩)),
          rfl, by simp [EitherOrBoth.delAddValue, KvDelAdd.get]⟩

/-! ## Sorters and the Del/Add union merge -/

/-- A `grenad::Sorter` merging with `MergeDeladdCboRoaringBitmaps`, as the entries inserted into
    it; a writer is the same list with each key once. -/
abbrev Sorter (κ : Type) := List (κ × KvDelAdd RoaringBitmap)

def mergeSide (bitmaps : List RoaringBitmap) : Option RoaringBitmap :=
  if bitmaps = [] then none else some (unionAll bitmaps)

/-- Modelled from the spec (§4.8): `MergeDeladdCboRoaringBitmaps` unions the deletion bitmaps and
    the addition bitmaps of one key's values. -/
def mergeDeladdCboRoaringBitmaps (values : List (KvDelAdd RoaringBitmap)) :
    KvDelAdd RoaringBitmap :=
  ⟨mergeSide (values.filterMap (·.deletion)), mergeSide (values.filterMap (·.addition))⟩

def Sorter.valuesOf {κ : Type} [DecidableEq κ] (sorter : Sorter κ) (key : κ) :
    List (KvDelAdd RoaringBitmap) :=
  (sorter.filter (·.1 = key)).map Prod.snd

/-- `into_stream_merger_iter`: each key once, with its values merged, in no particular order
    (`Sorter.writtenStream` orders it). -/
def Sorter.mergedStream {κ : Type} [DecidableEq κ] (sorter : Sorter κ) : Sorter κ :=
  (sorter.map Prod.fst).dedup.map fun key => (key, mergeDeladdCboRoaringBitmaps (sorter.valuesOf key))

/-- A merge-ready stream applied to the bitmaps stored under its keys: each key's values merged
    with the Del/Add union merge, then its deletions removed and its additions added. -/
def applyMerged {κ : Type} [DecidableEq κ] (stream : Sorter κ) (index : κ → RoaringBitmap)
    (key : κ) : RoaringBitmap :=
  let merged := mergeDeladdCboRoaringBitmaps (stream.valuesOf key)
  (index key \ merged.deletion.getD ∅) ∪ merged.addition.getD ∅

def Sorter.Holds {κ : Type} (sorter : Sorter κ) (side : DelAdd) (key : κ) (d : DocumentId) :
    Prop :=
  ∃ v, (key, v) ∈ sorter ∧ d ∈ (v.get side).getD ∅

section Merge
variable {κ : Type} {side : DelAdd} {key : κ} {d : DocumentId}

theorem mem_mergeSide_getD {bitmaps : List RoaringBitmap} :
    d ∈ (mergeSide bitmaps).getD ∅ ↔ ∃ b ∈ bitmaps, d ∈ b := by
  unfold mergeSide
  split
  · simp_all
  · simp

theorem mergeDeladdCboRoaringBitmaps_get (values : List (KvDelAdd RoaringBitmap)) :
    (mergeDeladdCboRoaringBitmaps values).get side = mergeSide (values.filterMap (·.get side)) := by
  cases side <;> rfl

theorem mem_merged [DecidableEq κ] {sorter : Sorter κ} :
    d ∈ ((mergeDeladdCboRoaringBitmaps (sorter.valuesOf key)).get side).getD ∅ ↔
      sorter.Holds side key d := by
  simp only [mergeDeladdCboRoaringBitmaps_get, mem_mergeSide_getD, Sorter.valuesOf, Sorter.Holds]
  constructor
  · rintro ⟨b, hb, hd⟩
    obtain ⟨v, hv, hvb⟩ := List.mem_filterMap.1 hb
    obtain ⟨⟨k, v⟩, hkv, rfl⟩ := List.mem_map.1 hv
    obtain ⟨hmem, hk⟩ := List.mem_filter.1 hkv
    obtain rfl : k = key := by simpa using hk
    exact ⟨v, hmem, by simpa [show v.get side = some b from hvb] using hd⟩
  · rintro ⟨v, hv, hd⟩
    cases h : v.get side with
    | none => simp [h] at hd
    | some b =>
      exact ⟨b, List.mem_filterMap.2 ⟨v, List.mem_map.2 ⟨(key, v), by simp [hv], rfl⟩, h⟩,
        by simpa [h] using hd⟩

theorem mem_applyMerged [DecidableEq κ] {stream : Sorter κ} {index : κ → RoaringBitmap} :
    d ∈ applyMerged stream index key ↔
      (d ∈ index key ∧ ¬stream.Holds .deletion key d) ∨ stream.Holds .addition key d := by
  simp only [applyMerged, Finset.mem_union, Finset.mem_sdiff, ← mem_merged]
  rfl

theorem mergedStream_holds [DecidableEq κ] {sorter : Sorter κ} :
    sorter.mergedStream.Holds side key d ↔ sorter.Holds side key d := by
  constructor
  · rintro ⟨v, hv, hd⟩
    obtain ⟨k, -, hk⟩ := List.mem_map.1 hv
    cases hk
    exact mem_merged.1 hd
  · intro h
    have ⟨v, hv, _⟩ := h
    exact ⟨_, List.mem_map.2 ⟨key, List.mem_dedup.2 (List.mem_map.2 ⟨_, hv, rfl⟩), rfl⟩,
      mem_merged.2 h⟩

@[simp] theorem Sorter.holds_append {s t : Sorter κ} :
    (s ++ t).Holds side key d ↔ s.Holds side key d ∨ t.Holds side key d := by
  simp only [Sorter.Holds, List.mem_append, or_and_right, exists_or]

theorem Sorter.holds_flatMap {α : Type} {l : List α} {g : α → Sorter κ} :
    Sorter.Holds (l.flatMap g) side key d ↔ ∃ x ∈ l, (g x).Holds side key d := by
  simp only [Sorter.Holds, List.mem_flatMap]
  exact ⟨fun ⟨v, ⟨x, hx, hv⟩, hd⟩ => ⟨x, hx, v, hv, hd⟩, fun ⟨x, hx, v, hv, hd⟩ => ⟨v, ⟨x, hx, hv⟩, hd⟩⟩

theorem Sorter.holds_singleton {key' : κ} {v : KvDelAdd RoaringBitmap} :
    Sorter.Holds [(key', v)] side key d ↔ key' = key ∧ d ∈ (v.get side).getD ∅ := by
  simp only [Sorter.Holds, List.mem_singleton, Prod.mk.injEq, and_assoc, @eq_comm _ key]
  exact ⟨fun ⟨_, hk, rfl, hd⟩ => ⟨hk, hd⟩, fun ⟨hk, hd⟩ => ⟨v, hk, rfl, hd⟩⟩

end Merge

theorem mem_mergedStream {κ : Type} [DecidableEq κ] {sorter : Sorter κ} {key : κ}
    {merged : KvDelAdd RoaringBitmap} :
    (key, merged) ∈ sorter.mergedStream ↔
      (∃ v, (key, v) ∈ sorter) ∧ merged = mergeDeladdCboRoaringBitmaps (sorter.valuesOf key) := by
  simp only [Sorter.mergedStream, List.mem_map, List.mem_dedup, Prod.mk.injEq]
  constructor
  · rintro ⟨k, ⟨⟨k', v⟩, hv, rfl⟩, rfl, rfl⟩
    exact ⟨⟨v, hv⟩, rfl⟩
  · rintro ⟨⟨v, hv⟩, rfl⟩
    exact ⟨key, ⟨_, hv, rfl⟩, rfl, rfl⟩

/-- `into_stream_merger_iter` as the sorter writes it: the merged stream in ascending order of
    the bytes of its keys, compared as LMDB and grenad compare them. -/
def Sorter.writtenStream {κ : Type} [DecidableEq κ] (keyBytes : κ → List ℕ) (sorter : Sorter κ) :
    Sorter κ :=
  sorter.mergedStream.insertionSort fun a b => keyBytes a.1 ≤ keyBytes b.1

section Written
variable {κ : Type} [DecidableEq κ] {keyBytes : κ → List ℕ} {sorter : Sorter κ}

theorem mem_writtenStream {entry : κ × KvDelAdd RoaringBitmap} :
    entry ∈ sorter.writtenStream keyBytes ↔ entry ∈ sorter.mergedStream :=
  (List.perm_insertionSort _ _).mem_iff

theorem writtenStream_holds {side : DelAdd} {key : κ} {d : DocumentId} :
    (sorter.writtenStream keyBytes).Holds side key d ↔ sorter.Holds side key d := by
  simp only [Sorter.Holds, mem_writtenStream]
  exact mergedStream_holds

theorem writtenStream_sorted (hinj : Function.Injective keyBytes) :
    ((sorter.writtenStream keyBytes).map fun e => keyBytes e.1).Sorted (· < ·) := by
  have : IsTotal (κ × KvDelAdd RoaringBitmap) fun a b => keyBytes a.1 ≤ keyBytes b.1 :=
    ⟨fun _ _ => le_total _ _⟩
  have : IsTrans (κ × KvDelAdd RoaringBitmap) fun a b => keyBytes a.1 ≤ keyBytes b.1 :=
    ⟨fun _ _ _ => le_trans⟩
  have hsorted : ((sorter.writtenStream keyBytes).map fun e => keyBytes e.1).Sorted (· ≤ ·) :=
    List.pairwise_map.2 (List.sorted_insertionSort _ _)
  have hkeys : ((sorter.writtenStream keyBytes).map Prod.fst).Nodup := by
    rw [Sorter.writtenStream, ((List.perm_insertionSort _ _).map Prod.fst).nodup_iff]
    simpa [Sorter.mergedStream, Function.comp_def] using List.nodup_dedup (sorter.map Prod.fst)
  exact hsorted.lt_of_le (by simpa only [List.map_map] using hkeys.map hinj)

end Written

/-- Deleting then adding rebuilds the bitmap of the new corpus when the deletions are the changed
    documents that held the key before, the additions the changed documents that hold it now, and
    no other document changed. -/
theorem rebuilt_of_deladd {changed inOld inNew deleted added : DocumentId → Prop}
    (hdel : ∀ d, deleted d ↔ changed d ∧ inOld d) (hadd : ∀ d, added d ↔ changed d ∧ inNew d)
    (hsame : ∀ d, ¬changed d → (inOld d ↔ inNew d)) (d : DocumentId) :
    (inOld d ∧ ¬deleted d) ∨ added d ↔ inNew d := by
  by_cases h : changed d <;> simp_all

end MilliCore.Extract
