import MilliCore.Search.Evaluate
import MilliCore.Utf8

set_option autoImplicit false

namespace MilliCore.Store
open MilliCore.Utf8

/-! ## The key bytes of a string facet

`prefix_iter` scans the keys whose bytes start with the bytes of its base key, and
`FacetGroupKeyCodec` writes a key as the field id in two big-endian bytes, the level byte, then
the bytes of the left bound. The model's `FacetDb.prefixIter` compares fields, levels and
characters; it is that byte scan (`FacetDb.prefixIter_eq_scan`). -/

def FacetGroupKey.bytesEncode (key : FacetGroupKey String) : List ℕ :=
  [key.fieldId.toNat / 256, key.fieldId.toNat % 256, key.level.toNat] ++ asBytes key.leftBound

/-- The three header bytes fix the field and the level: a base key's bytes open a key's bytes
    exactly when both have the same field and level and the base bound opens the key's bound. -/
theorem FacetGroupKey.bytesEncode_prefix_iff {base key : FacetGroupKey String} :
    base.bytesEncode <+: key.bytesEncode ↔ key.fieldId = base.fieldId ∧
      key.level = base.level ∧ base.leftBound.toList <+: key.leftBound.toList := by
  have hbase : base.fieldId.toNat < 65536 := base.fieldId.toNat_lt_size
  have hkey : key.fieldId.toNat < 65536 := key.fieldId.toNat_lt_size
  simp only [FacetGroupKey.bytesEncode, List.cons_append, List.nil_append, List.cons_prefix_cons,
    asBytes_prefix_iff]
  constructor
  · rintro ⟨hhigh, hlow, hlevel, hbound⟩
    exact ⟨UInt16.toNat.inj (by omega), UInt8.toNat.inj hlevel.symm, hbound⟩
  · rintro ⟨hfield, hlevel, hbound⟩
    exact ⟨by rw [hfield], by rw [hfield], by rw [hlevel], hbound⟩

theorem FacetDb.prefixIter_eq_scan (db : FacetDb String) (base : FacetGroupKey String) :
    db.prefixIter base =
      db.entries.filter fun e => decide (base.bytesEncode <+: e.1.bytesEncode) := by
  refine List.filter_congr fun e _ => ?_
  rw [Bool.eq_iff_iff]
  simp [FacetGroupKey.bytesEncode_prefix_iff, and_assoc]

theorem mem_unionAll_bitmaps {α : Type} (entries : List (α × FacetGroupValue)) (d : DocumentId) :
    d ∈ unionAll (entries.map (·.2.bitmap)) ↔ ∃ e ∈ entries, d ∈ e.2.bitmap := by
  simp only [mem_unionAll, List.mem_map]
  constructor
  · rintro ⟨_, ⟨e, he, rfl⟩, hd⟩
    exact ⟨e, he, hd⟩
  · rintro ⟨e, he, hd⟩
    exact ⟨_, ⟨e, he, rfl⟩, hd⟩

end MilliCore.Store

namespace MilliCore.Search
open MilliCore.Store MilliCore.Utf8

/-! ## `Contains` and `StartsWith` -/

section Arms
variable (search : FacetSearch) (index : Index) (fieldId : FieldId) (word : Token) (d : DocumentId)

theorem mem_startsWithDocids :
    d ∈ startsWithDocids search index fieldId word ↔
      ∃ e ∈ index.facetIdStringDocids.entries, e.1.fieldId = fieldId ∧ e.1.level = 0 ∧
        asBytes (search.normalizeFacet word.value) <+: asBytes e.1.leftBound ∧ d ∈ e.2.bitmap := by
  rw [startsWithDocids, mem_unionAll_bitmaps, FacetDb.prefixIter_eq_scan]
  simp [FacetGroupKey.bytesEncode_prefix_iff, asBytes_prefix_iff, and_assoc]

theorem mem_containsDocids :
    d ∈ containsDocids search index fieldId word ↔
      ∃ e ∈ index.facetIdStringDocids.entries, e.1.fieldId = fieldId ∧ e.1.level = 0 ∧
        asBytes (search.normalizeFacet word.value) <:+: asBytes e.1.leftBound ∧ d ∈ e.2.bitmap := by
  rw [containsDocids, mem_unionAll_bitmaps, FacetDb.prefixIter_eq_scan]
  simp [FacetGroupKey.bytesEncode_prefix_iff, asBytes_infix_iff, and_assoc, and_left_comm]

end Arms

/-- `StartsWith` and `Contains` pass no guard; `StartsWith w` is the union of the bitmaps of the
    level-0 keys of the field whose bytes start with those of `normalize_facet(w)`, `Contains w`
    of those whose bytes hold them, and the documents whose string is `normalize_facet(w)` are
    among the first, the first among the second. -/
theorem evaluateOperator_startsWith_contains (search : FacetSearch) (index : Index)
    (fieldId : FieldId) (universe' : Option RoaringBitmap) (keyword word : Token)
    (features : FilterableAttributesFeatures) (ruleIndex : ℕ) :
    ∃ startsWith contains,
      evaluateOperator search index fieldId universe' (.startsWith keyword word) features
          ruleIndex = .ok startsWith ∧
      evaluateOperator search index fieldId universe' (.contains keyword word) features
          ruleIndex = .ok contains ∧
      (∀ d, d ∈ startsWith ↔ ∃ e ∈ index.facetIdStringDocids.entries, e.1.fieldId = fieldId ∧
        e.1.level = 0 ∧ asBytes (search.normalizeFacet word.value) <+: asBytes e.1.leftBound ∧
          d ∈ e.2.bitmap) ∧
      (∀ d, d ∈ contains ↔ ∃ e ∈ index.facetIdStringDocids.entries, e.1.fieldId = fieldId ∧
        e.1.level = 0 ∧ asBytes (search.normalizeFacet word.value) <:+: asBytes e.1.leftBound ∧
          d ∈ e.2.bitmap) ∧
      (∀ d, index.facetIdStringDocids.Holds fieldId d (search.normalizeFacet word.value) →
        d ∈ startsWith) ∧
      startsWith ⊆ contains := by
  refine ⟨_, _, (evaluateOperator_eq_ok ..).2 ⟨rfl, rfl⟩, (evaluateOperator_eq_ok ..).2 ⟨rfl, rfl⟩,
    mem_startsWithDocids search index fieldId word, mem_containsDocids search index fieldId word, ?_, ?_⟩
  · rintro d ⟨e, he, hkey, hd⟩
    exact (mem_startsWithDocids ..).2 ⟨e, he, by rw [hkey], by rw [hkey], by rw [hkey], hd⟩
  · intro d hd
    obtain ⟨e, he, hfield, hlevel, hprefix, hd⟩ := (mem_startsWithDocids ..).1 hd
    exact (mem_containsDocids ..).2 ⟨e, he, hfield, hlevel, hprefix.isInfix, hd⟩

end MilliCore.Search
