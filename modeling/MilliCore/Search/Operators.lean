import MilliCore.Search.Semantics

set_option autoImplicit false

namespace MilliCore.Search
open MilliCore.Store

theorem isEmptyRange_eq_false {α : Type} [LinearOrder α] {left right : Bound α} {x : α}
    (h : withinBounds left right x) : Bound.isEmptyRange left right = false := by
  cases left <;> cases right <;> simp only [withinBounds_iff, lowerAdmits_included,
    lowerAdmits_excluded, lowerAdmits_unbounded, upperAdmits_included, upperAdmits_excluded,
    upperAdmits_unbounded] at h <;> simp only [Bound.isEmptyRange, decide_eq_false_iff_not]
  · exact not_lt.2 (h.1.trans h.2)
  · exact not_le.2 (h.1.trans_lt h.2)
  · exact not_le.2 (h.1.trans_le h.2)
  · exact not_le.2 (h.1.trans h.2)

section Ranges
variable (search : FacetSearch) (index : Index) (fieldId : FieldId)

theorem mem_exploreFacetLevels_none {α : Type} [LinearOrder α] (db : FacetDb α)
    (left right : Bound α) (d : DocumentId) :
    d ∈ exploreFacetLevels search db fieldId left right none ↔
      ∃ v, db.Holds fieldId d v ∧ withinBounds left right v := by
  rw [← FacetDb.mem_levelZeroWithin, ← search.find_none]
  unfold exploreFacetLevels
  split
  · rename_i hempty
    simp only [Finset.not_mem_empty, false_iff]
    intro hd
    rw [search.find_none] at hd
    obtain ⟨v, -, hv⟩ := (FacetDb.mem_levelZeroWithin ..).1 hd
    simp [isEmptyRange_eq_false hv] at hempty
  · rfl

theorem mem_rangeDocids_none (numberBounds : Option (Bound FiniteF64 × Bound FiniteF64))
    (stringBounds : Bound String × Bound String) (d : DocumentId) :
    d ∈ rangeDocids search index fieldId none numberBounds stringBounds ↔
      (∃ b ∈ numberBounds, ∃ v, index.facetIdF64Docids.Holds fieldId d v ∧
        withinBounds b.1 b.2 v) ∨
      ∃ s, index.facetIdStringDocids.Holds fieldId d s ∧
        withinBounds stringBounds.1 stringBounds.2 s := by
  cases numberBounds <;> simp [rangeDocids, mem_exploreFacetLevels_none]

theorem mem_greaterThanOrEqual (val : Token) (d : DocumentId) :
    d ∈ operatorDocids search index fieldId none (.greaterThanOrEqual val) ↔
      (∃ n, val.parseFiniteFloat = .ok n ∧
        ∃ v, index.facetIdF64Docids.Holds fieldId d v ∧ n ≤ v) ∨
      ∃ s, index.facetIdStringDocids.Holds fieldId d s ∧ val.value ≤ s := by
  simp [operatorDocids, mem_rangeDocids_none, le_f64Max, -FiniteF64.le_iff]

theorem mem_lowerThanOrEqual (val : Token) (d : DocumentId) :
    d ∈ operatorDocids search index fieldId none (.lowerThanOrEqual val) ↔
      (∃ n, val.parseFiniteFloat = .ok n ∧
        ∃ v, index.facetIdF64Docids.Holds fieldId d v ∧ v ≤ n) ∨
      ∃ s, index.facetIdStringDocids.Holds fieldId d s ∧ s ≤ val.value := by
  simp [operatorDocids, mem_rangeDocids_none, f64Min_le, -FiniteF64.le_iff]

theorem mem_between («from» «to» : Token) (d : DocumentId) :
    d ∈ operatorDocids search index fieldId none (.between «from» «to») ↔
      (∃ f t, «from».parseFiniteFloat = .ok f ∧ «to».parseFiniteFloat = .ok t ∧
        ∃ v, index.facetIdF64Docids.Holds fieldId d v ∧ f ≤ v ∧ v ≤ t) ∨
      ∃ s, index.facetIdStringDocids.Holds fieldId d s ∧ «from».value ≤ s ∧ s ≤ «to».value := by
  simp only [operatorDocids, mem_rangeDocids_none]
  rcases «from».parseFiniteFloat with _ | f <;> rcases «to».parseFiniteFloat with _ | t <;> simp

theorem mem_between_of_parsed {«from» «to» : Token} {f t : FiniteF64}
    (hf : «from».parseFiniteFloat = .ok f) (ht : «to».parseFiniteFloat = .ok t) {d : DocumentId}
    (hs : ∀ s, ¬index.facetIdStringDocids.Holds fieldId d s) :
    d ∈ operatorDocids search index fieldId none (.between «from» «to») ↔
      ∃ v, index.facetIdF64Docids.Holds fieldId d v ∧ f ≤ v ∧ v ≤ t := by
  simp [mem_between, hf, ht, hs, -FiniteF64.le_iff]

/-- `d` holds at most one level-0 value of the field, numeric or string. -/
structure SingleValued (index : Index) (fieldId : FieldId) (d : DocumentId) : Prop where
  number : ∀ v w, index.facetIdF64Docids.Holds fieldId d v →
    index.facetIdF64Docids.Holds fieldId d w → v = w
  string : ∀ s t, index.facetIdStringDocids.Holds fieldId d s →
    index.facetIdStringDocids.Holds fieldId d t → s = t
  not_both : ∀ v s, index.facetIdF64Docids.Holds fieldId d v →
    ¬index.facetIdStringDocids.Holds fieldId d s

theorem between_subset (a b : Token) :
    operatorDocids search index fieldId none (.between a b) ⊆
      operatorDocids search index fieldId none (.greaterThanOrEqual a) ∩
        operatorDocids search index fieldId none (.lowerThanOrEqual b) := by
  intro d hd
  rw [Finset.mem_inter, mem_greaterThanOrEqual, mem_lowerThanOrEqual]
  rcases (mem_between ..).1 hd with ⟨f, t, hf, ht, v, hv, hfv, hvt⟩ | ⟨s, hs, has, hsb⟩
  · exact ⟨.inl ⟨f, hf, v, hv, hfv⟩, .inl ⟨t, ht, v, hv, hvt⟩⟩
  · exact ⟨.inr ⟨s, hs, has⟩, .inr ⟨s, hs, hsb⟩⟩

theorem mem_between_of_singleValued (a b : Token) {d : DocumentId}
    (hd : SingleValued index fieldId d)
    (hge : d ∈ operatorDocids search index fieldId none (.greaterThanOrEqual a))
    (hle : d ∈ operatorDocids search index fieldId none (.lowerThanOrEqual b)) :
    d ∈ operatorDocids search index fieldId none (.between a b) := by
  rw [mem_greaterThanOrEqual] at hge
  rw [mem_lowerThanOrEqual] at hle
  rw [mem_between]
  rcases hge with ⟨f, hf, v, hv, hfv⟩ | ⟨s, hs, has⟩ <;>
    rcases hle with ⟨t, ht, w, hw, hwt⟩ | ⟨s', hs', hsb⟩
  · exact .inl ⟨f, t, hf, ht, v, hv, hfv, hd.number v w hv hw ▸ hwt⟩
  · exact (hd.not_both v s' hv hs').elim
  · exact (hd.not_both w s hw hs).elim
  · exact .inr ⟨s, hs, has, hd.string s s' hs hs' ▸ hsb⟩

end Ranges

section Evaluation
variable (search : FacetSearch) (geo : GeoSearch) (index : Index)

theorem fieldRule_of_matchingFeatures {fid : Token} {ruleIndex : ℕ}
    {features : FilterableAttributesFeatures}
    (hrule : matchingFeatures fid.value index.filterableAttributesRules =
      some (ruleIndex, features)) :
    fieldRule index fid = (index.fieldsIdsMap.id fid.value).map (·, ruleIndex, features) := by
  unfold fieldRule
  cases index.fieldsIdsMap.id fid.value <;> simp [hrule]

theorem innerEvaluateCondition_none {fid : Token} {op : Condition} {fieldId : FieldId}
    {ruleIndex : ℕ} {features : FilterableAttributesFeatures}
    (hr : fieldRule index fid = some (fieldId, ruleIndex, features))
    (hguard : op.passesGuard features = true) :
    innerEvaluateCondition search index none fid op =
      .ok (operatorDocids search index fieldId none op) := by
  simp [innerEvaluateCondition, withFieldFeatures, hr, evaluateOperator, hguard]

theorem evaluate_condition {fid : Token} {op : Condition} {ruleIndex : ℕ}
    {features : FilterableAttributesFeatures}
    (hrule : matchingFeatures fid.value index.filterableAttributesRules =
      some (ruleIndex, features))
    (hfilterable : features.isFilterable = true) (hguard : op.passesGuard features = true) :
    Filter.evaluate search geo ⟨.condition fid op⟩ index =
      .ok (conditionSemantics search index fid op) := by
  have hcheck : checkFilterable index.filterableAttributesRules fid = .ok () := by
    simp [checkFilterable, hrule, hfilterable]
  have hrule' := fieldRule_of_matchingFeatures index hrule
  simp only [Filter.evaluate, maxFilterDepth, FilterCondition.fids, List.forM_cons, List.forM_nil,
    hcheck, innerEvaluate, innerEvaluateCondition, unlessEmptyUniverse_none, withFieldFeatures,
    conditionSemantics, hrule']
  cases index.fieldsIdsMap.id fid.value <;> simp [evaluateOperator, hguard, hcheck]

theorem between_eq_range_intersection {fid : Token} {ruleIndex : ℕ}
    {features : FilterableAttributesFeatures}
    (hrule : matchingFeatures fid.value index.filterableAttributesRules =
      some (ruleIndex, features))
    (hcmp : features.isFilterableComparison = true) (a b : Token) :
    ∃ B C D : RoaringBitmap,
      Filter.evaluate search geo ⟨.condition fid (.between a b)⟩ index = .ok B ∧
      Filter.evaluate search geo ⟨.condition fid (.greaterThanOrEqual a)⟩ index = .ok C ∧
      Filter.evaluate search geo ⟨.condition fid (.lowerThanOrEqual b)⟩ index = .ok D ∧
      B ⊆ C ∩ D ∧
      ∀ fieldId d, index.fieldsIdsMap.id fid.value = some fieldId →
        SingleValued index fieldId d → (d ∈ B ↔ d ∈ C ∧ d ∈ D) := by
  have hf : features.isFilterable = true := by
    simp [FilterableAttributesFeatures.isFilterable, hcmp]
  have hok := fun op (hop : Condition.passesGuard features op = true) =>
    evaluate_condition search geo index hrule hf hop
  refine ⟨_, _, _, hok _ (by simp [Condition.passesGuard, hcmp]),
    hok _ (by simp [Condition.passesGuard, hcmp]), hok _ (by simp [Condition.passesGuard, hcmp]),
    ?_, ?_⟩
  · simp only [conditionSemantics, fieldRule_of_matchingFeatures index hrule]
    cases index.fieldsIdsMap.id fid.value
    · simp
    · exact between_subset search index _ a b
  · intro fieldId d hid hd
    simp only [conditionSemantics, fieldRule_of_matchingFeatures index hrule, hid, Option.map_some']
    exact ⟨fun h => Finset.mem_inter.1 (between_subset search index fieldId a b h),
      fun h => mem_between_of_singleValued search index fieldId a b hd h.1 h.2⟩

theorem sampleIndex_between_eq_range_intersection :
    matchingFeatures "a" sampleIndex.filterableAttributesRules = some (0, allFeatures) ∧
      allFeatures.isFilterableComparison = true ∧
      ∃ B C D : RoaringBitmap,
        Filter.evaluate .levelZero .inOrder
          ⟨.condition (sampleToken "a") (.between (sampleToken "0") (sampleToken "2"))⟩
          sampleIndex = .ok B ∧
        Filter.evaluate .levelZero .inOrder
          ⟨.condition (sampleToken "a") (.greaterThanOrEqual (sampleToken "0"))⟩
          sampleIndex = .ok C ∧
        Filter.evaluate .levelZero .inOrder
          ⟨.condition (sampleToken "a") (.lowerThanOrEqual (sampleToken "2"))⟩
          sampleIndex = .ok D ∧
        B ⊆ C ∩ D ∧
        ∀ fieldId d, sampleIndex.fieldsIdsMap.id "a" = some fieldId →
          SingleValued sampleIndex fieldId d → (d ∈ B ↔ d ∈ C ∧ d ∈ D) :=
  ⟨rfl, rfl, between_eq_range_intersection .levelZero .inOrder sampleIndex
    (show matchingFeatures (sampleToken "a").value sampleIndex.filterableAttributesRules =
      some (0, allFeatures) from rfl) rfl _ _⟩

end Evaluation

end MilliCore.Search
