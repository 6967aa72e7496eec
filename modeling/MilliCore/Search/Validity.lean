import MilliCore.Search.Operators

set_option autoImplicit false

namespace MilliCore.Search
open MilliCore.Store

def errorOf {α : Type} : Except Error α → Option Error
  | .ok _ => none
  | .error e => some e

@[simp] theorem errorOf_ok {α : Type} (a : α) : errorOf (.ok a : Except Error α) = none := rfl
@[simp] theorem errorOf_error {α : Type} (e : Error) :
    errorOf (.error e : Except Error α) = some e := rfl

theorem errorOf_eq_none {α : Type} {x : Except Error α} : errorOf x = none ↔ ∃ a, x = .ok a := by
  cases x <;> simp

theorem errorOf_bind_of_ok {α β : Type} (x : Except Error α) {f : α → Except Error β}
    (hf : ∀ a, errorOf (f a) = none) : errorOf (x >>= f) = errorOf x := by
  cases x with
  | error => rfl
  | ok a => exact hf a

@[simp] theorem errorOf_bind_pure {α β : Type} (x : Except Error α) (f : α → β) :
    errorOf (x >>= fun a => pure (f a)) = errorOf x :=
  errorOf_bind_of_ok x fun _ => rfl

theorem errorOf_bind_congr {α β γ δ : Type} {x : Except Error α} {y : Except Error β}
    {f : α → Except Error γ} {g : β → Except Error δ} (hxy : errorOf x = errorOf y)
    (hfg : ∀ a b, x = .ok a → y = .ok b → errorOf (f a) = errorOf (g b)) :
    errorOf (x >>= f) = errorOf (y >>= g) := by
  cases x <;> cases y <;> first | exact hfg _ _ rfl rfl | exact hxy | cases hxy

section Validation
variable (index : Index)

def validateCondition (fid : Token) (op : Condition) : Except Error Unit :=
  match fieldRule index fid with
  | none => .ok ()
  | some (fieldId, ruleIndex, features) =>
    if op.passesGuard features then .ok ()
    else .error (generateFilterError index fieldId op features ruleIndex)

mutual
/-- Every check of `inner_evaluate` that reads no document, in evaluation order, with every
    child of an `And` visited: the operator guards, the geo setting and the geo arguments. -/
def validate : FilterCondition → Except Error Unit
  | .not filter => validate filter
  | .in _ [] => .ok ()
  | .in fid (el :: _) => validateCondition index fid (.equal el)
  | .condition fid op => validateCondition index fid op
  | .or filters => validateAll filters
  | .and filters => validateAll filters
  | .geoLowerThan point radius =>
    if index.isGeoFilteringEnabled then do
      let _ ← checkGeoPoint point
      let _ ← radius.parseFiniteFloat
      pure ()
    else .error (geoNotFilterable index point.1)
  | .geoBoundingBox topRightPoint bottomLeftPoint =>
    if index.isGeoFilteringEnabled then do
      let (topRight, bottomLeft) ← checkBoundingBox topRightPoint bottomLeftPoint
      validateCondition index (geoLatToken topRightPoint) (.between bottomLeftPoint.1 topRightPoint.1)
      if topRight.2 < bottomLeft.2 then do
        validateCondition index (geoLngToken topRightPoint)
          (.between bottomLeftPoint.2 (maxLngToken topRightPoint))
        validateCondition index (geoLngToken topRightPoint)
          (.between (minLngToken topRightPoint) topRightPoint.2)
      else
        validateCondition index (geoLngToken topRightPoint)
          (.between bottomLeftPoint.2 topRightPoint.2)
    else .error (geoNotFilterable index topRightPoint.1)

def validateAll : List FilterCondition → Except Error Unit
  | [] => .ok ()
  | filter :: filters => do
    validate filter
    validateAll filters
end

theorem validateAll_cons_eq_ok {filter : FilterCondition} {filters : List FilterCondition} :
    validateAll index (filter :: filters) = .ok () ↔
      validate index filter = .ok () ∧ validateAll index filters = .ok () := by
  rw [validateAll]
  cases validate index filter <;> simp [bind, Except.bind]

theorem validateAll_eq_ok {filters : List FilterCondition}
    (h : filters.all (fun g => decide (validate index g = .ok ())) = true) :
    validateAll index filters = .ok () := by
  induction filters with
  | nil => rfl
  | cons filter filters ih =>
    simp only [List.all_cons, Bool.and_eq_true, decide_eq_true_eq] at h
    exact (validateAll_cons_eq_ok index).2 ⟨h.1, ih h.2⟩

mutual
/-- Every later child of an `And`, which the fold may skip, passes `validate`. -/
def laterChildrenValid : FilterCondition → Bool
  | .not filter => laterChildrenValid filter
  | .or filters => allLaterChildrenValid filters
  | .and [] => true
  | .and (first :: rest) =>
    laterChildrenValid first && rest.all fun g => decide (validate index g = .ok ())
  | _ => true

def allLaterChildrenValid : List FilterCondition → Bool
  | [] => true
  | filter :: filters => laterChildrenValid filter && allLaterChildrenValid filters
end

theorem validateCondition_eq_ok {fid : Token} {op : Condition} :
    validateCondition index fid op = .ok () ↔ ∀ fieldId ruleIndex features,
      fieldRule index fid = some (fieldId, ruleIndex, features) → op.passesGuard features = true := by
  unfold validateCondition
  cases hr : fieldRule index fid with
  | none => simp
  | some r =>
    obtain ⟨fieldId, ruleIndex, features⟩ := r
    by_cases hg : op.passesGuard features <;> simp [hg]

end Validation

mutual
/-- The leaves `inner_evaluate` reaches from no universe on every index: all but those under the
    later children of an `And`, which its early exit may skip. -/
def FilterCondition.reached : FilterCondition → List FilterCondition
  | .not filter => filter.reached
  | .or filters => reachedOfList filters
  | .and [] => []
  | .and (first :: _) => first.reached
  | .in fid els => [.in fid els]
  | .condition fid op => [.condition fid op]
  | .geoLowerThan point radius => [.geoLowerThan point radius]
  | .geoBoundingBox topRightPoint bottomLeftPoint => [.geoBoundingBox topRightPoint bottomLeftPoint]

def reachedOfList : List FilterCondition → List FilterCondition
  | [] => []
  | filter :: filters => filter.reached ++ reachedOfList filters
end

theorem unlessEmptyUniverse_of_not_empty {universe' : Option RoaringBitmap}
    (hu : isEmptyUniverse universe' = false) (result : Except Error RoaringBitmap) :
    unlessEmptyUniverse universe' result = result := by
  simp [unlessEmptyUniverse, hu]

theorem unionResults_map_ok {α : Type} (f : α → Except Error RoaringBitmap)
    (g : α → RoaringBitmap) (hf : ∀ x, f x = .ok (g x)) (l : List α) :
    unionResults (l.map f) = .ok (unionAll (l.map g)) := by
  induction l with
  | nil => rfl
  | cons x xs ih => simp only [List.map_cons, unionResults, hf x, ih, ok_bind]; rfl

def equalityOnly : FilterableAttributesFeatures := ⟨true, false⟩

def comparisonOnly : FilterableAttributesFeatures := ⟨false, true⟩

/-- Fields `a`, `b` and `c`: `a` allows every operator, `b` equality only and `c` comparison only.
    Document `0` holds the number `1` for `a`. -/
def restrictedIndex : Index where
  fieldsIdsMap := ⟨[("a", 0), ("b", 1), ("c", 2)], by decide, by decide⟩
  filterableAttributesRules := [⟨"a", allFeatures⟩, ⟨"b", equalityOnly⟩, ⟨"c", comparisonOnly⟩]
  facetIdF64Docids := ⟨[(⟨0, 0, ⟨1, by decide⟩⟩, ⟨1, {0}⟩)], by decide⟩
  facetIdStringDocids := ⟨[], by decide⟩
  documentsIds := {0}
  nullFacetedDocumentsIds := fun _ => ∅
  emptyFacetedDocumentsIds := fun _ => ∅
  existsFacetedDocumentsIds := fun _ => ∅
  isGeoFilteringEnabled := false
  geoRtree := none

def emptyRestrictedIndex : Index :=
  { restrictedIndex with facetIdF64Docids := ⟨[], by decide⟩, documentsIds := ∅ }

def forbiddenAfterAnd : FilterCondition :=
  .and [.condition (sampleToken "a") (.equal (sampleToken "1")),
    .condition (sampleToken "b") (.greaterThan (sampleToken "3"))]

section Runs
variable (search : FacetSearch) (geo : GeoSearch) (index : Index)

theorem errorOf_unlessEmptyUniverse_eq_none {universe' : Option RoaringBitmap}
    {result : Except Error RoaringBitmap} (h : isEmptyUniverse universe' = false → errorOf result = none) :
    errorOf (unlessEmptyUniverse universe' result) = none := by
  unfold unlessEmptyUniverse
  split
  · rfl
  · exact h (Bool.eq_false_iff.2 ‹_›)

theorem errorOf_evaluateCondition (universe' : Option RoaringBitmap) (fid : Token)
    (op : Condition) :
    errorOf (withFieldFeatures index fid fun fieldId ruleIndex features =>
      evaluateOperator search index fieldId universe' op features ruleIndex) =
      errorOf (validateCondition index fid op) := by
  cases hr : fieldRule index fid with
  | none => simp [withFieldFeatures, validateCondition, hr]
  | some r =>
    obtain ⟨fieldId, ruleIndex, features⟩ := r
    by_cases hg : op.passesGuard features <;>
      simp [withFieldFeatures, validateCondition, evaluateOperator, hr, hg]

theorem errorOf_innerEvaluateCondition {universe' : Option RoaringBitmap}
    (hu : isEmptyUniverse universe' = false) (fid : Token) (op : Condition) :
    errorOf (innerEvaluateCondition search index universe' fid op) =
      errorOf (validateCondition index fid op) := by
  rw [innerEvaluateCondition, unlessEmptyUniverse_of_not_empty hu]
  exact errorOf_evaluateCondition search index universe' fid op

theorem errorOf_in (universe' : Option RoaringBitmap) (fid : Token) (els : List Token) :
    errorOf (withFieldFeatures index fid fun fieldId ruleIndex features =>
      unionResults (els.map fun el =>
        evaluateOperator search index fieldId universe' (.equal el) features ruleIndex)) =
      errorOf (validate index (.in fid els)) := by
  cases hr : fieldRule index fid with
  | none => cases els <;> simp [withFieldFeatures, validate, validateCondition, hr]
  | some r =>
    obtain ⟨fieldId, ruleIndex, features⟩ := r
    cases els with
    | nil => simp [withFieldFeatures, validate, hr, unionResults]
    | cons el els =>
      simp only [withFieldFeatures, validate, validateCondition, hr]
      by_cases hg : (Condition.equal el).passesGuard features
      · rw [unionResults_map_ok _ (equalDocids search index fieldId) (fun x => by
          simp [evaluateOperator, operatorDocids, Condition.passesGuard] at hg ⊢; simp [hg])]
        simp [hg]
      · simp only [List.map_cons, unionResults, evaluateOperator, if_neg hg]
        rfl

theorem errorOf_geoLowerThan (point : Token × Token) (radius : Token) :
    errorOf (geoLowerThan geo index point radius) =
      errorOf (validate index (.geoLowerThan point radius)) := by
  simp only [geoLowerThan, validate]
  split
  · refine errorOf_bind_congr rfl fun _ _ _ _ => errorOf_bind_congr rfl fun _ _ _ _ => ?_
    cases index.geoRtree <;> rfl
  · rfl

theorem errorOf_geoBoundingBox {universe' : Option RoaringBitmap}
    (hu : isEmptyUniverse universe' = false) (topRightPoint bottomLeftPoint : Token × Token) :
    errorOf (geoBoundingBox search index universe' topRightPoint bottomLeftPoint) =
      errorOf (validate index (.geoBoundingBox topRightPoint bottomLeftPoint)) := by
  simp only [geoBoundingBox, validate]
  split
  · refine errorOf_bind_congr rfl fun p q hp hq => ?_
    cases hp.symm.trans hq
    refine errorOf_bind_congr (errorOf_innerEvaluateCondition search index hu _ _)
      fun _ _ _ _ => ?_
    rw [errorOf_bind_pure]
    split
    · exact errorOf_bind_congr (errorOf_innerEvaluateCondition search index hu _ _)
        fun _ _ _ _ => (errorOf_bind_pure _ _).trans
          (errorOf_innerEvaluateCondition search index hu _ _)
    · exact errorOf_innerEvaluateCondition search index hu _ _
  · rfl

mutual
theorem errorOf_innerEvaluate_of_validate : ∀ (filter : FilterCondition)
    (universe' : Option RoaringBitmap), validate index filter = .ok () →
      errorOf (innerEvaluate search geo index universe' filter) = none
  | .not filter, universe', h => by
    rw [innerEvaluate]
    refine errorOf_unlessEmptyUniverse_eq_none fun _ => ?_
    rw [errorOf_bind_of_ok _ fun _ => by cases universe' <;> rfl]
    exact errorOf_innerEvaluate_of_validate filter universe' h
  | .in fid els, universe', h => by
    rw [innerEvaluate]
    exact errorOf_unlessEmptyUniverse_eq_none fun _ =>
      (errorOf_in search index universe' fid els).trans (by rw [h]; rfl)
  | .condition fid op, universe', h => by
    rw [innerEvaluate, innerEvaluateCondition]
    exact errorOf_unlessEmptyUniverse_eq_none fun _ =>
      (errorOf_evaluateCondition search index universe' fid op).trans
        (by rw [show validateCondition index fid op = .ok () from h]; rfl)
  | .or filters, universe', h => by
    rw [innerEvaluate]
    exact errorOf_unlessEmptyUniverse_eq_none fun _ =>
      (errorOf_innerEvaluateAll_of_validate filters h).1 universe'
  | .and [], universe', _ => by
    rw [innerEvaluate]
    exact errorOf_unlessEmptyUniverse_eq_none fun _ => rfl
  | .and (first :: rest), universe', h => by
    obtain ⟨hfirst, hrest⟩ := (validateAll_cons_eq_ok index).1 h
    rw [innerEvaluate]
    refine errorOf_unlessEmptyUniverse_eq_none fun _ => ?_
    have ih := errorOf_innerEvaluate_of_validate first universe' hfirst
    obtain ⟨bitmap, hb⟩ := errorOf_eq_none.1 ih
    rw [hb, ok_bind]
    exact (errorOf_innerEvaluateAll_of_validate rest hrest).2 bitmap
  | .geoLowerThan point radius, universe', h => by
    rw [innerEvaluate]
    exact errorOf_unlessEmptyUniverse_eq_none fun _ =>
      (errorOf_geoLowerThan geo index point radius).trans (by rw [h]; rfl)
  | .geoBoundingBox topRightPoint bottomLeftPoint, universe', h => by
    rw [innerEvaluate]
    exact errorOf_unlessEmptyUniverse_eq_none fun hu =>
      (errorOf_geoBoundingBox search index hu topRightPoint bottomLeftPoint).trans
        (by rw [h]; rfl)

theorem errorOf_innerEvaluateAll_of_validate : ∀ (filters : List FilterCondition),
    validateAll index filters = .ok () →
      (∀ universe', errorOf (innerEvaluateOr search geo index universe' filters) = none) ∧
      ∀ bitmap, errorOf (innerEvaluateAnd search geo index bitmap filters) = none
  | [], _ => ⟨fun _ => rfl, fun _ => rfl⟩
  | filter :: filters, h => by
    obtain ⟨hfirst, hrest⟩ := (validateAll_cons_eq_ok index).1 h
    have ih := errorOf_innerEvaluateAll_of_validate filters hrest
    refine ⟨fun universe' => ?_, fun bitmap => ?_⟩
    · obtain ⟨b, hb⟩ := errorOf_eq_none.1
        (errorOf_innerEvaluate_of_validate filter universe' hfirst)
      rw [innerEvaluateOr, hb, ok_bind, errorOf_bind_pure]
      exact ih.1 universe'
    · rw [innerEvaluateAnd]
      split
      · rfl
      · obtain ⟨selected, hs⟩ := errorOf_eq_none.1
          (errorOf_innerEvaluate_of_validate filter (some bitmap) hfirst)
        rw [hs, ok_bind]
        exact ih.2 _
end

mutual
theorem errorOf_innerEvaluate : ∀ (filter : FilterCondition) (universe' : Option RoaringBitmap),
    isEmptyUniverse universe' = false → laterChildrenValid index filter = true →
      errorOf (innerEvaluate search geo index universe' filter) = errorOf (validate index filter)
  | .not filter, universe', hu, hl => by
    rw [innerEvaluate, unlessEmptyUniverse_of_not_empty hu,
      errorOf_bind_of_ok _ fun _ => by cases universe' <;> rfl]
    exact errorOf_innerEvaluate filter universe' hu hl
  | .in fid els, universe', hu, _ => by
    rw [innerEvaluate, unlessEmptyUniverse_of_not_empty hu]
    exact errorOf_in search index universe' fid els
  | .condition fid op, _, hu, _ => errorOf_innerEvaluateCondition search index hu fid op
  | .or filters, universe', hu, hl => by
    rw [innerEvaluate, unlessEmptyUniverse_of_not_empty hu]
    exact errorOf_innerEvaluateOr filters universe' hu hl
  | .and [], _, hu, _ => by
    rw [innerEvaluate, unlessEmptyUniverse_of_not_empty hu]
    rfl
  | .and (first :: rest), universe', hu, hl => by
    simp only [laterChildrenValid, Bool.and_eq_true] at hl
    have hrest := validateAll_eq_ok index hl.2
    rw [innerEvaluate, unlessEmptyUniverse_of_not_empty hu, validate, validateAll]
    refine errorOf_bind_congr (errorOf_innerEvaluate first universe' hu hl.1) fun bitmap _ _ _ => ?_
    rw [hrest]
    exact (errorOf_innerEvaluateAll_of_validate search geo index rest hrest).2 bitmap
  | .geoLowerThan point radius, _, hu, _ => by
    rw [innerEvaluate, unlessEmptyUniverse_of_not_empty hu]
    exact errorOf_geoLowerThan geo index point radius
  | .geoBoundingBox topRightPoint bottomLeftPoint, _, hu, _ => by
    rw [innerEvaluate, unlessEmptyUniverse_of_not_empty hu]
    exact errorOf_geoBoundingBox search index hu topRightPoint bottomLeftPoint

theorem errorOf_innerEvaluateOr : ∀ (filters : List FilterCondition)
    (universe' : Option RoaringBitmap), isEmptyUniverse universe' = false →
      allLaterChildrenValid index filters = true →
      errorOf (innerEvaluateOr search geo index universe' filters) =
        errorOf (validateAll index filters)
  | [], _, _, _ => rfl
  | filter :: filters, universe', hu, hl => by
    simp only [allLaterChildrenValid, Bool.and_eq_true] at hl
    rw [innerEvaluateOr, validateAll]
    exact errorOf_bind_congr (errorOf_innerEvaluate filter universe' hu hl.1) fun _ _ _ _ =>
      (errorOf_bind_pure _ _).trans (errorOf_innerEvaluateOr filters universe' hu hl.2)
end

theorem errorOf_evaluate (filter : Filter)
    (hlater : laterChildrenValid index filter.condition = true) :
    errorOf (filter.evaluate search geo index) =
      errorOf (do
        (filter.condition.fids maxFilterDepth).forM
          (checkFilterable index.filterableAttributesRules)
        validate index filter.condition) :=
  errorOf_bind_congr rfl fun _ _ _ _ =>
    errorOf_innerEvaluate search geo index _ none rfl hlater

theorem validate_eq_ok_of_run {filter : FilterCondition}
    (hlater : laterChildrenValid index filter = true) {B : RoaringBitmap}
    (h : innerEvaluate search geo index none filter = .ok B) : validate index filter = .ok () := by
  have he := errorOf_innerEvaluate search geo index filter none rfl hlater
  rw [h] at he
  obtain ⟨⟨⟩, hv⟩ := errorOf_eq_none.1 he.symm
  exact hv

mutual
theorem validate_reached : ∀ (filter : FilterCondition) (B : RoaringBitmap),
    innerEvaluate search geo index none filter = .ok B →
      ∀ leaf ∈ filter.reached, validate index leaf = .ok ()
  | .not filter, _, h, leaf, hleaf => by
    rw [innerEvaluate, unlessEmptyUniverse_none] at h
    obtain ⟨selected, hs, -⟩ := bind_eq_ok.1 h
    exact validate_reached filter selected hs leaf hleaf
  | .or filters, B, h, leaf, hleaf => by
    rw [innerEvaluate, unlessEmptyUniverse_none] at h
    exact validate_reachedOfList filters B h leaf hleaf
  | .and (first :: _), _, h, leaf, hleaf => by
    rw [innerEvaluate, unlessEmptyUniverse_none] at h
    obtain ⟨bitmap, hb, -⟩ := bind_eq_ok.1 h
    exact validate_reached first bitmap hb leaf hleaf
  | .in _ _, _, h, leaf, hleaf | .condition _ _, _, h, leaf, hleaf
  | .geoLowerThan _ _, _, h, leaf, hleaf | .geoBoundingBox _ _, _, h, leaf, hleaf => by
    rw [FilterCondition.reached, List.mem_singleton] at hleaf
    subst hleaf
    exact validate_eq_ok_of_run search geo index rfl h

theorem validate_reachedOfList : ∀ (filters : List FilterCondition) (B : RoaringBitmap),
    innerEvaluateOr search geo index none filters = .ok B →
      ∀ leaf ∈ reachedOfList filters, validate index leaf = .ok ()
  | filter :: filters, _, h, leaf, hleaf => by
    rw [innerEvaluateOr] at h
    obtain ⟨b, hb, h⟩ := bind_eq_ok.1 h
    obtain ⟨rest, hrest, -⟩ := bind_eq_ok.1 h
    rcases List.mem_append.1 hleaf with hleaf | hleaf
    · exact validate_reached filter b hb leaf hleaf
    · exact validate_reachedOfList filters rest hrest leaf hleaf
end

/-- A filter that evaluates uses, at every condition and non-empty `In` it reaches, an operator
    its field's rule permits. -/
theorem evaluate_ok_reached_guards (filter : Filter) (B : RoaringBitmap)
    (h : filter.evaluate search geo index = .ok B) :
    (∀ fid op, .condition fid op ∈ filter.condition.reached →
      ∀ fieldId ruleIndex features, fieldRule index fid = some (fieldId, ruleIndex, features) →
        op.passesGuard features = true) ∧
    (∀ fid el els, .in fid (el :: els) ∈ filter.condition.reached →
      ∀ fieldId ruleIndex features, fieldRule index fid = some (fieldId, ruleIndex, features) →
        features.isFilterableEquality = true) := by
  obtain ⟨_, -, h⟩ := bind_eq_ok.1 h
  have hv := validate_reached search geo index _ B h
  refine ⟨fun fid op hop => (validateCondition_eq_ok index).1 (hv _ hop),
    fun fid el els hin fieldId ruleIndex features hr => ?_⟩
  simpa [Condition.passesGuard] using
    (validateCondition_eq_ok index).1 (hv _ hin) fieldId ruleIndex features hr

theorem restrictedIndex_evaluate_ok_reached_guards :
    Filter.evaluate .levelZero .inOrder ⟨.and [.condition (sampleToken "a")
      (.equal (sampleToken "1")), .condition (sampleToken "c") (.greaterThan (sampleToken "0"))]⟩
      restrictedIndex = .ok ∅ ∧
    (∀ fid op, .condition fid op ∈ (FilterCondition.and [.condition (sampleToken "a")
        (.equal (sampleToken "1")), .condition (sampleToken "c")
        (.greaterThan (sampleToken "0"))]).reached →
      ∀ fieldId ruleIndex features,
        fieldRule restrictedIndex fid = some (fieldId, ruleIndex, features) →
        op.passesGuard features = true) ∧
    (∀ fid el els, .in fid (el :: els) ∈ (FilterCondition.and [.condition (sampleToken "a")
        (.equal (sampleToken "1")), .condition (sampleToken "c")
        (.greaterThan (sampleToken "0"))]).reached →
      ∀ fieldId ruleIndex features,
        fieldRule restrictedIndex fid = some (fieldId, ruleIndex, features) →
        features.isFilterableEquality = true) :=
  ⟨by decide, evaluate_ok_reached_guards .levelZero .inOrder restrictedIndex _ ∅ (by decide)⟩

end Runs

/-- Three filters that evaluate although an operator they use is outside the table of
    permitted operators: a comparison the `And` skips, `CONTAINS` and an empty `IN` on a field
    without equality. -/
theorem evaluate_ok_with_forbidden_operators :
    (Condition.greaterThan (sampleToken "3")).passesGuard equalityOnly = false ∧
    Filter.evaluate .levelZero .inOrder ⟨forbiddenAfterAnd⟩ emptyRestrictedIndex = .ok ∅ ∧
    comparisonOnly.isFilterableEquality = false ∧
    Filter.evaluate .levelZero .inOrder
      ⟨.condition (sampleToken "c") (.contains (sampleToken "CONTAINS") (sampleToken "x"))⟩
      restrictedIndex = .ok ∅ ∧
    Filter.evaluate .levelZero .inOrder ⟨.in (sampleToken "c") []⟩ restrictedIndex = .ok ∅ :=
  ⟨rfl, by decide, rfl, by decide, by decide⟩

structure SameSettings (index₁ index₂ : Index) : Prop where
  fields : index₁.fieldsIdsMap = index₂.fieldsIdsMap
  rules : index₁.filterableAttributesRules = index₂.filterableAttributesRules
  geo : index₁.isGeoFilteringEnabled = index₂.isGeoFilteringEnabled

section Settings
variable {index₁ index₂ : Index}

theorem validateCondition_congr (h : SameSettings index₁ index₂) :
    validateCondition index₁ = validateCondition index₂ := by
  funext fid op
  simp only [validateCondition, fieldRule, generateFilterError, h.fields, h.rules]

mutual
theorem validate_congr (h : SameSettings index₁ index₂) :
    ∀ filter, validate index₁ filter = validate index₂ filter
  | .not filter => by simpa only [validate] using validate_congr h filter
  | .in _ [] => rfl
  | .in _ (_ :: _) | .condition _ _ => by simp only [validate, validateCondition_congr h]
  | .or filters | .and filters => by simpa only [validate] using validateAll_congr h filters
  | .geoLowerThan _ _ | .geoBoundingBox _ _ => by
    simp only [validate, validateCondition_congr h, geoNotFilterable, h.geo, h.rules]

theorem validateAll_congr (h : SameSettings index₁ index₂) :
    ∀ filters, validateAll index₁ filters = validateAll index₂ filters
  | [] => rfl
  | filter :: filters => by
    simp only [validateAll, validate_congr h filter, validateAll_congr h filters]
end

mutual
theorem laterChildrenValid_congr (h : SameSettings index₁ index₂) :
    ∀ filter, laterChildrenValid index₁ filter = laterChildrenValid index₂ filter
  | .not filter => by simpa only [laterChildrenValid] using laterChildrenValid_congr h filter
  | .or filters => by
    simpa only [laterChildrenValid] using allLaterChildrenValid_congr h filters
  | .and [] => rfl
  | .and (first :: _) => by
    simp only [laterChildrenValid, laterChildrenValid_congr h first, validate_congr h]
  | .in _ _ | .condition _ _ | .geoLowerThan _ _ | .geoBoundingBox _ _ => rfl

theorem allLaterChildrenValid_congr (h : SameSettings index₁ index₂) :
    ∀ filters, allLaterChildrenValid index₁ filters = allLaterChildrenValid index₂ filters
  | [] => rfl
  | filter :: filters => by
    simp only [allLaterChildrenValid, laterChildrenValid_congr h filter,
      allLaterChildrenValid_congr h filters]
end

end Settings

/-- Whether a filter fails, and with which error, depends on the fields map, the rules and the
    geo setting only, once no guard sits where an `And` may skip it. -/
theorem evaluate_error_independent_of_documents (search : FacetSearch) (geo : GeoSearch)
    (index₁ index₂ : Index) (hsame : SameSettings index₁ index₂) (filter : Filter)
    (hlater : laterChildrenValid index₁ filter.condition = true) :
    errorOf (filter.evaluate search geo index₁) = errorOf (filter.evaluate search geo index₂) := by
  rw [errorOf_evaluate search geo _ filter hlater, errorOf_evaluate search geo _ filter
    ((laterChildrenValid_congr hsame _).symm.trans hlater), validate_congr hsame, hsame.rules]

theorem restrictedIndex_error_independent_of_documents :
    SameSettings restrictedIndex emptyRestrictedIndex ∧
    laterChildrenValid restrictedIndex
      (.and [.condition (sampleToken "a") (.equal (sampleToken "1")),
        .condition (sampleToken "a") (.greaterThan (sampleToken "3"))]) = true ∧
    errorOf (Filter.evaluate .levelZero .inOrder
      ⟨.and [.condition (sampleToken "a") (.equal (sampleToken "1")),
        .condition (sampleToken "a") (.greaterThan (sampleToken "3"))]⟩ restrictedIndex) =
    errorOf (Filter.evaluate .levelZero .inOrder
      ⟨.and [.condition (sampleToken "a") (.equal (sampleToken "1")),
        .condition (sampleToken "a") (.greaterThan (sampleToken "3"))]⟩ emptyRestrictedIndex) :=
  ⟨⟨rfl, rfl, rfl⟩, by decide, evaluate_error_independent_of_documents .levelZero .inOrder
    restrictedIndex emptyRestrictedIndex ⟨rfl, rfl, rfl⟩ _ (by decide)⟩

/-- The same filter fails on an index where `a = 1` matches and succeeds where it does not. -/
theorem evaluate_error_depends_on_documents :
    SameSettings restrictedIndex emptyRestrictedIndex ∧
    errorOf (Filter.evaluate .levelZero .inOrder ⟨forbiddenAfterAnd⟩ restrictedIndex) =
      some (generateFilterError restrictedIndex 1 (.greaterThan (sampleToken "3")) equalityOnly 1) ∧
    Filter.evaluate .levelZero .inOrder ⟨forbiddenAfterAnd⟩ emptyRestrictedIndex = .ok ∅ :=
  ⟨⟨rfl, rfl, rfl⟩, by decide, by decide⟩

end MilliCore.Search
