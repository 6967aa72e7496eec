import MilliCore.Search.Syntax

set_option autoImplicit false

namespace MilliCore.Search
open MilliCore.Store

def reservedGeoFieldName : String := "_geo"

def Bound.isEmptyRange {α : Type} [LinearOrder α] : Bound α → Bound α → Bool
  | .included l, .included r => decide (l > r)
  | .included l, .excluded r => decide (l ≥ r)
  | .excluded l, .excluded r => decide (l ≥ r)
  | .excluded l, .included r => decide (l ≥ r)
  | _, _ => false

/-- The guards of `evaluate_operator`: the feature each operator needs. `Contains` and
    `StartsWith` have no guard. -/
def Condition.passesGuard (features : FilterableAttributesFeatures) : Condition → Bool
  | .greaterThan _ | .greaterThanOrEqual _ | .lowerThan _ | .lowerThanOrEqual _ | .between _ _ =>
    features.isFilterableComparison
  | .empty => features.isFilterableEmpty
  | .null => features.isFilterableNull
  | .exists => features.isFilterableExists
  | .equal _ | .notEqual _ => features.isFilterableEquality
  | .contains _ _ | .startsWith _ _ => true

def generateFilterError (index : Index) (fieldId : FieldId) (operator : Condition)
    (features : FilterableAttributesFeatures) (ruleIndex : ℕ) : Error :=
  .filterOperatorNotAllowed ((index.fieldsIdsMap.name fieldId).getD "")
    features.allowedFilterOperators operator.operator ruleIndex

/-- The `Equal(val)` arm of `evaluate_operator`: the string facet at the normalised value and
    the numeric facet at the parsed float. -/
def equalDocids (search : FacetSearch) (index : Index) (fieldId : FieldId) (val : Token) : RoaringBitmap :=
  let stringDocids :=
    ((index.facetIdStringDocids.get ⟨fieldId, 0, search.normalizeFacet val.value⟩).map (·.bitmap)).getD ∅
  let numberDocids := match val.parseFiniteFloat.toOption with
    | some n => ((index.facetIdF64Docids.get ⟨fieldId, 0, n⟩).map (·.bitmap)).getD ∅
    | none => ∅
  stringDocids ∪ numberDocids

def containsDocids (search : FacetSearch) (index : Index) (fieldId : FieldId) (word : Token) : RoaringBitmap :=
  let value := search.normalizeFacet word.value
  unionAll (((index.facetIdStringDocids.prefixIter ⟨fieldId, 0, ""⟩).filter
    fun e => decide (value.toList <:+: e.1.leftBound.toList)).map (·.2.bitmap))

def startsWithDocids (search : FacetSearch) (index : Index) (fieldId : FieldId) (word : Token) : RoaringBitmap :=
  unionAll ((index.facetIdStringDocids.prefixIter ⟨fieldId, 0, search.normalizeFacet word.value⟩).map
    (·.2.bitmap))

section Evaluation
variable (search : FacetSearch) (geo : GeoSearch)

def exploreFacetLevels {α : Type} [LinearOrder α] (db : FacetDb α) (fieldId : FieldId)
    (left right : Bound α) (universe' : Option RoaringBitmap) : RoaringBitmap :=
  if Bound.isEmptyRange left right then ∅
  else search.findDocidsOfFacetWithinBounds db fieldId left right universe'

def rangeDocids (index : Index) (fieldId : FieldId) (universe' : Option RoaringBitmap)
    (numberBounds : Option (Bound FiniteF64 × Bound FiniteF64))
    (stringBounds : Bound String × Bound String) : RoaringBitmap :=
  ((numberBounds.map fun b => exploreFacetLevels search index.facetIdF64Docids fieldId b.1 b.2
      universe').getD ∅) ∪
    exploreFacetLevels search index.facetIdStringDocids fieldId stringBounds.1 stringBounds.2
      universe'

/-- The arms of `evaluate_operator` past its guards. `NotEqual` evaluates `Equal` under the same
    guard, so its arm uses `equalDocids` directly (`evaluateOperator_notEqual`). -/
def operatorDocids (index : Index) (fieldId : FieldId) (universe' : Option RoaringBitmap) :
    Condition → RoaringBitmap
  | .greaterThan val => rangeDocids search index fieldId universe'
      (val.parseFiniteFloat.toOption.map fun n => (.excluded n, .included f64Max))
      (.excluded val.value, .unbounded)
  | .greaterThanOrEqual val => rangeDocids search index fieldId universe'
      (val.parseFiniteFloat.toOption.map fun n => (.included n, .included f64Max))
      (.included val.value, .unbounded)
  | .lowerThan val => rangeDocids search index fieldId universe'
      (val.parseFiniteFloat.toOption.map fun n => (.included f64Min, .excluded n))
      (.unbounded, .excluded val.value)
  | .lowerThanOrEqual val => rangeDocids search index fieldId universe'
      (val.parseFiniteFloat.toOption.map fun n => (.included f64Min, .included n))
      (.unbounded, .included val.value)
  | .between «from» «to» => rangeDocids search index fieldId universe'
      (match «from».parseFiniteFloat, «to».parseFiniteFloat with
        | .ok f, .ok t => some (.included f, .included t)
        | _, _ => none)
      (.included «from».value, .included «to».value)
  | .null => index.nullFacetedDocumentsIds fieldId
  | .empty => index.emptyFacetedDocumentsIds fieldId
  | .exists => index.existsFacetedDocumentsIds fieldId
  | .equal val => equalDocids search index fieldId val
  | .notEqual val => index.documentsIds \ equalDocids search index fieldId val
  | .contains _ word => containsDocids search index fieldId word
  | .startsWith _ word => startsWithDocids search index fieldId word

def evaluateOperator (index : Index) (fieldId : FieldId) (universe' : Option RoaringBitmap)
    (operator : Condition) (features : FilterableAttributesFeatures) (ruleIndex : ℕ) :
    Except Error RoaringBitmap :=
  if operator.passesGuard features then .ok (operatorDocids search index fieldId universe' operator)
  else .error (generateFilterError index fieldId operator features ruleIndex)

@[simp] theorem evaluateOperator_eq_ok (index : Index) (fieldId : FieldId)
    (universe' : Option RoaringBitmap) (operator : Condition)
    (features : FilterableAttributesFeatures) (ruleIndex : ℕ) (B : RoaringBitmap) :
    evaluateOperator search index fieldId universe' operator features ruleIndex = .ok B ↔
      operator.passesGuard features ∧ operatorDocids search index fieldId universe' operator = B := by
  unfold evaluateOperator
  split <;> simp [*]

theorem evaluateOperator_notEqual (index : Index) (fieldId : FieldId)
    (universe' : Option RoaringBitmap) (val : Token) (features : FilterableAttributesFeatures)
    (ruleIndex : ℕ) (h : features.isFilterableEquality = true) :
    evaluateOperator search index fieldId universe' (.notEqual val) features ruleIndex =
      (do let docids ← evaluateOperator search index fieldId none (.equal val) features ruleIndex
          pure (index.documentsIds \ docids)) := by
  simp [evaluateOperator, operatorDocids, Condition.passesGuard, h]

def fieldRule (index : Index) (fid : Token) :
    Option (FieldId × ℕ × FilterableAttributesFeatures) :=
  match index.fieldsIdsMap.id fid.value,
    matchingFeatures fid.value index.filterableAttributesRules with
  | some fieldId, some (ruleIndex, features) => some (fieldId, ruleIndex, features)
  | _, _ => none

/-- The field lookups of the `In` and `Condition` arms of `inner_evaluate`: an unknown field, or
    one that no rule matches, gives the empty bitmap. -/
def withFieldFeatures (index : Index) (fid : Token)
    (k : FieldId → ℕ → FilterableAttributesFeatures → Except Error RoaringBitmap) :
    Except Error RoaringBitmap :=
  match fieldRule index fid with
  | none => .ok ∅
  | some (fieldId, ruleIndex, features) => k fieldId ruleIndex features

/-- The union of results, stopping at the first error (`MultiOps::union` over `Result`s). -/
def unionResults : List (Except Error RoaringBitmap) → Except Error RoaringBitmap
  | [] => .ok ∅
  | r :: rs => do
    let b ← r
    let rest ← unionResults rs
    pure (b ∪ rest)

def isEmptyUniverse (universe' : Option RoaringBitmap) : Bool :=
  universe'.any fun u => decide (u = ∅)

/-- `inner_evaluate` answers an empty universe with the empty bitmap before looking at the
    filter. -/
def unlessEmptyUniverse (universe' : Option RoaringBitmap)
    (result : Except Error RoaringBitmap) : Except Error RoaringBitmap :=
  if isEmptyUniverse universe' then .ok ∅ else result

def innerEvaluateCondition (index : Index) (universe' : Option RoaringBitmap) (fid : Token)
    (op : Condition) : Except Error RoaringBitmap :=
  unlessEmptyUniverse universe' <| withFieldFeatures index fid fun fieldId ruleIndex features =>
    evaluateOperator search index fieldId universe' op features ruleIndex

def geoNotFilterable (index : Index) (token : Token) : Error :=
  token.asExternalError (.attributeNotFilterable reservedGeoFieldName
    (filteredMatchingPatterns index.filterableAttributesRules (·.isFilterable)))

def validLat (lat : FiniteF64) : Bool := decide (-90 ≤ lat.val ∧ lat.val ≤ 90)
def validLng (lng : FiniteF64) : Bool := decide (-180 ≤ lng.val ∧ lng.val ≤ 180)

def checkGeoPoint (point : Token × Token) : Except Error (FiniteF64 × FiniteF64) := do
  let lat ← point.1.parseFiniteFloat
  let lng ← point.2.parseFiniteFloat
  if !validLat lat then throw (point.1.asExternalError (.parseGeoError (.lat lat)))
  if !validLng lng then throw (point.2.asExternalError (.parseGeoError (.lng lng)))
  pure (lat, lng)

def geoLowerThan (index : Index) (point : Token × Token) (radius : Token) :
    Except Error RoaringBitmap :=
  if index.isGeoFilteringEnabled then do
    let centre ← checkGeoPoint point
    let radius ← radius.parseFiniteFloat
    match index.geoRtree with
    | none => pure ∅
    | some rtree =>
      pure (((geo.nearestNeighborIter rtree centre).takeWhile
        fun p => geo.withinRadius centre p.2 radius).map (·.1)).toFinset
  else throw (geoNotFilterable index point.1)

/-- The corner checks of the `GeoBoundingBox` arm of `inner_evaluate`, in the source's order. -/
def checkBoundingBox (topRightPoint bottomLeftPoint : Token × Token) :
    Except Error ((FiniteF64 × FiniteF64) × (FiniteF64 × FiniteF64)) := do
  let topRight := (← topRightPoint.1.parseFiniteFloat, ← topRightPoint.2.parseFiniteFloat)
  let bottomLeft := (← bottomLeftPoint.1.parseFiniteFloat, ← bottomLeftPoint.2.parseFiniteFloat)
  if !validLat topRight.1 then
    throw (topRightPoint.1.asExternalError (.parseGeoError (.lat topRight.1)))
  if !validLng topRight.2 then
    throw (topRightPoint.2.asExternalError (.parseGeoError (.lng topRight.2)))
  if !validLat bottomLeft.1 then
    throw (bottomLeftPoint.1.asExternalError (.parseGeoError (.lat bottomLeft.1)))
  if !validLng bottomLeft.2 then
    throw (bottomLeftPoint.2.asExternalError (.parseGeoError (.lng bottomLeft.2)))
  if topRight.1 < bottomLeft.1 then
    throw (bottomLeftPoint.2.asExternalError
      (.parseGeoError (.boundingBoxTopIsBelowBottom topRight.1 bottomLeft.1)))
  pure (topRight, bottomLeft)

def geoLatToken (topRightPoint : Token × Token) : Token := Token.new topRightPoint.1.span "_geo.lat"
def geoLngToken (topRightPoint : Token × Token) : Token := Token.new topRightPoint.2.span "_geo.lng"
def minLngToken (topRightPoint : Token × Token) : Token := Token.new topRightPoint.2.span "-180.0"
def maxLngToken (topRightPoint : Token × Token) : Token := Token.new topRightPoint.2.span "180.0"

/-- The `GeoBoundingBox` arm of `inner_evaluate`: range filters on `_geo.lat` and `_geo.lng`,
    the longitude split in two when the box crosses the antimeridian. -/
def geoBoundingBox (index : Index) (universe' : Option RoaringBitmap)
    (topRightPoint bottomLeftPoint : Token × Token) : Except Error RoaringBitmap :=
  if index.isGeoFilteringEnabled then do
    let (topRight, bottomLeft) ← checkBoundingBox topRightPoint bottomLeftPoint
    let selectedLat ← innerEvaluateCondition search index universe' (geoLatToken topRightPoint)
      (.between bottomLeftPoint.1 topRightPoint.1)
    let selectedLng ← (if topRight.2 < bottomLeft.2 then do
        let left ← innerEvaluateCondition search index universe' (geoLngToken topRightPoint)
          (.between bottomLeftPoint.2 (maxLngToken topRightPoint))
        let right ← innerEvaluateCondition search index universe' (geoLngToken topRightPoint)
          (.between (minLngToken topRightPoint) topRightPoint.2)
        pure (left ∪ right)
      else
        innerEvaluateCondition search index universe' (geoLngToken topRightPoint)
          (.between bottomLeftPoint.2 topRightPoint.2))
    pure (selectedLat ∩ selectedLng)
  else throw (geoNotFilterable index topRightPoint.1)

mutual
def innerEvaluate (index : Index) (universe' : Option RoaringBitmap) :
    FilterCondition → Except Error RoaringBitmap
  | .not filter => unlessEmptyUniverse universe' do
    let selected ← innerEvaluate index universe' filter
    match universe' with
    | some u => pure (u \ selected)
    | none => pure (index.documentsIds \ selected)
  | .in fid els => unlessEmptyUniverse universe' <|
    withFieldFeatures index fid fun fieldId ruleIndex features =>
      unionResults (els.map fun el =>
        evaluateOperator search index fieldId universe' (.equal el) features ruleIndex)
  | .condition fid op => innerEvaluateCondition search index universe' fid op
  | .or filters => unlessEmptyUniverse universe' (innerEvaluateOr index universe' filters)
  | .and [] => unlessEmptyUniverse universe' (.ok ∅)
  | .and (first :: rest) => unlessEmptyUniverse universe' do
    let bitmap ← innerEvaluate index universe' first
    innerEvaluateAnd index bitmap rest
  | .geoLowerThan point radius => unlessEmptyUniverse universe' (geoLowerThan geo index point radius)
  | .geoBoundingBox topRightPoint bottomLeftPoint => unlessEmptyUniverse universe'
    (geoBoundingBox search index universe' topRightPoint bottomLeftPoint)

def innerEvaluateOr (index : Index) (universe' : Option RoaringBitmap) :
    List FilterCondition → Except Error RoaringBitmap
  | [] => .ok ∅
  | filter :: filters => do
    let b ← innerEvaluate index universe' filter
    let rest ← innerEvaluateOr index universe' filters
    pure (b ∪ rest)

/-- The fold of the `And` arm of `inner_evaluate`: each later sub-filter under the bitmap so
    far, which it then narrows (`bitmap &= ...`), stopping once it is empty. -/
def innerEvaluateAnd (index : Index) (bitmap : RoaringBitmap) :
    List FilterCondition → Except Error RoaringBitmap
  | [] => .ok bitmap
  | filter :: filters =>
    if bitmap = ∅ then .ok bitmap
    else do
      let selected ← innerEvaluate index (some bitmap) filter
      innerEvaluateAnd index (bitmap ∩ selected) filters
end

/-- The check `evaluate` makes of each field before evaluating. -/
def checkFilterable (rules : List FilterableAttributesRule) (fid : Token) : Except Error Unit :=
  if (matchingFeatures fid.value rules).any (·.2.isFilterable) then .ok ()
  else .error (fid.asExternalError (.attributeNotFilterable fid.value
    (filteredMatchingPatterns rules (·.isFilterable))))

def Filter.evaluate (filter : Filter) (index : Index) : Except Error RoaringBitmap := do
  (filter.condition.fids maxFilterDepth).forM (checkFilterable index.filterableAttributesRules)
  innerEvaluate search geo index none filter.condition

end Evaluation

/-! ## The message of a field that is not filterable -/

theorem display_notFilterable (format : FiniteF64 → String) («attribute» : String)
    (rules : List FilterableAttributesRule) :
    ("Attribute `" ++ «attribute» ++ "` is not filterable.").data <+:
        ((FilterError.attributeNotFilterable «attribute»
          (filteredMatchingPatterns rules (·.isFilterable))).display format).data ∧
      ∀ rule ∈ rules, rule.features.isFilterable = true →
        ("`" ++ rule.pattern ++ "`").data <:+: ((FilterError.attributeNotFilterable «attribute»
          (filteredMatchingPatterns rules (·.isFilterable))).display format).data :=
  ⟨(display_attributeNotFilterable format _ _).1, fun _ hrule hf =>
    (display_attributeNotFilterable format _ _).2 _
      (List.mem_toFinset.2 (List.mem_map_of_mem _ (List.mem_filter.2 ⟨hrule, hf⟩)))⟩

theorem checkFilterable_error_display (format : FiniteF64 → String)
    {rules : List FilterableAttributesRule} {fid : Token} {e : Error}
    (h : checkFilterable rules fid = .error e) :
    ∃ error, e = .invalidFilter fid error ∧
      ("Attribute `" ++ fid.value ++ "` is not filterable.").data <+: (error.display format).data ∧
      ∀ rule ∈ rules, rule.features.isFilterable = true →
        ("`" ++ rule.pattern ++ "`").data <:+: (error.display format).data := by
  unfold checkFilterable at h
  split at h
  · cases h
  · cases h
    exact ⟨_, rfl, display_notFilterable format fid.value rules⟩

end MilliCore.Search
