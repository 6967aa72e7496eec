import MilliCore.Search.Operators

set_option autoImplicit false

namespace MilliCore.Search
open MilliCore.Store

section Corners
variable {topRightPoint bottomLeftPoint : Token × Token} {a b c d : FiniteF64}
  (h1 : topRightPoint.1.parseFiniteFloat = .ok a) (h2 : topRightPoint.2.parseFiniteFloat = .ok b)
  (h3 : bottomLeftPoint.1.parseFiniteFloat = .ok c)
  (h4 : bottomLeftPoint.2.parseFiniteFloat = .ok d)
include h1 h2 h3 h4

theorem checkBoundingBox_parsed_eq_ok (box : (FiniteF64 × FiniteF64) × (FiniteF64 × FiniteF64)) :
    checkBoundingBox topRightPoint bottomLeftPoint = .ok box ↔
      box = ((a, b), (c, d)) ∧ validLat a ∧ validLng b ∧ validLat c ∧ validLng d ∧ c ≤ a := by
  unfold checkBoundingBox
  rw [h1, h2, h3, h4]
  simp only [ok_bind, throw, throwThe, MonadExceptOf.throw, pure, Except.pure, bind, Except.bind]
  repeat' split
  all_goals simp_all [-FiniteF64.le_iff, -FiniteF64.lt_iff]
  exact eq_comm

theorem checkBoundingBox_parsed_error {e : Error}
    (h : checkBoundingBox topRightPoint bottomLeftPoint = .error e) :
    ∃ token error, e = .invalidFilter token (.parseGeoError error) := by
  unfold checkBoundingBox at h
  rw [h1, h2, h3, h4] at h
  simp only [ok_bind, throw, throwThe, MonadExceptOf.throw, pure, Except.pure, bind, Except.bind] at h
  repeat' split at h
  all_goals cases h
  all_goals exact ⟨_, _, rfl⟩

end Corners

theorem parseFiniteFloat_of_checkBoundingBox {topRightPoint bottomLeftPoint : Token × Token}
    {topRight bottomLeft : FiniteF64 × FiniteF64}
    (h : checkBoundingBox topRightPoint bottomLeftPoint = .ok (topRight, bottomLeft)) :
    topRightPoint.1.parseFiniteFloat = .ok topRight.1 ∧
      topRightPoint.2.parseFiniteFloat = .ok topRight.2 ∧
      bottomLeftPoint.1.parseFiniteFloat = .ok bottomLeft.1 ∧
      bottomLeftPoint.2.parseFiniteFloat = .ok bottomLeft.2 := by
  have hparsed := h
  unfold checkBoundingBox at hparsed
  obtain ⟨a, h1, hparsed⟩ := bind_eq_ok.1 hparsed
  obtain ⟨b, h2, hparsed⟩ := bind_eq_ok.1 hparsed
  obtain ⟨c, h3, hparsed⟩ := bind_eq_ok.1 hparsed
  obtain ⟨d, h4, -⟩ := bind_eq_ok.1 hparsed
  obtain ⟨hbox, -⟩ := (checkBoundingBox_parsed_eq_ok h1 h2 h3 h4 _).1 h
  simp only [Prod.mk.injEq] at hbox
  obtain ⟨⟨rfl, rfl⟩, rfl, rfl⟩ := hbox
  exact ⟨h1, h2, h3, h4⟩

section FirstError
variable {topRightPoint bottomLeftPoint : Token × Token} {a b c : FiniteF64} {e : Error}

theorem checkBoundingBox_error_first (h1 : topRightPoint.1.parseFiniteFloat = .error e) :
    checkBoundingBox topRightPoint bottomLeftPoint = .error e := by
  rw [checkBoundingBox, h1]
  rfl

theorem checkBoundingBox_error_second (h1 : topRightPoint.1.parseFiniteFloat = .ok a)
    (h2 : topRightPoint.2.parseFiniteFloat = .error e) :
    checkBoundingBox topRightPoint bottomLeftPoint = .error e := by
  rw [checkBoundingBox, h1, h2]
  rfl

theorem checkBoundingBox_error_third (h1 : topRightPoint.1.parseFiniteFloat = .ok a)
    (h2 : topRightPoint.2.parseFiniteFloat = .ok b)
    (h3 : bottomLeftPoint.1.parseFiniteFloat = .error e) :
    checkBoundingBox topRightPoint bottomLeftPoint = .error e := by
  rw [checkBoundingBox, h1, h2, h3]
  rfl

theorem checkBoundingBox_error_fourth (h1 : topRightPoint.1.parseFiniteFloat = .ok a)
    (h2 : topRightPoint.2.parseFiniteFloat = .ok b)
    (h3 : bottomLeftPoint.1.parseFiniteFloat = .ok c)
    (h4 : bottomLeftPoint.2.parseFiniteFloat = .error e) :
    checkBoundingBox topRightPoint bottomLeftPoint = .error e := by
  rw [checkBoundingBox, h1, h2, h3, h4]
  rfl

end FirstError

theorem parseFiniteFloat_maxLngToken (topRightPoint : Token × Token) :
    (maxLngToken topRightPoint).parseFiniteFloat = .ok ⟨180, by decide⟩ := rfl

theorem parseFiniteFloat_minLngToken (topRightPoint : Token × Token) :
    (minLngToken topRightPoint).parseFiniteFloat = .ok ⟨-180, by decide⟩ := rfl

theorem passesGuard_between {features : FilterableAttributesFeatures}
    (h : features.isFilterableComparison = true) («from» «to» : Token) :
    (Condition.between «from» «to»).passesGuard features = true := h

section Box
variable (search : FacetSearch) (geo : GeoSearch) (index : Index)
  {topRightPoint bottomLeftPoint : Token × Token}

theorem evaluate_geoBoundingBox :
    Filter.evaluate search geo ⟨.geoBoundingBox topRightPoint bottomLeftPoint⟩ index =
      geoBoundingBox search index none topRightPoint bottomLeftPoint := rfl

theorem mem_geoBoundingBox {latId lngId : FieldId} {latRule lngRule : ℕ}
    {latFeatures lngFeatures : FilterableAttributesFeatures}
    (hgeo : index.isGeoFilteringEnabled = true)
    (hlatId : index.fieldsIdsMap.id "_geo.lat" = some latId)
    (hlngId : index.fieldsIdsMap.id "_geo.lng" = some lngId)
    (hlatRule : matchingFeatures "_geo.lat" index.filterableAttributesRules =
      some (latRule, latFeatures))
    (hlngRule : matchingFeatures "_geo.lng" index.filterableAttributesRules =
      some (lngRule, lngFeatures))
    (hlatCmp : latFeatures.isFilterableComparison = true)
    (hlngCmp : lngFeatures.isFilterableComparison = true)
    (hlatStrings : ∀ d s, ¬index.facetIdStringDocids.Holds latId d s)
    (hlngStrings : ∀ d s, ¬index.facetIdStringDocids.Holds lngId d s)
    {topRight bottomLeft : FiniteF64 × FiniteF64}
    (hcheck : checkBoundingBox topRightPoint bottomLeftPoint = .ok (topRight, bottomLeft)) :
    ∃ B, geoBoundingBox search index none topRightPoint bottomLeftPoint = .ok B ∧ ∀ d, d ∈ B ↔
      (∃ lat, index.facetIdF64Docids.Holds latId d lat ∧
        bottomLeft.1 ≤ lat ∧ lat ≤ topRight.1) ∧
      ∃ lng, index.facetIdF64Docids.Holds lngId d lng ∧
        if topRight.2 < bottomLeft.2 then
          (bottomLeft.2 ≤ lng ∧ lng.val ≤ 180) ∨ (-180 ≤ lng.val ∧ lng ≤ topRight.2)
        else bottomLeft.2 ≤ lng ∧ lng ≤ topRight.2 := by
  obtain ⟨h1, h2, h3, h4⟩ := parseFiniteFloat_of_checkBoundingBox hcheck
  have hlat : fieldRule index (geoLatToken topRightPoint) = some (latId, latRule, latFeatures) := by
    rw [fieldRule_of_matchingFeatures index hlatRule]
    simp [geoLatToken, Token.new, hlatId]
  have hlng : fieldRule index (geoLngToken topRightPoint) = some (lngId, lngRule, lngFeatures) := by
    rw [fieldRule_of_matchingFeatures index hlngRule]
    simp [geoLngToken, Token.new, hlngId]
  rw [geoBoundingBox, if_pos hgeo, hcheck, ok_bind]
  dsimp only
  rw [innerEvaluateCondition_none search index hlat (passesGuard_between hlatCmp _ _), ok_bind]
  split
  · rename_i hwrap
    rw [innerEvaluateCondition_none search index hlng (passesGuard_between hlngCmp _ _), ok_bind,
      innerEvaluateCondition_none search index hlng (passesGuard_between hlngCmp _ _), ok_bind]
    refine ⟨_, rfl, fun d => ?_⟩
    simp [mem_between_of_parsed search index latId h3 h1 (hlatStrings d),
      mem_between_of_parsed search index lngId h4 (parseFiniteFloat_maxLngToken _) (hlngStrings d),
      mem_between_of_parsed search index lngId (parseFiniteFloat_minLngToken _) h2 (hlngStrings d),
      hwrap, and_or_left, exists_or]
  · rename_i hwrap
    rw [innerEvaluateCondition_none search index hlng (passesGuard_between hlngCmp _ _)]
    refine ⟨_, rfl, fun d => ?_⟩
    simp [mem_between_of_parsed search index latId h3 h1 (hlatStrings d),
      mem_between_of_parsed search index lngId h4 h2 (hlngStrings d), hwrap]

/-- What a bounding box filter does on a geo-enabled index that stores `_geo.lat` and
    `_geo.lng` under `latId` and `lngId`, read off its four corner tokens alone. The first corner
    that is not a finite number, in the order top latitude, top longitude, bottom latitude,
    bottom longitude, fails the filter with its own invalid-float error. With four finite
    corners the filter succeeds exactly when the latitudes lie in `[-90, 90]`, the longitudes in
    `[-180, 180]` and the top is not below the bottom, fails otherwise with a `BadGeo` error, and
    selects the documents inside the box, the longitudes split at the antimeridian. -/
def BoundingBoxSpec (latId lngId : FieldId) (topRightPoint bottomLeftPoint : Token × Token) :
    Prop :=
  let evaluation :=
    Filter.evaluate search geo ⟨.geoBoundingBox topRightPoint bottomLeftPoint⟩ index
  (∀ e, topRightPoint.1.parseFiniteFloat = .error e →
    evaluation = .error e ∧ ∃ kind, e = .invalidFloat topRightPoint.1 kind) ∧
  (∀ a e, topRightPoint.1.parseFiniteFloat = .ok a → topRightPoint.2.parseFiniteFloat = .error e →
    evaluation = .error e ∧ ∃ kind, e = .invalidFloat topRightPoint.2 kind) ∧
  (∀ a b e, topRightPoint.1.parseFiniteFloat = .ok a → topRightPoint.2.parseFiniteFloat = .ok b →
    bottomLeftPoint.1.parseFiniteFloat = .error e →
    evaluation = .error e ∧ ∃ kind, e = .invalidFloat bottomLeftPoint.1 kind) ∧
  (∀ a b c e, topRightPoint.1.parseFiniteFloat = .ok a →
    topRightPoint.2.parseFiniteFloat = .ok b → bottomLeftPoint.1.parseFiniteFloat = .ok c →
    bottomLeftPoint.2.parseFiniteFloat = .error e →
    evaluation = .error e ∧ ∃ kind, e = .invalidFloat bottomLeftPoint.2 kind) ∧
  ∀ a b c d, topRightPoint.1.parseFiniteFloat = .ok a →
    topRightPoint.2.parseFiniteFloat = .ok b → bottomLeftPoint.1.parseFiniteFloat = .ok c →
    bottomLeftPoint.2.parseFiniteFloat = .ok d →
    ((∃ B, evaluation = .ok B) ↔ validLat a ∧ validLng b ∧ validLat c ∧ validLng d ∧ c ≤ a) ∧
    (∀ e, evaluation = .error e → ∃ token error, e = .invalidFilter token (.parseGeoError error)) ∧
    ∀ B, evaluation = .ok B → ∀ doc, doc ∈ B ↔
      (∃ lat, index.facetIdF64Docids.Holds latId doc lat ∧ c ≤ lat ∧ lat ≤ a) ∧
      ∃ lng, index.facetIdF64Docids.Holds lngId doc lng ∧
        if b < d then (d ≤ lng ∧ lng.val ≤ 180) ∨ (-180 ≤ lng.val ∧ lng ≤ b)
        else d ≤ lng ∧ lng ≤ b

theorem geoBoundingBox_meets_spec {latId lngId : FieldId} {latRule lngRule : ℕ}
    {latFeatures lngFeatures : FilterableAttributesFeatures}
    (hgeo : index.isGeoFilteringEnabled = true)
    (hlatId : index.fieldsIdsMap.id "_geo.lat" = some latId)
    (hlngId : index.fieldsIdsMap.id "_geo.lng" = some lngId)
    (hlatRule : matchingFeatures "_geo.lat" index.filterableAttributesRules =
      some (latRule, latFeatures))
    (hlngRule : matchingFeatures "_geo.lng" index.filterableAttributesRules =
      some (lngRule, lngFeatures))
    (hlatCmp : latFeatures.isFilterableComparison = true)
    (hlngCmp : lngFeatures.isFilterableComparison = true)
    (hlatStrings : ∀ d s, ¬index.facetIdStringDocids.Holds latId d s)
    (hlngStrings : ∀ d s, ¬index.facetIdStringDocids.Holds lngId d s)
    (topRightPoint bottomLeftPoint : Token × Token) :
    BoundingBoxSpec search geo index latId lngId topRightPoint bottomLeftPoint := by
  have herror : ∀ e, checkBoundingBox topRightPoint bottomLeftPoint = .error e →
      Filter.evaluate search geo ⟨.geoBoundingBox topRightPoint bottomLeftPoint⟩ index =
        .error e := fun e he => by
    rw [evaluate_geoBoundingBox, geoBoundingBox, if_pos hgeo, he]
    rfl
  refine ⟨fun e h1 => ⟨herror e (checkBoundingBox_error_first h1), parseFiniteFloat_error h1⟩,
    fun a e h1 h2 => ⟨herror e (checkBoundingBox_error_second h1 h2), parseFiniteFloat_error h2⟩,
    fun a b e h1 h2 h3 =>
      ⟨herror e (checkBoundingBox_error_third h1 h2 h3), parseFiniteFloat_error h3⟩,
    fun a b c e h1 h2 h3 h4 =>
      ⟨herror e (checkBoundingBox_error_fourth h1 h2 h3 h4), parseFiniteFloat_error h4⟩,
    fun a b c d h1 h2 h3 h4 => ?_⟩
  have hbox := checkBoundingBox_parsed_eq_ok h1 h2 h3 h4
  cases hcheck : checkBoundingBox topRightPoint bottomLeftPoint with
  | error e =>
    rw [herror e hcheck]
    refine ⟨⟨fun ⟨_, h⟩ => (nomatch h),
      fun hvalid => (nomatch hcheck.symm.trans ((hbox _).2 ⟨rfl, hvalid⟩))⟩, fun e' he' => ?_,
      fun _ h => (nomatch h)⟩
    cases he'
    exact checkBoundingBox_parsed_error h1 h2 h3 h4 hcheck
  | ok box =>
    obtain ⟨rfl, hvalid⟩ := (hbox box).1 hcheck
    obtain ⟨B, hB, hmem⟩ := mem_geoBoundingBox search index hgeo hlatId hlngId hlatRule hlngRule
      hlatCmp hlngCmp hlatStrings hlngStrings hcheck
    rw [evaluate_geoBoundingBox, hB]
    exact ⟨⟨fun _ => hvalid, fun _ => ⟨B, rfl⟩⟩, fun _ h => (nomatch h),
      fun _ hB' => by cases hB'; exact hmem⟩

end Box

/-- Fields `_geo.lat` (id `0`) and `_geo.lng` (id `1`), comparable; document `0` is stored at
    latitude `0` and longitude `200`. -/
def geoIndex : Index where
  fieldsIdsMap := ⟨[("_geo.lat", 0), ("_geo.lng", 1)], by decide, by decide⟩
  filterableAttributesRules := [⟨"_geo.lat", allFeatures⟩, ⟨"_geo.lng", allFeatures⟩]
  facetIdF64Docids := ⟨[(⟨0, 0, ⟨0, by decide⟩⟩, ⟨1, {0}⟩), (⟨1, 0, ⟨200, by decide⟩⟩, ⟨1, {0}⟩)],
    by decide⟩
  facetIdStringDocids := ⟨[], by decide⟩
  documentsIds := {0}
  nullFacetedDocumentsIds := fun _ => ∅
  emptyFacetedDocumentsIds := fun _ => ∅
  existsFacetedDocumentsIds := fun _ => ∅
  isGeoFilteringEnabled := true
  geoRtree := none

theorem geoIndex_meets_spec :
    geoIndex.isGeoFilteringEnabled = true ∧ geoIndex.fieldsIdsMap.id "_geo.lat" = some 0 ∧
    geoIndex.fieldsIdsMap.id "_geo.lng" = some 1 ∧
    matchingFeatures "_geo.lat" geoIndex.filterableAttributesRules = some (0, allFeatures) ∧
    matchingFeatures "_geo.lng" geoIndex.filterableAttributesRules = some (1, allFeatures) ∧
    allFeatures.isFilterableComparison = true ∧
    (∀ d s, ¬geoIndex.facetIdStringDocids.Holds 0 d s) ∧
    (∀ d s, ¬geoIndex.facetIdStringDocids.Holds 1 d s) ∧
    BoundingBoxSpec .levelZero .inOrder geoIndex 0 1 (sampleToken "10", sampleToken "20")
      (sampleToken "-10", sampleToken "-20") :=
  have hlatId : geoIndex.fieldsIdsMap.id "_geo.lat" = some 0 := by decide
  have hlngId : geoIndex.fieldsIdsMap.id "_geo.lng" = some 1 := by decide
  have hlatRule : matchingFeatures "_geo.lat" geoIndex.filterableAttributesRules =
      some (0, allFeatures) := by decide
  have hlngRule : matchingFeatures "_geo.lng" geoIndex.filterableAttributesRules =
      some (1, allFeatures) := by decide
  have hstrings : ∀ fieldId d s, ¬geoIndex.facetIdStringDocids.Holds fieldId d s :=
    fun _ _ _ ⟨_, he, _⟩ => List.not_mem_nil _ he
  ⟨rfl, hlatId, hlngId, hlatRule, hlngRule, rfl, hstrings 0, hstrings 1,
    geoBoundingBox_meets_spec .levelZero .inOrder geoIndex rfl hlatId hlngId hlatRule hlngRule
      rfl rfl (hstrings 0) (hstrings 1) _ _⟩

/-- On `geoIndex`: the corner `north` fails the filter with an invalid float, and document `0`, at
    latitude `0` and longitude `200`, is not selected by a box from longitude `170` across the
    antimeridian to `-170`, whose split is `[170, 180] ∪ [-180, -170]`. -/
theorem geoBoundingBox_word_corner_and_longitude_200 :
    Filter.evaluate .levelZero .inOrder
      ⟨.geoBoundingBox (sampleToken "north", sampleToken "-170")
        (sampleToken "-10", sampleToken "170")⟩ geoIndex =
      .error (.invalidFloat (sampleToken "north") .invalidFloat) ∧
    geoIndex.facetIdF64Docids.Holds 0 0 ⟨0, by decide⟩ ∧
    geoIndex.facetIdF64Docids.Holds 1 0 ⟨200, by decide⟩ ∧
    Filter.evaluate .levelZero .inOrder
      ⟨.geoBoundingBox (sampleToken "10", sampleToken "-170")
        (sampleToken "-10", sampleToken "170")⟩ geoIndex = .ok ∅ := by
  refine ⟨by decide, ⟨_, List.mem_cons_self _ _, rfl, by decide⟩,
    ⟨_, List.mem_cons_of_mem _ (List.mem_cons_self _ _), rfl, by decide⟩, ?_⟩
  have hcheck : checkBoundingBox (sampleToken "10", sampleToken "-170")
      (sampleToken "-10", sampleToken "170") =
      .ok ((⟨10, by decide⟩, ⟨-170, by decide⟩), (⟨-10, by decide⟩, ⟨170, by decide⟩)) := by
    decide
  obtain ⟨B, hB, hmem⟩ := mem_geoBoundingBox .levelZero geoIndex rfl
    (show geoIndex.fieldsIdsMap.id "_geo.lat" = some 0 by decide)
    (show geoIndex.fieldsIdsMap.id "_geo.lng" = some 1 by decide)
    (show matchingFeatures "_geo.lat" geoIndex.filterableAttributesRules = some (0, allFeatures)
      by decide)
    (show matchingFeatures "_geo.lng" geoIndex.filterableAttributesRules = some (1, allFeatures)
      by decide) rfl rfl (fun _ _ ⟨_, he, _⟩ => List.not_mem_nil _ he)
    (fun _ _ ⟨_, he, _⟩ => List.not_mem_nil _ he) hcheck
  rw [evaluate_geoBoundingBox, hB]
  refine congrArg Except.ok (Finset.eq_empty_of_forall_not_mem fun d hd => ?_)
  obtain ⟨-, lng, ⟨e, he, hk, -⟩, hlng⟩ := (hmem d).1 hd
  simp only [geoIndex, List.mem_cons, List.mem_singleton, List.not_mem_nil, or_false] at he
  rcases he with rfl | rfl
  · exact absurd (congrArg FacetGroupKey.fieldId hk) (show ¬((0 : FieldId) = 1) by decide)
  · cases hk
    rw [if_pos (by decide)] at hlng
    simp only [FiniteF64.le_iff] at hlng
    revert hlng
    decide

end MilliCore.Search
