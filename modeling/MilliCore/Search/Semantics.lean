import MilliCore.Search.Evaluate

set_option autoImplicit false

namespace MilliCore.Search
open MilliCore.Store

def Agree (scope x y : RoaringBitmap) : Prop := ∀ d ∈ scope, d ∈ x ↔ d ∈ y

def universeScope (index : Index) : Option RoaringBitmap → RoaringBitmap
  | none => index.documentsIds
  | some u => u ∩ index.documentsIds

theorem universeScope_subset (index : Index) (universe' : Option RoaringBitmap) :
    universeScope index universe' ⊆ index.documentsIds := by
  cases universe' <;> simp [universeScope, Finset.inter_subset_right]

theorem mem_of_mem_universeScope {index : Index} {universe' : Option RoaringBitmap}
    {u : RoaringBitmap} {d : DocumentId} (hd : d ∈ universeScope index universe')
    (hu : universe' = some u) : d ∈ u := by
  subst hu
  exact (Finset.mem_inter.1 hd).1

theorem inter_eq_of_agree {S x y : RoaringBitmap} (h : Agree S x y) : x ∩ S = y ∩ S := by
  ext d
  simp only [Finset.mem_inter]
  exact ⟨fun ⟨hx, hd⟩ => ⟨(h d hd).1 hx, hd⟩, fun ⟨hy, hd⟩ => ⟨(h d hd).2 hy, hd⟩⟩

theorem universeScope_eq_getD {index : Index} {universe' : Option RoaringBitmap}
    (hu : ∀ S, universe' = some S → S ⊆ index.documentsIds) :
    universeScope index universe' = universe'.getD index.documentsIds := by
  cases universe' with
  | none => rfl
  | some S => exact Finset.inter_eq_left.2 (hu S rfl)

section Semantics
variable (search : FacetSearch) (geo : GeoSearch) (index : Index)

/-- `evaluate_operator` on a condition with no universe, its guard set aside. -/
def conditionSemantics (fid : Token) (op : Condition) : RoaringBitmap :=
  match fieldRule index fid with
  | none => ∅
  | some (fieldId, _, _) => operatorDocids search index fieldId none op

mutual
/-- What `inner_evaluate` computes with no universe, no early exit and no operator check; an
    `And` with no children selects nothing, as in the code. -/
def semantics : FilterCondition → RoaringBitmap
  | .not filter => index.documentsIds \ semantics filter
  | .in fid els =>
    match fieldRule index fid with
    | none => ∅
    | some (fieldId, _, _) => unionAll (els.map (equalDocids search index fieldId))
  | .condition fid op => conditionSemantics search index fid op
  | .or filters => semanticsOr filters
  | .and [] => ∅
  | .and (first :: rest) => semanticsAnd (semantics first) rest
  | .geoLowerThan point radius => (geoLowerThan geo index point radius).toOption.getD ∅
  | .geoBoundingBox topRightPoint bottomLeftPoint =>
    match checkBoundingBox topRightPoint bottomLeftPoint with
    | .ok (topRight, bottomLeft) =>
      conditionSemantics search index (geoLatToken topRightPoint)
          (.between bottomLeftPoint.1 topRightPoint.1) ∩
        if topRight.2 < bottomLeft.2 then
          conditionSemantics search index (geoLngToken topRightPoint)
              (.between bottomLeftPoint.2 (maxLngToken topRightPoint)) ∪
            conditionSemantics search index (geoLngToken topRightPoint)
              (.between (minLngToken topRightPoint) topRightPoint.2)
        else
          conditionSemantics search index (geoLngToken topRightPoint)
            (.between bottomLeftPoint.2 topRightPoint.2)
    | .error _ => ∅

def semanticsOr : List FilterCondition → RoaringBitmap
  | [] => ∅
  | filter :: filters => semantics filter ∪ semanticsOr filters

def semanticsAnd (acc : RoaringBitmap) : List FilterCondition → RoaringBitmap
  | [] => acc
  | filter :: filters => semanticsAnd (acc ∩ semantics filter) filters
end

theorem semanticsAnd_subset (acc : RoaringBitmap) (filters : List FilterCondition) :
    semanticsAnd search geo index acc filters ⊆ acc := by
  induction filters generalizing acc with
  | nil => simp [semanticsAnd]
  | cons filter filters ih =>
    simp only [semanticsAnd]
    exact (ih _).trans Finset.inter_subset_left

theorem agree_unlessEmptyUniverse {universe' : Option RoaringBitmap}
    {result : Except Error RoaringBitmap} {B Y : RoaringBitmap}
    (h : unlessEmptyUniverse universe' result = .ok B)
    (hr : result = .ok B → Agree (universeScope index universe') B Y) :
    Agree (universeScope index universe') B Y := by
  unfold unlessEmptyUniverse at h
  split at h
  · rename_i hu
    cases universe' with
    | none => simp [isEmptyUniverse] at hu
    | some u =>
      simp only [isEmptyUniverse, Option.any_some, decide_eq_true_eq] at hu
      subst hu
      intro d hd
      simp [universeScope] at hd
  · exact hr h

theorem mem_exploreFacetLevels {α : Type} [LinearOrder α] (db : FacetDb α) (fieldId : FieldId)
    (left right : Bound α) (universe' : Option RoaringBitmap) (d : DocumentId)
    (hd : ∀ u, universe' = some u → d ∈ u) :
    d ∈ exploreFacetLevels search db fieldId left right universe' ↔
      d ∈ exploreFacetLevels search db fieldId left right none := by
  unfold exploreFacetLevels
  split
  · rfl
  cases universe' with
  | none => rfl
  | some u =>
    have h := congrArg (d ∈ ·) (search.find_universe db fieldId left right u)
    simpa [hd u rfl] using h

theorem mem_operatorDocids (fieldId : FieldId) (universe' : Option RoaringBitmap)
    (op : Condition) (d : DocumentId) (hd : ∀ u, universe' = some u → d ∈ u) :
    d ∈ operatorDocids search index fieldId universe' op ↔
      d ∈ operatorDocids search index fieldId none op := by
  have hrange : ∀ numberBounds stringBounds,
      d ∈ rangeDocids search index fieldId universe' numberBounds stringBounds ↔
        d ∈ rangeDocids search index fieldId none numberBounds stringBounds := by
    intro numberBounds stringBounds
    cases numberBounds <;>
      simp [rangeDocids, mem_exploreFacetLevels search _ _ _ _ universe' d hd]
  cases op <;> simp only [operatorDocids, hrange]

theorem innerEvaluateCondition_agree {universe' : Option RoaringBitmap} {fid : Token}
    {op : Condition} {B : RoaringBitmap}
    (h : innerEvaluateCondition search index universe' fid op = .ok B) :
    Agree (universeScope index universe') B (conditionSemantics search index fid op) := by
  refine agree_unlessEmptyUniverse index h fun h => ?_
  cases hr : fieldRule index fid with
  | none =>
    simp only [withFieldFeatures, hr, Except.ok.injEq] at h
    simp [conditionSemantics, hr, ← h, Agree]
  | some r =>
    obtain ⟨fieldId, ruleIndex, features⟩ := r
    simp only [withFieldFeatures, hr, evaluateOperator_eq_ok] at h
    rw [← h.2]
    intro d hd
    simpa [conditionSemantics, hr] using
      mem_operatorDocids search index fieldId universe' op d fun u hu => mem_of_mem_universeScope hd hu

theorem unionResults_map_eq_ok {α : Type} (f : α → Except Error RoaringBitmap)
    (g : α → RoaringBitmap) (hf : ∀ x b, f x = .ok b → b = g x) (l : List α) (B : RoaringBitmap)
    (h : unionResults (l.map f) = .ok B) : B = unionAll (l.map g) := by
  induction l generalizing B with
  | nil => simpa [unionResults, unionAll, eq_comm] using h
  | cons x xs ih =>
    obtain ⟨b, hb, h⟩ := bind_eq_ok.1 h
    obtain ⟨rest, hrest, h⟩ := bind_eq_ok.1 h
    cases h
    simp [unionAll, hf x b hb, ih rest hrest]

section Arms
variable {universe' : Option RoaringBitmap} {B : RoaringBitmap}

theorem agree_not {filter : FilterCondition}
    (ih : ∀ B, innerEvaluate search geo index universe' filter = .ok B →
      Agree (universeScope index universe') B (semantics search geo index filter))
    (h : innerEvaluate search geo index universe' (.not filter) = .ok B) :
    Agree (universeScope index universe') B (semantics search geo index (.not filter)) := by
  rw [innerEvaluate] at h
  refine agree_unlessEmptyUniverse index h fun h => ?_
  obtain ⟨selected, hs, hB⟩ := bind_eq_ok.1 h
  intro d hd
  have hsel := ih selected hs d hd
  have hdocs := universeScope_subset index universe' hd
  cases universe' with
  | none =>
    cases hB
    simp [semantics, hsel, hdocs]
  | some u =>
    cases hB
    simp [semantics, hsel, hdocs, mem_of_mem_universeScope hd rfl]

theorem agree_in {fid : Token} {els : List Token}
    (h : innerEvaluate search geo index universe' (.in fid els) = .ok B) :
    Agree (universeScope index universe') B (semantics search geo index (.in fid els)) := by
  rw [innerEvaluate] at h
  refine agree_unlessEmptyUniverse index h fun h => ?_
  cases hr : fieldRule index fid with
  | none =>
    simp only [withFieldFeatures, hr, Except.ok.injEq] at h
    simp [semantics, hr, ← h, Agree]
  | some r =>
    obtain ⟨fieldId, ruleIndex, features⟩ := r
    simp only [withFieldFeatures, hr] at h
    have hB := unionResults_map_eq_ok _ (equalDocids search index fieldId)
      (fun x b hx => by simpa [operatorDocids] using ((evaluateOperator_eq_ok ..).1 hx).2.symm) els B h
    simp [semantics, hr, hB, Agree]

theorem agree_or {filters : List FilterCondition}
    (ih : ∀ B, innerEvaluateOr search geo index universe' filters = .ok B →
      Agree (universeScope index universe') B (semanticsOr search geo index filters))
    (h : innerEvaluate search geo index universe' (.or filters) = .ok B) :
    Agree (universeScope index universe') B (semantics search geo index (.or filters)) := by
  rw [innerEvaluate] at h
  exact agree_unlessEmptyUniverse index h fun h => by simpa [semantics] using ih B h

theorem agree_and_nil (h : innerEvaluate search geo index universe' (.and []) = .ok B) :
    Agree (universeScope index universe') B (semantics search geo index (.and [])) := by
  rw [innerEvaluate] at h
  refine agree_unlessEmptyUniverse index h fun h => ?_
  cases h
  simp [semantics, Agree]

theorem agree_and_cons {first : FilterCondition} {rest : List FilterCondition}
    (ih : ∀ B, innerEvaluate search geo index universe' first = .ok B →
      Agree (universeScope index universe') B (semantics search geo index first))
    (ihs : ∀ S bitmap X B, S ⊆ index.documentsIds → Agree S bitmap X →
      innerEvaluateAnd search geo index bitmap rest = .ok B →
      Agree S B (semanticsAnd search geo index X rest))
    (h : innerEvaluate search geo index universe' (.and (first :: rest)) = .ok B) :
    Agree (universeScope index universe') B (semantics search geo index (.and (first :: rest))) := by
  rw [innerEvaluate] at h
  refine agree_unlessEmptyUniverse index h fun h => ?_
  obtain ⟨bitmap, hb, h⟩ := bind_eq_ok.1 h
  simpa [semantics] using ihs _ _ _ B (universeScope_subset index universe') (ih bitmap hb) h

theorem agree_geoLowerThan {point : Token × Token} {radius : Token}
    (h : innerEvaluate search geo index universe' (.geoLowerThan point radius) = .ok B) :
    Agree (universeScope index universe') B
      (semantics search geo index (.geoLowerThan point radius)) := by
  rw [innerEvaluate] at h
  refine agree_unlessEmptyUniverse index h fun h => ?_
  simp [semantics, h, Agree, Except.toOption]

theorem agree_geoBoundingBox {topRightPoint bottomLeftPoint : Token × Token}
    (h : innerEvaluate search geo index universe'
      (.geoBoundingBox topRightPoint bottomLeftPoint) = .ok B) :
    Agree (universeScope index universe') B
      (semantics search geo index (.geoBoundingBox topRightPoint bottomLeftPoint)) := by
  rw [innerEvaluate] at h
  refine agree_unlessEmptyUniverse index h fun h => ?_
  unfold geoBoundingBox at h
  split at h
  · obtain ⟨⟨topRight, bottomLeft⟩, hcheck, h⟩ := bind_eq_ok.1 h
    obtain ⟨lat, hlat, h⟩ := bind_eq_ok.1 h
    obtain ⟨lng, hlng, h⟩ := bind_eq_ok.1 h
    cases h
    have hlat := innerEvaluateCondition_agree search index hlat
    intro d hd
    simp only [semantics, hcheck, Finset.mem_inter, hlat d hd]
    split at hlng
    · obtain ⟨left, hleft, h⟩ := bind_eq_ok.1 hlng
      obtain ⟨right, hright, h⟩ := bind_eq_ok.1 h
      cases h
      simp [*, innerEvaluateCondition_agree search index hleft d hd,
        innerEvaluateCondition_agree search index hright d hd]
    · simp [*, innerEvaluateCondition_agree search index hlng d hd]
  · cases h

end Arms

theorem agree_or_cons {universe' : Option RoaringBitmap} {filter : FilterCondition}
    {filters : List FilterCondition} {B : RoaringBitmap}
    (ih : ∀ B, innerEvaluate search geo index universe' filter = .ok B →
      Agree (universeScope index universe') B (semantics search geo index filter))
    (ihs : ∀ B, innerEvaluateOr search geo index universe' filters = .ok B →
      Agree (universeScope index universe') B (semanticsOr search geo index filters))
    (h : innerEvaluateOr search geo index universe' (filter :: filters) = .ok B) :
    Agree (universeScope index universe') B (semanticsOr search geo index (filter :: filters)) := by
  rw [innerEvaluateOr] at h
  obtain ⟨b, hb, h⟩ := bind_eq_ok.1 h
  obtain ⟨rest, hrest, h⟩ := bind_eq_ok.1 h
  cases h
  intro d hd
  simp [semanticsOr, ih b hb d hd, ihs rest hrest d hd]

theorem agree_and_step {S bitmap X selected : RoaringBitmap} {filter : FilterCondition}
    (hS : S ⊆ index.documentsIds) (hX : Agree S bitmap X)
    (hsel : Agree (universeScope index (some bitmap)) selected (semantics search geo index filter)) :
    Agree S (bitmap ∩ selected) (X ∩ semantics search geo index filter) := by
  intro d hd
  simp only [Finset.mem_inter, ← hX d hd]
  constructor
  · rintro ⟨hb, hs⟩
    exact ⟨hb, (hsel d (Finset.mem_inter.2 ⟨hb, hS hd⟩)).1 hs⟩
  · rintro ⟨hb, hs⟩
    exact ⟨hb, (hsel d (Finset.mem_inter.2 ⟨hb, hS hd⟩)).2 hs⟩

mutual
theorem innerEvaluate_agree : ∀ (filter : FilterCondition) (universe' : Option RoaringBitmap)
    (B : RoaringBitmap), innerEvaluate search geo index universe' filter = .ok B →
      Agree (universeScope index universe') B (semantics search geo index filter)
  | .not filter, universe', _, h => agree_not search geo index (innerEvaluate_agree filter universe') h
  | .in _ _, _, _, h => agree_in search geo index h
  | .condition _ _, _, _, h => innerEvaluateCondition_agree search index h
  | .or filters, universe', _, h => agree_or search geo index (innerEvaluateOr_agree filters universe') h
  | .and [], _, _, h => agree_and_nil search geo index h
  | .and (first :: rest), universe', _, h =>
    agree_and_cons search geo index (innerEvaluate_agree first universe')
      (innerEvaluateAnd_agree rest) h
  | .geoLowerThan _ _, _, _, h => agree_geoLowerThan search geo index h
  | .geoBoundingBox _ _, _, _, h => agree_geoBoundingBox search geo index h

theorem innerEvaluateOr_agree : ∀ (filters : List FilterCondition)
    (universe' : Option RoaringBitmap) (B : RoaringBitmap),
    innerEvaluateOr search geo index universe' filters = .ok B →
      Agree (universeScope index universe') B (semanticsOr search geo index filters)
  | [], _, _, h => by
    cases h
    simp [semanticsOr, Agree]
  | filter :: filters, universe', _, h =>
    agree_or_cons search geo index (innerEvaluate_agree filter universe')
      (innerEvaluateOr_agree filters universe') h

theorem innerEvaluateAnd_agree : ∀ (filters : List FilterCondition) (S bitmap X B : RoaringBitmap),
    S ⊆ index.documentsIds → Agree S bitmap X →
    innerEvaluateAnd search geo index bitmap filters = .ok B →
      Agree S B (semanticsAnd search geo index X filters)
  | [], _, _, _, _, _, hX, h => by
    cases h
    simpa [semanticsAnd] using hX
  | filter :: filters, S, bitmap, X, B, hS, hX, h => by
    rw [innerEvaluateAnd] at h
    split at h
    · cases h
      intro d hd
      have hX := hX d hd
      simp_all only [Finset.not_mem_empty, false_iff]
      exact fun hmem => hX (semanticsAnd_subset search geo index _ _ hmem |> Finset.mem_of_mem_inter_left)
    · obtain ⟨selected, hsel, h⟩ := bind_eq_ok.1 h
      exact innerEvaluateAnd_agree filters S _ _ B hS
        (agree_and_step search geo index hS hX (innerEvaluate_agree filter (some bitmap) selected hsel)) h
end

theorem levelZeroUnion_subset {α : Type} {db : FacetDb α} {S : RoaringBitmap}
    (hdb : ∀ e ∈ db.entries, e.2.bitmap ⊆ S) (fieldId : FieldId) (keep : α → Bool) :
    db.levelZeroUnion fieldId keep ⊆ S := by
  intro d hd
  obtain ⟨e, he, -, -, -, hde⟩ := (FacetDb.mem_levelZeroUnion ..).1 hd
  exact hdb e he hde

theorem exploreFacetLevels_subset {α : Type} [LinearOrder α] {db : FacetDb α} {S : RoaringBitmap}
    (hdb : ∀ e ∈ db.entries, e.2.bitmap ⊆ S) (fieldId : FieldId)
    (left right : Bound α) :
    exploreFacetLevels search db fieldId left right none ⊆ S := by
  unfold exploreFacetLevels
  split
  · exact Finset.empty_subset _
  · rw [search.find_none]
    exact levelZeroUnion_subset hdb fieldId _

theorem innerEvaluateAnd_subset (filters : List FilterCondition) (bitmap B : RoaringBitmap)
    (h : innerEvaluateAnd search geo index bitmap filters = .ok B) : B ⊆ bitmap := by
  induction filters generalizing bitmap with
  | nil =>
    cases h
    exact Finset.Subset.refl _
  | cons filter filters ih =>
    rw [innerEvaluateAnd] at h
    split at h
    · cases h
      exact Finset.Subset.refl _
    · obtain ⟨selected, -, h⟩ := bind_eq_ok.1 h
      exact (ih _ h).trans Finset.inter_subset_left

theorem semantics_and_pair (g h : FilterCondition) :
    semantics search geo index (.and [g, h]) =
      semantics search geo index g ∩ semantics search geo index h := by
  simp [semantics, semanticsAnd]

theorem semantics_or_pair (g h : FilterCondition) :
    semantics search geo index (.or [g, h]) =
      semantics search geo index g ∪ semantics search geo index h := by
  simp [semantics, semanticsOr]

theorem mem_semanticsOr (filters : List FilterCondition) (d : DocumentId) :
    d ∈ semanticsOr search geo index filters ↔ ∃ f ∈ filters, d ∈ semantics search geo index f := by
  induction filters with
  | nil => simp [semanticsOr]
  | cons filter filters ih => simp [semanticsOr, ih]

theorem mem_semanticsAnd (acc : RoaringBitmap) (filters : List FilterCondition) (d : DocumentId) :
    d ∈ semanticsAnd search geo index acc filters ↔
      d ∈ acc ∧ ∀ f ∈ filters, d ∈ semantics search geo index f := by
  induction filters generalizing acc with
  | nil => simp [semanticsAnd]
  | cons filter filters ih => simp [semanticsAnd, ih, and_assoc]

@[simp] theorem unlessEmptyUniverse_none (result : Except Error RoaringBitmap) :
    unlessEmptyUniverse none result = result := rfl

section Closed
variable (hc : index.Closed)
include hc

theorem prefixIter_subset (base : FacetGroupKey String) :
    ∀ e ∈ index.facetIdStringDocids.prefixIter base, e.2.bitmap ⊆ index.documentsIds :=
  fun e he => hc.string e (List.mem_of_mem_filter he)

theorem equalDocids_subset (fieldId : FieldId) (val : Token) :
    equalDocids search index fieldId val ⊆ index.documentsIds := by
  have hget : ∀ {β : Type} [DecidableEq β] (db : FacetDb β),
      (∀ e ∈ db.entries, e.2.bitmap ⊆ index.documentsIds) → ∀ key,
      ((db.get key).map (·.bitmap)).getD ∅ ⊆ index.documentsIds := by
    intro β _ db hdb key
    cases hk : db.get key with
    | none => exact Finset.empty_subset _
    | some v => exact hdb _ ((FacetDb.get_eq_some db key v).1 hk)
  refine Finset.union_subset (hget _ hc.string _) ?_
  split
  · exact hget _ hc.f64 _
  · exact Finset.empty_subset _

theorem operatorDocids_subset (fieldId : FieldId) (op : Condition) :
    operatorDocids search index fieldId none op ⊆ index.documentsIds := by
  have hrange : ∀ numberBounds stringBounds,
      rangeDocids search index fieldId none numberBounds stringBounds ⊆ index.documentsIds := by
    intro numberBounds stringBounds
    refine Finset.union_subset ?_ (exploreFacetLevels_subset search hc.string _ _ _)
    cases numberBounds
    · exact Finset.empty_subset _
    · exact exploreFacetLevels_subset search hc.f64 _ _ _
  cases op with
  | null => exact hc.null fieldId
  | empty => exact hc.empty fieldId
  | «exists» => exact hc.exists_ fieldId
  | equal val => exact equalDocids_subset search index hc fieldId val
  | notEqual val => exact Finset.sdiff_subset
  | contains _ word =>
    exact unionAll_subset _ fun b hb => by
      obtain ⟨e, he, rfl⟩ := List.mem_map.1 hb
      exact prefixIter_subset index hc _ e (List.mem_of_mem_filter he)
  | startsWith _ word =>
    exact unionAll_subset _ fun b hb => by
      obtain ⟨e, he, rfl⟩ := List.mem_map.1 hb
      exact prefixIter_subset index hc _ e he
  | _ => exact hrange _ _

theorem conditionSemantics_subset (fid : Token) (op : Condition) :
    conditionSemantics search index fid op ⊆ index.documentsIds := by
  unfold conditionSemantics
  split
  · exact Finset.empty_subset _
  · exact operatorDocids_subset search index hc _ op

theorem geoLowerThan_subset {point : Token × Token} {radius : Token} {B : RoaringBitmap}
    (h : geoLowerThan geo index point radius = .ok B) : B ⊆ index.documentsIds := by
  unfold geoLowerThan at h
  split at h
  · obtain ⟨centre, -, h⟩ := bind_eq_ok.1 h
    obtain ⟨radius, -, h⟩ := bind_eq_ok.1 h
    split at h
    · cases h
      exact Finset.empty_subset _
    · rename_i rtree hrtree
      cases h
      intro d hd
      simp only [List.mem_toFinset, List.mem_map] at hd
      obtain ⟨p, hp, rfl⟩ := hd
      exact hc.geo rtree hrtree p
        ((geo.nearestNeighborIter_perm rtree centre).subset (List.takeWhile_subset _ hp))
  · cases h

end Closed

mutual
theorem semantics_subset (hc : index.Closed) : ∀ filter : FilterCondition,
    semantics search geo index filter ⊆ index.documentsIds
  | .not _ => Finset.sdiff_subset
  | .in fid els => by
    simp only [semantics]
    split
    · exact Finset.empty_subset _
    · exact unionAll_subset _ fun b hb => by
        obtain ⟨val, -, rfl⟩ := List.mem_map.1 hb
        exact equalDocids_subset search index hc _ val
  | .condition fid op => conditionSemantics_subset search index hc fid op
  | .or filters => semanticsOr_subset hc filters
  | .and [] => Finset.empty_subset _
  | .and (first :: rest) =>
    (semanticsAnd_subset search geo index _ rest).trans (semantics_subset hc first)
  | .geoLowerThan point radius => by
    simp only [semantics]
    cases h : geoLowerThan geo index point radius with
    | error => exact Finset.empty_subset _
    | ok B => exact geoLowerThan_subset geo index hc h
  | .geoBoundingBox _ _ => by
    simp only [semantics]
    split
    · exact Finset.inter_subset_left.trans (conditionSemantics_subset search index hc _ _)
    · exact Finset.empty_subset _

theorem semanticsOr_subset (hc : index.Closed) : ∀ filters : List FilterCondition,
    semanticsOr search geo index filters ⊆ index.documentsIds
  | [] => Finset.empty_subset _
  | filter :: filters =>
    Finset.union_subset (semantics_subset hc filter) (semanticsOr_subset hc filters)
end

theorem innerEvaluateCondition_none_subset (hc : index.Closed) {fid : Token} {op : Condition}
    {B : RoaringBitmap}
    (h : innerEvaluateCondition search index none fid op = .ok B) : B ⊆ index.documentsIds := by
  simp only [innerEvaluateCondition, unlessEmptyUniverse_none, withFieldFeatures] at h
  split at h
  · cases h
    exact Finset.empty_subset _
  · obtain ⟨-, rfl⟩ := (evaluateOperator_eq_ok ..).1 h
    exact operatorDocids_subset search index hc _ _

mutual
theorem innerEvaluate_none_subset (hc : index.Closed) :
    ∀ (filter : FilterCondition) (B : RoaringBitmap),
    innerEvaluate search geo index none filter = .ok B → B ⊆ index.documentsIds
  | .not _, _, h => by
    rw [innerEvaluate, unlessEmptyUniverse_none] at h
    obtain ⟨_, -, h⟩ := bind_eq_ok.1 h
    cases h
    exact Finset.sdiff_subset
  | .in fid els, B, h => by
    rw [innerEvaluate, unlessEmptyUniverse_none] at h
    simp only [withFieldFeatures] at h
    split at h
    · cases h
      exact Finset.empty_subset _
    · rw [unionResults_map_eq_ok _ (equalDocids search index _) (fun x b hx => by
        simpa [operatorDocids] using ((evaluateOperator_eq_ok ..).1 hx).2.symm) els B h]
      exact unionAll_subset _ fun b hb => by
        obtain ⟨val, -, rfl⟩ := List.mem_map.1 hb
        exact equalDocids_subset search index hc _ val
  | .condition _ _, _, h => innerEvaluateCondition_none_subset search index hc h
  | .or filters, B, h => innerEvaluateOr_none_subset hc filters B h
  | .and [], _, h => by
    cases h
    exact Finset.empty_subset _
  | .and (first :: rest), B, h => by
    rw [innerEvaluate, unlessEmptyUniverse_none] at h
    obtain ⟨bitmap, hb, h⟩ := bind_eq_ok.1 h
    exact (innerEvaluateAnd_subset search geo index rest bitmap B h).trans
      (innerEvaluate_none_subset hc first bitmap hb)
  | .geoLowerThan _ _, _, h => geoLowerThan_subset geo index hc h
  | .geoBoundingBox _ _, _, h => by
    rw [innerEvaluate, unlessEmptyUniverse_none] at h
    unfold geoBoundingBox at h
    split at h
    · obtain ⟨_, -, h⟩ := bind_eq_ok.1 h
      obtain ⟨lat, hlat, h⟩ := bind_eq_ok.1 h
      obtain ⟨_, -, h⟩ := bind_eq_ok.1 h
      cases h
      exact Finset.inter_subset_left.trans (innerEvaluateCondition_none_subset search index hc hlat)
    · cases h

theorem innerEvaluateOr_none_subset (hc : index.Closed) :
    ∀ (filters : List FilterCondition) (B : RoaringBitmap),
    innerEvaluateOr search geo index none filters = .ok B → B ⊆ index.documentsIds
  | [], _, h => by
    cases h
    exact Finset.empty_subset _
  | filter :: filters, _, h => by
    rw [innerEvaluateOr] at h
    obtain ⟨b, hb, h⟩ := bind_eq_ok.1 h
    obtain ⟨rest, hrest, h⟩ := bind_eq_ok.1 h
    cases h
    exact Finset.union_subset (innerEvaluate_none_subset hc filter b hb)
      (innerEvaluateOr_none_subset hc filters rest hrest)
end

/-- `Filter::evaluate` returns the plain set semantics of its filter. -/
theorem evaluate_eq_semantics (hc : index.Closed) (filter : Filter) (B : RoaringBitmap)
    (h : filter.evaluate search geo index = .ok B) :
    B = semantics search geo index filter.condition := by
  obtain ⟨_, -, h⟩ := bind_eq_ok.1 h
  have hagree := innerEvaluate_agree search geo index _ none B h
  have hB := innerEvaluate_none_subset search geo index hc _ B h
  have hsem := semantics_subset search geo index hc filter.condition
  ext d
  constructor
  · intro hd
    exact (hagree d (hB hd)).1 hd
  · intro hd
    exact (hagree d (hsem hd)).2 hd

/-! ## The set semantics of a filter

The plain set semantics intersects the children of an `And` within `documents_ids`, so an `And`
with no children selects every document, where `inner_evaluate` selects none. The two agree on
every filter with no such `And`. -/

mutual
def setSemantics : FilterCondition → RoaringBitmap
  | .not filter => index.documentsIds \ setSemantics filter
  | .or filters => setSemanticsOr filters
  | .and filters => setSemanticsAnd index.documentsIds filters
  | .in fid els => semantics search geo index (.in fid els)
  | .condition fid op => semantics search geo index (.condition fid op)
  | .geoLowerThan point radius => semantics search geo index (.geoLowerThan point radius)
  | .geoBoundingBox topRightPoint bottomLeftPoint =>
    semantics search geo index (.geoBoundingBox topRightPoint bottomLeftPoint)

def setSemanticsOr : List FilterCondition → RoaringBitmap
  | [] => ∅
  | filter :: filters => setSemantics filter ∪ setSemanticsOr filters

def setSemanticsAnd (acc : RoaringBitmap) : List FilterCondition → RoaringBitmap
  | [] => acc
  | filter :: filters => setSemanticsAnd (acc ∩ setSemantics filter) filters
end

mutual
def FilterCondition.hasEmptyAnd : FilterCondition → Bool
  | .not filter => filter.hasEmptyAnd
  | .or filters => anyHasEmptyAnd filters
  | .and [] => true
  | .and (filter :: filters) => filter.hasEmptyAnd || anyHasEmptyAnd filters
  | _ => false

def anyHasEmptyAnd : List FilterCondition → Bool
  | [] => false
  | filter :: filters => filter.hasEmptyAnd || anyHasEmptyAnd filters
end

mutual
theorem setSemantics_eq (hc : index.Closed) : ∀ filter : FilterCondition,
    filter.hasEmptyAnd = false → setSemantics search geo index filter = semantics search geo index filter
  | .not filter, h => by
    rw [setSemantics, semantics, setSemantics_eq hc filter h]
  | .or filters, h => by
    rw [setSemantics, semantics, setSemanticsOr_eq hc filters h]
  | .and [], h => nomatch h
  | .and (first :: rest), h => by
    simp only [FilterCondition.hasEmptyAnd, Bool.or_eq_false_iff] at h
    rw [setSemantics, semantics, setSemanticsAnd, setSemantics_eq hc first h.1,
      Finset.inter_eq_right.2 (semantics_subset search geo index hc first),
      setSemanticsAnd_eq hc _ rest h.2]
  | .in _ _, _ | .condition _ _, _ | .geoLowerThan _ _, _ | .geoBoundingBox _ _, _ => by
    rw [setSemantics]

theorem setSemanticsOr_eq (hc : index.Closed) : ∀ filters : List FilterCondition,
    anyHasEmptyAnd filters = false →
      setSemanticsOr search geo index filters = semanticsOr search geo index filters
  | [], _ => by rw [setSemanticsOr, semanticsOr]
  | filter :: filters, h => by
    simp only [anyHasEmptyAnd, Bool.or_eq_false_iff] at h
    rw [setSemanticsOr, semanticsOr, setSemantics_eq hc filter h.1, setSemanticsOr_eq hc filters h.2]

theorem setSemanticsAnd_eq (hc : index.Closed) (acc : RoaringBitmap) :
    ∀ filters : List FilterCondition, anyHasEmptyAnd filters = false →
      setSemanticsAnd search geo index acc filters = semanticsAnd search geo index acc filters
  | [], _ => by rw [setSemanticsAnd, semanticsAnd]
  | filter :: filters, h => by
    simp only [anyHasEmptyAnd, Bool.or_eq_false_iff] at h
    rw [setSemanticsAnd, semanticsAnd, setSemantics_eq hc filter h.1,
      setSemanticsAnd_eq hc _ filters h.2]
end

/-- On a filter with no empty `And`, evaluation under any universe inside the index is exact on
    that universe and a whole filter evaluates to its set semantics; `AND` and `OR` are
    commutative and idempotent on every pair of successful evaluations. -/
theorem innerEvaluate_exact_on_universe (hc : index.Closed) :
    (∀ (filter : FilterCondition) (universe' : Option RoaringBitmap) (B : RoaringBitmap),
      filter.hasEmptyAnd = false → (∀ S, universe' = some S → S ⊆ index.documentsIds) →
      innerEvaluate search geo index universe' filter = .ok B →
      B ∩ universe'.getD index.documentsIds =
        setSemantics search geo index filter ∩ universe'.getD index.documentsIds) ∧
    (∀ (filter : Filter) (B : RoaringBitmap), filter.condition.hasEmptyAnd = false →
      filter.evaluate search geo index = .ok B → B = setSemantics search geo index filter.condition) ∧
    (∀ (g h : FilterCondition) (B C : RoaringBitmap),
      Filter.evaluate search geo ⟨.and [g, h]⟩ index = .ok B →
      Filter.evaluate search geo ⟨.and [h, g]⟩ index = .ok C → B = C) ∧
    (∀ (g h : FilterCondition) (B C : RoaringBitmap),
      Filter.evaluate search geo ⟨.or [g, h]⟩ index = .ok B →
      Filter.evaluate search geo ⟨.or [h, g]⟩ index = .ok C → B = C) ∧
    (∀ (g : FilterCondition) (B C : RoaringBitmap),
      Filter.evaluate search geo ⟨.and [g, g]⟩ index = .ok B →
      Filter.evaluate search geo ⟨g⟩ index = .ok C → B = C) ∧
    (∀ (g : FilterCondition) (B C : RoaringBitmap),
      Filter.evaluate search geo ⟨.or [g, g]⟩ index = .ok B →
      Filter.evaluate search geo ⟨g⟩ index = .ok C → B = C) := by
  have heval := evaluate_eq_semantics search geo index hc
  refine ⟨fun filter universe' B hempty hu h => ?_,
    fun filter B hempty h =>
      (heval filter B h).trans (setSemantics_eq search geo index hc _ hempty).symm,
    ?_, ?_, ?_, ?_⟩
  · rw [← universeScope_eq_getD hu, setSemantics_eq search geo index hc filter hempty]
    exact inter_eq_of_agree (innerEvaluate_agree search geo index filter universe' B h)
  · intro g h B C hB hC
    rw [heval _ B hB, heval _ C hC, semantics_and_pair, semantics_and_pair, Finset.inter_comm]
  · intro g h B C hB hC
    rw [heval _ B hB, heval _ C hC, semantics_or_pair, semantics_or_pair, Finset.union_comm]
  · intro g B C hB hC
    rw [heval _ B hB, heval _ C hC, semantics_and_pair, Finset.inter_self]
  · intro g B C hB hC
    rw [heval _ B hB, heval _ C hC, semantics_or_pair, Finset.union_self]

end Semantics

def sampleToken (value : String) : Token := ⟨⟨0, value⟩, value⟩

def allFeatures : FilterableAttributesFeatures := ⟨true, true⟩

/-- Documents `0` and `1`; the field `a` (id `0`) is filterable with every feature and
    document `1` holds the number `1` for it. -/
def sampleIndex : Index where
  fieldsIdsMap := ⟨[("a", 0)], by decide, by decide⟩
  filterableAttributesRules := [⟨"a", allFeatures⟩]
  facetIdF64Docids := ⟨[(⟨0, 0, ⟨1, by decide⟩⟩, ⟨1, {1}⟩)], by decide⟩
  facetIdStringDocids := ⟨[], by decide⟩
  documentsIds := {0, 1}
  nullFacetedDocumentsIds := fun _ => ∅
  emptyFacetedDocumentsIds := fun _ => ∅
  existsFacetedDocumentsIds := fun _ => ∅
  isGeoFilteringEnabled := false
  geoRtree := none

theorem sampleIndex_closed : sampleIndex.Closed :=
  ⟨by decide, by decide, fun _ => Finset.empty_subset _, fun _ => Finset.empty_subset _,
    fun _ => Finset.empty_subset _, fun _ h => nomatch h⟩

theorem sampleIndex_and_not_under_universe :
    sampleIndex.Closed ∧
      innerEvaluate .levelZero .inOrder sampleIndex (some {0, 1})
        (.and [.not (.condition (sampleToken "a") (.equal (sampleToken "1"))),
          .not (.condition (sampleToken "a") (.equal (sampleToken "2")))]) = .ok {0} ∧
      {0} ∩ {0, 1} = setSemantics .levelZero .inOrder sampleIndex
        (.and [.not (.condition (sampleToken "a") (.equal (sampleToken "1"))),
          .not (.condition (sampleToken "a") (.equal (sampleToken "2")))]) ∩ {0, 1} :=
  have h : innerEvaluate .levelZero .inOrder sampleIndex (some {0, 1})
      (.and [.not (.condition (sampleToken "a") (.equal (sampleToken "1"))),
        .not (.condition (sampleToken "a") (.equal (sampleToken "2")))]) = .ok {0} := by decide
  ⟨sampleIndex_closed, h, (innerEvaluate_exact_on_universe .levelZero .inOrder sampleIndex
    sampleIndex_closed).1 _ (some {0, 1}) {0} rfl (fun _ hS => by cases hS; decide) h⟩

/-- `NOT (AND [])` selects every document of `sampleIndex`, where the intersection of no sets
    is every document and its negation none. -/
theorem evaluate_not_empty_and :
    Filter.evaluate .levelZero .inOrder ⟨.not (.and [])⟩ sampleIndex = .ok {0, 1} ∧
      setSemantics .levelZero .inOrder sampleIndex (.not (.and [])) = ∅ := by
  refine ⟨by decide, ?_⟩
  rw [setSemantics, setSemantics, setSemanticsAnd, Finset.sdiff_self]

end MilliCore.Search
