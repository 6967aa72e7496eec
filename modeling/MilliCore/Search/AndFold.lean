import MilliCore.Search.Semantics

set_option autoImplicit false

namespace MilliCore.Search
open MilliCore.Store

section Variant
variable (search : FacetSearch) (geo : GeoSearch) (index : Index)

mutual
/-- `inner_evaluate` with the `And` fold's `bitmap &= inner_evaluate(f, Some(&bitmap))` replaced by
    `bitmap = inner_evaluate(f, Some(&bitmap))`, the change the comment at the fold asks about.
    The arms that do not recurse are the source's. -/
def innerEvaluateAssign (universe' : Option RoaringBitmap) :
    FilterCondition → Except Error RoaringBitmap
  | .not filter => unlessEmptyUniverse universe' do
    let selected ← innerEvaluateAssign universe' filter
    match universe' with
    | some u => pure (u \ selected)
    | none => pure (index.documentsIds \ selected)
  | .or filters => unlessEmptyUniverse universe' (innerEvaluateAssignOr universe' filters)
  | .and [] => unlessEmptyUniverse universe' (.ok ∅)
  | .and (first :: rest) => unlessEmptyUniverse universe' do
    let bitmap ← innerEvaluateAssign universe' first
    innerEvaluateAssignAnd bitmap rest
  | .in fid els => innerEvaluate search geo index universe' (.in fid els)
  | .condition fid op => innerEvaluate search geo index universe' (.condition fid op)
  | .geoLowerThan point radius =>
    innerEvaluate search geo index universe' (.geoLowerThan point radius)
  | .geoBoundingBox topRightPoint bottomLeftPoint =>
    innerEvaluate search geo index universe' (.geoBoundingBox topRightPoint bottomLeftPoint)

def innerEvaluateAssignOr (universe' : Option RoaringBitmap) :
    List FilterCondition → Except Error RoaringBitmap
  | [] => .ok ∅
  | filter :: filters => do
    let b ← innerEvaluateAssign universe' filter
    let rest ← innerEvaluateAssignOr universe' filters
    pure (b ∪ rest)

def innerEvaluateAssignAnd (bitmap : RoaringBitmap) :
    List FilterCondition → Except Error RoaringBitmap
  | [] => .ok bitmap
  | filter :: filters =>
    if bitmap = ∅ then .ok bitmap
    else do
      let selected ← innerEvaluateAssign (some bitmap) filter
      innerEvaluateAssignAnd selected filters
end

end Variant

mutual
/-- The filters whose evaluation stays inside its universe: a `Not`, an `Or` of such filters and
    an `And` whose first child is one. A condition, an `In` and the geo filters read the facets
    with no regard to the universe. -/
def FilterCondition.narrows : FilterCondition → Bool
  | .not _ => true
  | .or filters => narrowsAll filters
  | .and [] => true
  | .and (first :: _) => first.narrows
  | .in _ _ | .condition _ _ | .geoLowerThan _ _ | .geoBoundingBox _ _ => false

def narrowsAll : List FilterCondition → Bool
  | [] => true
  | filter :: filters => filter.narrows && narrowsAll filters
end

mutual
def FilterCondition.laterChildrenNarrow : FilterCondition → Bool
  | .not filter => filter.laterChildrenNarrow
  | .or filters => allLaterChildrenNarrow filters
  | .and [] => true
  | .and (first :: rest) =>
    first.laterChildrenNarrow && narrowsAll rest && allLaterChildrenNarrow rest
  | .in _ _ | .condition _ _ | .geoLowerThan _ _ | .geoBoundingBox _ _ => true

def allLaterChildrenNarrow : List FilterCondition → Bool
  | [] => true
  | filter :: filters => filter.laterChildrenNarrow && allLaterChildrenNarrow filters
end

section Narrowing
variable (search : FacetSearch) (geo : GeoSearch) (index : Index)

theorem subset_of_unlessEmptyUniverse {S B : RoaringBitmap} {result : Except Error RoaringBitmap}
    (h : unlessEmptyUniverse (some S) result = .ok B) (hr : result = .ok B → B ⊆ S) : B ⊆ S := by
  unfold unlessEmptyUniverse at h
  split at h
  · cases h
    exact Finset.empty_subset _
  · exact hr h

mutual
theorem innerEvaluate_subset_universe : ∀ (filter : FilterCondition), filter.narrows = true →
    ∀ S B, innerEvaluate search geo index (some S) filter = .ok B → B ⊆ S
  | .not _, _, S, B, h => by
    rw [innerEvaluate] at h
    refine subset_of_unlessEmptyUniverse h fun h => ?_
    obtain ⟨_, -, h⟩ := bind_eq_ok.1 h
    cases h
    exact Finset.sdiff_subset
  | .or filters, hn, S, B, h => by
    rw [innerEvaluate] at h
    exact subset_of_unlessEmptyUniverse h (innerEvaluateOr_subset_universe filters hn S B)
  | .and [], _, S, B, h => by
    rw [innerEvaluate] at h
    refine subset_of_unlessEmptyUniverse h fun h => ?_
    cases h
    exact Finset.empty_subset _
  | .and (first :: rest), hn, S, B, h => by
    rw [innerEvaluate] at h
    refine subset_of_unlessEmptyUniverse h fun h => ?_
    obtain ⟨bitmap, hb, h⟩ := bind_eq_ok.1 h
    exact (innerEvaluateAnd_subset search geo index rest bitmap B h).trans
      (innerEvaluate_subset_universe first hn S bitmap hb)

theorem innerEvaluateOr_subset_universe : ∀ (filters : List FilterCondition),
    narrowsAll filters = true →
      ∀ S B, innerEvaluateOr search geo index (some S) filters = .ok B → B ⊆ S
  | [], _, _, _, h => by
    cases h
    exact Finset.empty_subset _
  | filter :: filters, hn, S, B, h => by
    simp only [narrowsAll, Bool.and_eq_true] at hn
    rw [innerEvaluateOr] at h
    obtain ⟨b, hb, h⟩ := bind_eq_ok.1 h
    obtain ⟨rest, hrest, h⟩ := bind_eq_ok.1 h
    cases h
    exact Finset.union_subset (innerEvaluate_subset_universe filter hn.1 S b hb)
      (innerEvaluateOr_subset_universe filters hn.2 S rest hrest)
end

mutual
theorem innerEvaluateAssign_eq : ∀ (filter : FilterCondition), filter.laterChildrenNarrow = true →
    ∀ universe', innerEvaluateAssign search geo index universe' filter =
      innerEvaluate search geo index universe' filter
  | .not filter, hl, universe' => by
    rw [innerEvaluateAssign, innerEvaluate]
    exact congrArg (unlessEmptyUniverse universe')
      (congr (congrArg Bind.bind (innerEvaluateAssign_eq filter hl universe'))
        (funext fun _ => by cases universe' <;> rfl))
  | .or filters, hl, universe' => by
    rw [innerEvaluateAssign, innerEvaluate, innerEvaluateAssignOr_eq filters hl]
  | .and [], _, _ => by rw [innerEvaluateAssign, innerEvaluate]
  | .and (first :: rest), hl, universe' => by
    simp only [FilterCondition.laterChildrenNarrow, Bool.and_eq_true] at hl
    rw [innerEvaluateAssign, innerEvaluate, innerEvaluateAssign_eq first hl.1.1]
    congr 2
    funext bitmap
    exact innerEvaluateAssignAnd_eq rest hl.1.2 hl.2 bitmap
  | .in _ _, _, _ | .condition _ _, _, _ | .geoLowerThan _ _, _, _
  | .geoBoundingBox _ _, _, _ => by rw [innerEvaluateAssign]

theorem innerEvaluateAssignOr_eq : ∀ (filters : List FilterCondition),
    allLaterChildrenNarrow filters = true → ∀ universe',
      innerEvaluateAssignOr search geo index universe' filters =
        innerEvaluateOr search geo index universe' filters
  | [], _, _ => rfl
  | filter :: filters, hl, universe' => by
    simp only [allLaterChildrenNarrow, Bool.and_eq_true] at hl
    rw [innerEvaluateAssignOr, innerEvaluateOr, innerEvaluateAssign_eq filter hl.1,
      innerEvaluateAssignOr_eq filters hl.2]

theorem innerEvaluateAssignAnd_eq : ∀ (filters : List FilterCondition), narrowsAll filters = true →
    allLaterChildrenNarrow filters = true → ∀ bitmap,
      innerEvaluateAssignAnd search geo index bitmap filters =
        innerEvaluateAnd search geo index bitmap filters
  | [], _, _, _ => rfl
  | filter :: filters, hn, hl, bitmap => by
    simp only [narrowsAll, allLaterChildrenNarrow, Bool.and_eq_true] at hn hl
    rw [innerEvaluateAssignAnd, innerEvaluateAnd, innerEvaluateAssign_eq filter hl.1]
    split
    · rfl
    · cases h : innerEvaluate search geo index (some bitmap) filter with
      | error => rfl
      | ok selected =>
        have hsel := innerEvaluate_subset_universe search geo index filter hn.1 bitmap selected h
        rw [ok_bind, ok_bind, Finset.inter_eq_right.2 hsel]
        exact innerEvaluateAssignAnd_eq filters hn.2 hl.2 selected
end

/-- Replacing `&=` by `=` in the `And` fold changes no result on filters whose later `And`
    children narrow, because those children already return part of their universe. -/
theorem andFold_assign_eq_of_narrows :
    (∀ (filter : FilterCondition), filter.narrows = true →
      ∀ S B, innerEvaluate search geo index (some S) filter = .ok B → B ⊆ S) ∧
    (∀ (filter : FilterCondition), filter.laterChildrenNarrow = true →
      ∀ universe', innerEvaluateAssign search geo index universe' filter =
        innerEvaluate search geo index universe' filter) :=
  ⟨innerEvaluate_subset_universe search geo index, innerEvaluateAssign_eq search geo index⟩

end Narrowing

def equalsOne : FilterCondition := .condition (sampleToken "a") (.equal (sampleToken "1"))

theorem sampleIndex_andFold_assign_eq :
    (FilterCondition.not equalsOne).narrows = true ∧
    (∀ B, innerEvaluate .levelZero .inOrder sampleIndex (some {0, 1}) (.not equalsOne) = .ok B →
      B ⊆ {0, 1}) ∧
    (FilterCondition.and [equalsOne, .not equalsOne]).laterChildrenNarrow = true ∧
    innerEvaluateAssign .levelZero .inOrder sampleIndex none (.and [equalsOne, .not equalsOne]) =
      innerEvaluate .levelZero .inOrder sampleIndex none (.and [equalsOne, .not equalsOne]) :=
  ⟨rfl, (andFold_assign_eq_of_narrows .levelZero .inOrder sampleIndex).1 (.not equalsOne) rfl _,
    rfl, (andFold_assign_eq_of_narrows .levelZero .inOrder sampleIndex).2
      (.and [equalsOne, .not equalsOne]) rfl none⟩

/-- A condition ignores its universe, so `NOT a = 1 AND a = 1` keeps document `1` under `=`. -/
theorem andFold_assign_differs :
    innerEvaluate .levelZero .inOrder sampleIndex (some {0}) equalsOne = .ok {1} ∧
    innerEvaluate .levelZero .inOrder sampleIndex none (.and [.not equalsOne, equalsOne]) =
      .ok ∅ ∧
    innerEvaluateAssign .levelZero .inOrder sampleIndex none (.and [.not equalsOne, equalsOne]) =
      .ok {1} :=
  ⟨by decide, by decide, by decide⟩

end MilliCore.Search
