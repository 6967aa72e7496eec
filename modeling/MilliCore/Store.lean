import Mathlib.Algebra.Order.Ring.Rat
import Mathlib.Data.Finset.Basic
import Mathlib.Data.String.Basic

set_option autoImplicit false

namespace MilliCore.Store

abbrev DocumentId := UInt32
abbrev FieldId := UInt16

/-- A `RoaringBitmap` of document ids, kept as the set it denotes. -/
abbrev RoaringBitmap := Finset DocumentId

/-- The union of a list of bitmaps, as `MultiOps::union` computes it. -/
def unionAll (bitmaps : List RoaringBitmap) : RoaringBitmap :=
  bitmaps.foldr (· ∪ ·) ∅

@[simp] theorem mem_unionAll (bitmaps : List RoaringBitmap) (d : DocumentId) :
    d ∈ unionAll bitmaps ↔ ∃ b ∈ bitmaps, d ∈ b := by
  induction bitmaps with
  | nil => simp [unionAll]
  | cons b bs ih => simp [unionAll, ← ih]

theorem unionAll_subset {S : RoaringBitmap} (bitmaps : List RoaringBitmap)
    (h : ∀ b ∈ bitmaps, b ⊆ S) : unionAll bitmaps ⊆ S := by
  intro d hd
  obtain ⟨b, hb, hdb⟩ := (mem_unionAll _ _).1 hd
  exact h b hb hdb

def f64MaxValue : ℚ :=
  179769313486231570814527423731704356798070567525844996598917476803157260780028538760589558632766878171540458953514382464234321326889464182768467546703537516986049910576551282076245490090389328944075868508455133942304583236903222948165808559332123348274797826204144723168738177180919299881250404026184124858368

/-- A finite `f64`, kept as the exact rational it denotes. -/
@[ext] structure FiniteF64 where
  val : ℚ
  bounded : -f64MaxValue ≤ val ∧ val ≤ f64MaxValue
deriving DecidableEq

instance : LinearOrder FiniteF64 := LinearOrder.lift' FiniteF64.val (fun _ _ => FiniteF64.ext)

@[simp] theorem FiniteF64.le_iff (x y : FiniteF64) : x ≤ y ↔ x.val ≤ y.val := Iff.rfl
@[simp] theorem FiniteF64.lt_iff (x y : FiniteF64) : x < y ↔ x.val < y.val := Iff.rfl

def f64Max : FiniteF64 := ⟨f64MaxValue, by decide⟩
def f64Min : FiniteF64 := ⟨-f64MaxValue, by decide⟩

theorem f64Min_le (x : FiniteF64) : f64Min ≤ x := x.bounded.1
theorem le_f64Max (x : FiniteF64) : x ≤ f64Max := x.bounded.2

inductive Bound (α : Type) where
  | included (a : α)
  | excluded (a : α)
  | unbounded
deriving DecidableEq

section Bounds
variable {α : Type} [LinearOrder α]

def Bound.lowerAdmits : Bound α → α → Bool
  | .included l, x => decide (l ≤ x)
  | .excluded l, x => decide (l < x)
  | .unbounded, _ => true

def Bound.upperAdmits : Bound α → α → Bool
  | .included r, x => decide (x ≤ r)
  | .excluded r, x => decide (x < r)
  | .unbounded, _ => true

def withinBounds (left right : Bound α) (x : α) : Bool :=
  left.lowerAdmits x && right.upperAdmits x

@[simp] theorem lowerAdmits_included (l x : α) : (Bound.included l).lowerAdmits x ↔ l ≤ x := by
  simp [Bound.lowerAdmits]
@[simp] theorem lowerAdmits_excluded (l x : α) : (Bound.excluded l).lowerAdmits x ↔ l < x := by
  simp [Bound.lowerAdmits]
@[simp] theorem upperAdmits_included (r x : α) : (Bound.included r).upperAdmits x ↔ x ≤ r := by
  simp [Bound.upperAdmits]
@[simp] theorem upperAdmits_excluded (r x : α) : (Bound.excluded r).upperAdmits x ↔ x < r := by
  simp [Bound.upperAdmits]
@[simp] theorem lowerAdmits_unbounded (x : α) : (Bound.unbounded : Bound α).lowerAdmits x := rfl
@[simp] theorem upperAdmits_unbounded (x : α) : (Bound.unbounded : Bound α).upperAdmits x := rfl

@[simp] theorem withinBounds_iff (left right : Bound α) (x : α) :
    withinBounds left right x ↔ left.lowerAdmits x ∧ right.upperAdmits x := by
  simp [withinBounds]

end Bounds

structure FacetGroupKey (α : Type) where
  fieldId : FieldId
  level : UInt8
  leftBound : α
deriving DecidableEq

structure FacetGroupValue where
  size : UInt8
  bitmap : RoaringBitmap
deriving DecidableEq

/-- A facet database `Database<FacetGroupKeyCodec<C>, FacetGroupValueCodec>`: a map, so
    each key is stored once. -/
structure FacetDb (α : Type) where
  entries : List (FacetGroupKey α × FacetGroupValue)
  keys_nodup : (entries.map Prod.fst).Nodup

section FacetDb
variable {α : Type}

def FacetDb.levelZeroUnion (db : FacetDb α) (fieldId : FieldId) (keep : α → Bool) :
    RoaringBitmap :=
  unionAll ((db.entries.filter fun e =>
    e.1.fieldId = fieldId && e.1.level = 0 && keep e.1.leftBound).map (·.2.bitmap))

@[simp] theorem FacetDb.mem_levelZeroUnion (db : FacetDb α) (fieldId : FieldId)
    (keep : α → Bool) (d : DocumentId) :
    d ∈ db.levelZeroUnion fieldId keep ↔ ∃ e ∈ db.entries,
      e.1.fieldId = fieldId ∧ e.1.level = 0 ∧ keep e.1.leftBound ∧ d ∈ e.2.bitmap := by
  simp only [FacetDb.levelZeroUnion, mem_unionAll, List.mem_map, List.mem_filter,
    Bool.and_eq_true, decide_eq_true_eq]
  constructor
  · rintro ⟨_, ⟨e, ⟨he, ⟨h1, h2⟩, h3⟩, rfl⟩, hd⟩
    exact ⟨e, he, h1, h2, h3, hd⟩
  · rintro ⟨e, he, h1, h2, h3, hd⟩
    exact ⟨_, ⟨e, ⟨he, ⟨h1, h2⟩, h3⟩, rfl⟩, hd⟩

def FacetDb.get [DecidableEq α] (db : FacetDb α) (key : FacetGroupKey α) : Option FacetGroupValue :=
  db.entries.lookup key

theorem FacetDb.get_eq_some [DecidableEq α] (db : FacetDb α) (key : FacetGroupKey α) (v : FacetGroupValue) :
    db.get key = some v ↔ (key, v) ∈ db.entries := by
  obtain ⟨entries, nodup⟩ := db
  simp only [FacetDb.get]
  induction entries with
  | nil => simp
  | cons e es ih =>
    obtain ⟨k, w⟩ := e
    simp only [List.map_cons, List.nodup_cons, List.mem_map, Prod.exists, exists_and_right,
      exists_eq_right, not_exists] at nodup
    by_cases hk : key = k
    · subst hk
      simp only [List.lookup_cons_self, Option.some.injEq, List.mem_cons, Prod.mk.injEq, true_and]
      exact ⟨fun h => .inl h.symm, fun h => h.elim Eq.symm fun h' => (nodup.1 v h').elim⟩
    · have hb : (key == k) = false := by simpa using hk
      simp [List.lookup_cons, hb, hk, ih nodup.2]

/-- `d` is in the level-0 group of `fieldId` bounded by `v`: the document holds the value. -/
def FacetDb.Holds (db : FacetDb α) (fieldId : FieldId) (d : DocumentId) (v : α) : Prop :=
  ∃ e ∈ db.entries, e.1 = ⟨fieldId, 0, v⟩ ∧ d ∈ e.2.bitmap

end FacetDb

/-- `prefix_iter` of the string facet database from `base`: the key codec writes the field id
    and the level on fixed widths before the string, so a byte prefix keeps both and asks for
    a prefix of the string. -/
def FacetDb.prefixIter (db : FacetDb String) (base : FacetGroupKey String) :
    List (FacetGroupKey String × FacetGroupValue) :=
  db.entries.filter fun e => e.1.fieldId = base.fieldId && e.1.level = base.level &&
    base.leftBound.toList.isPrefixOf e.1.leftBound.toList

def FacetDb.levelZeroWithin {α : Type} [LinearOrder α] (db : FacetDb α) (fieldId : FieldId)
    (left right : Bound α) : RoaringBitmap :=
  db.levelZeroUnion fieldId (withinBounds left right)

theorem FacetDb.mem_levelZeroWithin {α : Type} [LinearOrder α] (db : FacetDb α)
    (fieldId : FieldId) (left right : Bound α) (d : DocumentId) :
    d ∈ db.levelZeroWithin fieldId left right ↔
      ∃ v, db.Holds fieldId d v ∧ withinBounds left right v := by
  simp only [FacetDb.levelZeroWithin, FacetDb.mem_levelZeroUnion, FacetDb.Holds]
  constructor
  · rintro ⟨⟨⟨_, _, v⟩, _⟩, he, rfl, rfl, hv, hd⟩
    exact ⟨v, ⟨_, he, rfl, hd⟩, hv⟩
  · rintro ⟨v, ⟨e, he, hk, hd⟩, hv⟩
    exact ⟨e, he, by rw [hk], by rw [hk], by rw [hk]; exact hv, hd⟩

/-- The facet functions the filter calls that are not under src/: `normalize_facet`, and
    `facet_range_search::find_docids_of_facet_within_bounds` with the contract of §4.4 (the
    level-0 groups within the bounds; a universe may only leave out documents outside it). -/
structure FacetSearch where
  normalizeFacet : String → String
  findDocidsOfFacetWithinBounds : {α : Type} → [LinearOrder α] → FacetDb α → FieldId →
    Bound α → Bound α → Option RoaringBitmap → RoaringBitmap
  find_none : ∀ {α : Type} [LinearOrder α] (db : FacetDb α) (fieldId : FieldId)
    (left right : Bound α), findDocidsOfFacetWithinBounds db fieldId left right none =
      db.levelZeroWithin fieldId left right
  find_universe : ∀ {α : Type} [LinearOrder α] (db : FacetDb α) (fieldId : FieldId)
    (left right : Bound α) (universe' : RoaringBitmap),
      findDocidsOfFacetWithinBounds db fieldId left right (some universe') ∩ universe' =
        findDocidsOfFacetWithinBounds db fieldId left right none ∩ universe'

/-- Trims spaces, tabs and line breaks and lower-cases ASCII letters; `normalize_facet` also
    folds the rest of Unicode. -/
def asciiNormalizeFacet (s : String) : String :=
  ⟨((s.toList.dropWhile Char.isWhitespace).reverse.dropWhile Char.isWhitespace).reverse.map
    Char.toLower⟩

/-- A scan of level 0 that ignores the universe, with `asciiNormalizeFacet`. -/
def FacetSearch.levelZero : FacetSearch where
  normalizeFacet := asciiNormalizeFacet
  findDocidsOfFacetWithinBounds db fieldId left right _ := db.levelZeroWithin fieldId left right
  find_none _ _ _ _ := rfl
  find_universe _ _ _ _ _ := rfl

abbrev GeoPoint := DocumentId × (FiniteF64 × FiniteF64)

/-- Modelled from the spec: the R-tree's `nearest_neighbor_iter` over the points'
    `lat_lng_to_xyz` images, and the test `distance_between_two_points(centre, point) <=
    radius + f64::EPSILON`. Both compute in floating point and neither is under src/; the
    iteration yields every point of the tree once. -/
structure GeoSearch where
  nearestNeighborIter : List GeoPoint → FiniteF64 × FiniteF64 → List GeoPoint
  nearestNeighborIter_perm : ∀ points centre, (nearestNeighborIter points centre).Perm points
  withinRadius : FiniteF64 × FiniteF64 → FiniteF64 × FiniteF64 → FiniteF64 → Bool

/-- A geo search that walks the R-tree in its stored order and accepts every point. -/
def GeoSearch.inOrder : GeoSearch :=
  ⟨fun points _ => points, fun _ _ => List.Perm.refl _, fun _ _ _ => true⟩

structure FieldsIdsMap where
  entries : List (String × FieldId)
  names_nodup : (entries.map Prod.fst).Nodup
  ids_nodup : (entries.map Prod.snd).Nodup

def FieldsIdsMap.id (m : FieldsIdsMap) (name : String) : Option FieldId :=
  m.entries.lookup name

def FieldsIdsMap.name (m : FieldsIdsMap) (fieldId : FieldId) : Option String :=
  (m.entries.find? (·.2 = fieldId)).map (·.1)

/-- The filter features of a filterable-attribute rule (§3): equality and comparison. A field
    is filterable when one of them is on, and `IS EMPTY`, `IS NULL` and `EXISTS` are allowed on
    every filterable field. -/
structure FilterableAttributesFeatures where
  isFilterableEquality : Bool
  isFilterableComparison : Bool
deriving DecidableEq

namespace FilterableAttributesFeatures
variable (features : FilterableAttributesFeatures)

def isFilterable : Bool := features.isFilterableEquality || features.isFilterableComparison
def isFilterableEmpty : Bool := features.isFilterable
def isFilterableNull : Bool := features.isFilterable
def isFilterableExists : Bool := features.isFilterable

def allowedFilterOperators : List String :=
  if !features.isFilterable then [] else
    ["OR", "AND", "NOT"] ++
      (if features.isFilterableEquality then ["=", "!=", "IN"] else []) ++
      (if features.isFilterableComparison then ["<", ">", "<=", ">=", "TO"] else []) ++
      (if features.isFilterableEmpty then ["IS EMPTY"] else []) ++
      (if features.isFilterableNull then ["IS NULL"] else []) ++
      (if features.isFilterableExists then ["EXISTS"] else [])

end FilterableAttributesFeatures

/-- Modelled from the spec: a filterable-attribute rule, a pattern with its feature set. -/
structure FilterableAttributesRule where
  pattern : String
  features : FilterableAttributesFeatures
deriving DecidableEq

/-- Modelled from the spec: a pattern names its attribute, and `*` names every attribute. -/
def FilterableAttributesRule.matchStr (rule : FilterableAttributesRule) (name : String) : Bool :=
  rule.pattern = "*" || rule.pattern = name

def matchingFeatures (fieldName : String) (rules : List FilterableAttributesRule) :
    Option (ℕ × FilterableAttributesFeatures) :=
  (rules.enum.find? (·.2.matchStr fieldName)).map fun r => (r.1, r.2.features)

def filteredMatchingPatterns (rules : List FilterableAttributesRule)
    (filter : FilterableAttributesFeatures → Bool) : Finset String :=
  ((rules.filter (filter ·.features)).map (·.pattern)).toFinset

/-- The relations of `Index` that the filter reads in one read transaction. -/
structure Index where
  fieldsIdsMap : FieldsIdsMap
  filterableAttributesRules : List FilterableAttributesRule
  facetIdF64Docids : FacetDb FiniteF64
  facetIdStringDocids : FacetDb String
  documentsIds : RoaringBitmap
  nullFacetedDocumentsIds : FieldId → RoaringBitmap
  emptyFacetedDocumentsIds : FieldId → RoaringBitmap
  existsFacetedDocumentsIds : FieldId → RoaringBitmap
  isGeoFilteringEnabled : Bool
  geoRtree : Option (List GeoPoint)

/-- Every facet bitmap and every point of the geo R-tree names a document of the index. -/
structure Index.Closed (index : Index) : Prop where
  f64 : ∀ e ∈ index.facetIdF64Docids.entries, e.2.bitmap ⊆ index.documentsIds
  string : ∀ e ∈ index.facetIdStringDocids.entries, e.2.bitmap ⊆ index.documentsIds
  null : ∀ fieldId, index.nullFacetedDocumentsIds fieldId ⊆ index.documentsIds
  empty : ∀ fieldId, index.emptyFacetedDocumentsIds fieldId ⊆ index.documentsIds
  exists_ : ∀ fieldId, index.existsFacetedDocumentsIds fieldId ⊆ index.documentsIds
  geo : ∀ points, index.geoRtree = some points → ∀ p ∈ points, p.1 ∈ index.documentsIds

end MilliCore.Store
