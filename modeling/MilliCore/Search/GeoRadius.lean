import MilliCore.Search.Geo
import Mathlib.Analysis.SpecialFunctions.Trigonometric.Inverse
import Mathlib.Data.Real.Pi.Bounds
import Mathlib.Data.Real.Sqrt

set_option autoImplicit false

namespace MilliCore.Search
open MilliCore.Store Real

/-! ## The geometry of the radius filter

`lat_lng_to_xyz` and `distance_between_two_points` belong to the crate root, which is not under
src/. In exact arithmetic they are the projection onto the unit sphere and the haversine
great-circle distance on a sphere of radius `sphere`. The R-tree yields points by squared
Euclidean distance between projections, which is four times the haversine term
(`distance2_latLngToXyz`); the great-circle distance grows with it, so the scan that stops at
the first point out of range keeps every point in range. -/

def f64Epsilon : ℚ := 1 / 2 ^ 52

noncomputable section

def toRadians (degrees : ℝ) : ℝ := degrees * (π / 180)

def latLngToXyz (coord : FiniteF64 × FiniteF64) : ℝ × ℝ × ℝ :=
  let lat := toRadians coord.1.val
  let lng := toRadians coord.2.val
  (cos lat * cos lng, cos lat * sin lng, sin lat)

/-- The squared Euclidean distance by which `nearest_neighbor_iter` yields the points. -/
def distance2 (p q : ℝ × ℝ × ℝ) : ℝ :=
  (p.1 - q.1) ^ 2 + (p.2.1 - q.2.1) ^ 2 + (p.2.2 - q.2.2) ^ 2

def haversine (a b : FiniteF64 × FiniteF64) : ℝ :=
  sin ((toRadians b.1.val - toRadians a.1.val) / 2) ^ 2 +
    cos (toRadians a.1.val) * cos (toRadians b.1.val) *
      sin ((toRadians b.2.val - toRadians a.2.val) / 2) ^ 2

/-- `distance_between_two_points`: the haversine distance on a sphere of radius `sphere`. -/
def distanceBetweenTwoPoints (sphere : ℝ) (a b : FiniteF64 × FiniteF64) : ℝ :=
  2 * sphere * arcsin √(haversine a b)

end

private theorem sin_sq_half (x : ℝ) : sin (x / 2) ^ 2 = 1 / 2 - cos x / 2 := by
  rw [sin_sq, cos_sq, show 2 * (x / 2) = x by ring]
  ring

theorem chord_sq_eq (lat₁ lat₂ lng₁ lng₂ : ℝ) :
    (cos lat₁ * cos lng₁ - cos lat₂ * cos lng₂) ^ 2 +
        (cos lat₁ * sin lng₁ - cos lat₂ * sin lng₂) ^ 2 + (sin lat₁ - sin lat₂) ^ 2 =
      4 * (sin ((lat₂ - lat₁) / 2) ^ 2 + cos lat₁ * cos lat₂ * sin ((lng₂ - lng₁) / 2) ^ 2) := by
  rw [sin_sq_half, sin_sq_half, cos_sub, cos_sub]
  linear_combination cos lat₁ ^ 2 * sin_sq_add_cos_sq lng₁ + cos lat₂ ^ 2 * sin_sq_add_cos_sq lng₂ +
    sin_sq_add_cos_sq lat₁ + sin_sq_add_cos_sq lat₂

theorem distance2_latLngToXyz (a b : FiniteF64 × FiniteF64) :
    distance2 (latLngToXyz a) (latLngToXyz b) = 4 * haversine a b :=
  chord_sq_eq _ _ _ _

@[simp] theorem distanceBetweenTwoPoints_self (sphere : ℝ) (a : FiniteF64 × FiniteF64) :
    distanceBetweenTwoPoints sphere a a = 0 := by
  simp [distanceBetweenTwoPoints, haversine]

theorem distanceBetweenTwoPoints_le {sphere : ℝ} (hsphere : 0 ≤ sphere)
    {centre a b : FiniteF64 × FiniteF64}
    (h : distance2 (latLngToXyz centre) (latLngToXyz a) ≤
      distance2 (latLngToXyz centre) (latLngToXyz b)) :
    distanceBetweenTwoPoints sphere centre a ≤ distanceBetweenTwoPoints sphere centre b := by
  rw [distance2_latLngToXyz, distance2_latLngToXyz] at h
  exact mul_le_mul_of_nonneg_left (monotone_arcsin (sqrt_le_sqrt (by linarith)))
    (by linarith)

section Meridian
variable {centre a b : FiniteF64 × FiniteF64}

theorem abs_sin_eq_sin_abs {x : ℝ} (hx : |x| ≤ π) : |sin x| = sin |x| := by
  rcases le_total 0 x with h | h
  · rw [abs_of_nonneg h, abs_of_nonneg (sin_nonneg_of_nonneg_of_le_pi h ((le_abs_self x).trans hx))]
  · rw [abs_of_nonpos h, abs_of_nonpos (sin_nonpos_of_nonnpos_of_neg_pi_le h (abs_le.1 hx).1),
      sin_neg]

theorem abs_half_toRadians_sub (x y : ℝ) :
    |(toRadians y - toRadians x) / 2| = |y - x| * (π / 180) / 2 := by
  rw [toRadians, toRadians, ← sub_mul, abs_div, abs_mul, abs_of_pos (by positivity : 0 < π / 180),
    abs_two]

theorem half_radians_le {x : ℝ} (hx : |x| ≤ 180) : |x| * (π / 180) / 2 ≤ π / 2 := by
  have := mul_le_mul_of_nonneg_right hx (by positivity : 0 ≤ π / 180)
  linarith

theorem haversine_of_lng_eq (h : a.2 = b.2) :
    haversine a b = sin ((toRadians b.1.val - toRadians a.1.val) / 2) ^ 2 := by
  simp [haversine, h]

theorem distanceBetweenTwoPoints_of_lng_eq {sphere : ℝ} (h : a.2 = b.2)
    (hlat : |(b.1.val : ℝ) - a.1.val| ≤ 180) :
    distanceBetweenTwoPoints sphere a b = sphere * (|(b.1.val : ℝ) - a.1.val| * (π / 180)) := by
  have hle := half_radians_le hlat
  have hx := abs_half_toRadians_sub (a.1.val : ℝ) b.1.val
  rw [distanceBetweenTwoPoints, haversine_of_lng_eq h, sqrt_sq_eq_abs,
    abs_sin_eq_sin_abs (by linarith [pi_pos]),
    arcsin_sin (by linarith [pi_pos, abs_nonneg ((toRadians b.1.val - toRadians a.1.val) / 2)])
      (hx ▸ hle), hx]
  ring

theorem distance2_le_of_lng_eq (ha : centre.2 = a.2) (hb : centre.2 = b.2)
    (hab : |(a.1.val : ℝ) - centre.1.val| ≤ |(b.1.val : ℝ) - centre.1.val|)
    (hb180 : |(b.1.val : ℝ) - centre.1.val| ≤ 180) :
    distance2 (latLngToXyz centre) (latLngToXyz a) ≤
      distance2 (latLngToXyz centre) (latLngToXyz b) := by
  have hxa := abs_half_toRadians_sub (centre.1.val : ℝ) a.1.val
  have hxb := abs_half_toRadians_sub (centre.1.val : ℝ) b.1.val
  have hb' := half_radians_le hb180
  have hab' : |(a.1.val : ℝ) - centre.1.val| * (π / 180) / 2 ≤
      |(b.1.val : ℝ) - centre.1.val| * (π / 180) / 2 := by
    have := mul_le_mul_of_nonneg_right hab (by positivity : 0 ≤ π / 180)
    linarith
  rw [distance2_latLngToXyz, distance2_latLngToXyz, haversine_of_lng_eq ha, haversine_of_lng_eq hb,
    ← sq_abs, ← sq_abs (sin _), abs_sin_eq_sin_abs (by linarith [pi_pos]),
    abs_sin_eq_sin_abs (by linarith [pi_pos]), hxa, hxb]
  have h0 : 0 ≤ |(a.1.val : ℝ) - centre.1.val| * (π / 180) / 2 := by positivity
  exact mul_le_mul_of_nonneg_left (pow_le_pow_left₀ (sin_nonneg_of_nonneg_of_le_pi h0 (by linarith))
    (sin_le_sin_of_le_of_le_pi_div_two (by linarith) hb' hab') 2) (by norm_num)

end Meridian

theorem takeWhile_eq_filter {α : Type} {p : α → Bool} :
    ∀ {l : List α}, l.Pairwise (fun a b => p b = true → p a = true) → l.takeWhile p = l.filter p
  | [], _ => rfl
  | a :: l, h => by
    rw [List.pairwise_cons] at h
    cases ha : p a
    · rw [List.takeWhile_cons_of_neg (by simp [ha]), List.filter_cons_of_neg (by simp [ha]),
        eq_comm, List.filter_eq_nil_iff]
      exact fun b hb hpb => absurd (h.1 b hb hpb) (by simp [ha])
    · rw [List.takeWhile_cons_of_pos ha, List.filter_cons_of_pos ha, takeWhile_eq_filter h.2]

/-- With the R-tree yielding points by squared distance between projections and the radius test
    comparing the great-circle distance with `radius + ε`, `GeoLowerThan` returns exactly the
    documents of the points within `radius + ε` of the centre. -/
theorem geoLowerThan_within_radius (geo : GeoSearch) (index : Index) (point : Token × Token)
    (radius : Token) (centre : FiniteF64 × FiniteF64) (r : FiniteF64) (rtree : List GeoPoint)
    (sphere : ℝ) (hsphere : 0 ≤ sphere) (henabled : index.isGeoFilteringEnabled = true)
    (hcentre : checkGeoPoint point = .ok centre) (hradius : radius.parseFiniteFloat = .ok r)
    (hrtree : index.geoRtree = some rtree)
    (hiter : (geo.nearestNeighborIter rtree centre).Sorted fun p q =>
      distance2 (latLngToXyz centre) (latLngToXyz p.2) ≤
        distance2 (latLngToXyz centre) (latLngToXyz q.2))
    (hwithin : ∀ p ∈ rtree, geo.withinRadius centre p.2 r = true ↔
      distanceBetweenTwoPoints sphere centre p.2 ≤ ((r.val + f64Epsilon : ℚ) : ℝ)) :
    ∃ result, geoLowerThan geo index point radius = .ok result ∧
      ∀ d, d ∈ result ↔ ∃ p ∈ rtree, p.1 = d ∧
        distanceBetweenTwoPoints sphere centre p.2 ≤ ((r.val + f64Epsilon : ℚ) : ℝ) := by
  have hmem : ∀ p, p ∈ geo.nearestNeighborIter rtree centre ↔ p ∈ rtree :=
    fun _ => (geo.nearestNeighborIter_perm rtree centre).mem_iff
  have hscan := takeWhile_eq_filter (p := fun p => geo.withinRadius centre p.2 r) <|
    hiter.imp_of_mem fun {p q} hp hq hpq hq' =>
      (hwithin p ((hmem p).1 hp)).2 <| (distanceBetweenTwoPoints_le hsphere hpq).trans
        ((hwithin q ((hmem q).1 hq)).1 hq')
  refine ⟨_, by rw [geoLowerThan, if_pos henabled, hcentre, ok_bind, hradius, ok_bind, hrtree]; rfl,
    fun d => ?_⟩
  simp only [List.mem_toFinset, List.mem_map, hscan, List.mem_filter, hmem]
  exact ⟨fun ⟨p, ⟨hp, hin⟩, hd⟩ => ⟨p, hp, hd, (hwithin p hp).1 hin⟩,
    fun ⟨p, hp, hd, hin⟩ => ⟨p, ⟨hp, (hwithin p hp).2 hin⟩, hd⟩⟩

/-- A geo search for points on the centre's meridian: the R-tree in stored order, and the radius
    test on the difference of latitudes with `π` taken as `22 / 7`. -/
def meridianSearch : GeoSearch :=
  ⟨fun points _ => points, fun _ _ => List.Perm.refl _, fun centre point radius =>
    decide (|point.1.val - centre.1.val| * (22 / 7) / 180 ≤ radius.val + f64Epsilon)⟩

def origin : FiniteF64 × FiniteF64 := (⟨0, by decide⟩, ⟨0, by decide⟩)

def meridianPoints : List GeoPoint :=
  [(0, origin), (1, (⟨30, by decide⟩, ⟨0, by decide⟩)), (2, (⟨60, by decide⟩, ⟨0, by decide⟩)),
    (3, (⟨90, by decide⟩, ⟨0, by decide⟩))]

def meridianIndex : Index := { geoIndex with geoRtree := some meridianPoints }

theorem meridianPoints_sorted : meridianPoints.Sorted fun p q =>
    distance2 (latLngToXyz origin) (latLngToXyz p.2) ≤
      distance2 (latLngToXyz origin) (latLngToXyz q.2) := by
  simp only [meridianPoints, List.Sorted, List.pairwise_cons, List.mem_cons, List.mem_singleton,
    forall_eq_or_imp, forall_eq, List.not_mem_nil, false_implies, implies_true, and_true,
    List.Pairwise.nil]
  refine ⟨⟨?_, ?_, ?_⟩, ⟨?_, ?_⟩, ?_⟩ <;>
    exact distance2_le_of_lng_eq rfl rfl (by norm_num [origin]) (by norm_num [origin])

/-- Within a radius of `1` of the origin lie the points at latitudes `0` and `30`:
    `π / 6 ≤ 1 < π / 3`. -/
theorem meridianSearch_withinRadius_iff : ∀ p ∈ meridianPoints,
    meridianSearch.withinRadius origin p.2 ⟨1, by decide⟩ = true ↔
      distanceBetweenTwoPoints 1 origin p.2 ≤ ((1 + f64Epsilon : ℚ) : ℝ) := by
  simp only [meridianPoints, List.mem_cons, List.mem_singleton, forall_eq_or_imp, forall_eq,
    List.not_mem_nil, false_implies, implies_true, and_true]
  refine ⟨?_, ?_, ?_, ?_⟩ <;> rw [distanceBetweenTwoPoints_of_lng_eq] <;>
    norm_num [meridianSearch, origin, f64Epsilon] <;> linarith [pi_gt_d2, pi_le_four]

/-- `_geoRadius(0, 0, 1)` over `meridianPoints`: the scan stops at document `2`, the first point
    out of range. -/
theorem meridianIndex_within_radius_of_origin :
    ∃ result, geoLowerThan meridianSearch meridianIndex (sampleToken "0", sampleToken "0")
        (sampleToken "1") = .ok result ∧
      ∀ d, d ∈ result ↔ ∃ p ∈ meridianPoints, p.1 = d ∧
        distanceBetweenTwoPoints 1 origin p.2 ≤ ((1 + f64Epsilon : ℚ) : ℝ) :=
  geoLowerThan_within_radius meridianSearch meridianIndex _ _ origin ⟨1, by decide⟩ _ 1 zero_le_one
    rfl rfl rfl rfl meridianPoints_sorted meridianSearch_withinRadius_iff

end MilliCore.Search
