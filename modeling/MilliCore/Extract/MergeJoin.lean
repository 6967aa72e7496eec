import MilliCore.Extract.Basic
import Mathlib.Data.List.Sort

set_option autoImplicit false

namespace MilliCore.Extract

/-! ## `merge_join_by` as the iterator runs

Both extractors walk the deleted and the added items of a document with
`merge_join_by(del.iter(), add.iter(), |d, a| d.cmp(a))`, over the ascending, duplicate-free
iterators of a `BTreeSet` or a `BTreeMap`. `mergeJoinBy` keeps only which items come out and on
which side. Here the iterator runs as `itertools` runs it, and on such inputs it yields the
elements of `mergeJoinBy`, in ascending order of item. -/

/-- `itertools::merge_join_by` with `cmp`: the smaller head comes out first, as `Left` or
    `Right`, and equal heads come out together as `Both`. -/
def mergeJoinByCmp {α : Type} [LinearOrder α] : List α → List α → List (EitherOrBoth α α)
  | [], ys => ys.map .right
  | x :: xs, [] => (x :: xs).map .left
  | x :: xs, y :: ys =>
    match compare x y with
    | .lt => .left x :: mergeJoinByCmp xs (y :: ys)
    | .gt => .right y :: mergeJoinByCmp (x :: xs) ys
    | .eq => .both x y :: mergeJoinByCmp xs ys
termination_by xs ys => xs.length + ys.length

section Model
variable {α : Type} [DecidableEq α] {x : α} {xs ys : List α}

theorem mergeJoinBy_cons_left (hx : x ∉ ys) :
    mergeJoinBy (x :: xs) ys = .left x :: mergeJoinBy xs ys := by
  simp only [mergeJoinBy, List.map_cons, if_neg hx, List.cons_append, List.cons.injEq, true_and]
  congr 2
  exact List.filter_congr fun y hy => by simp [List.mem_cons, show y ≠ x from fun h => hx (h ▸ hy)]

theorem mergeJoinBy_cons_right (hx : x ∉ xs) :
    (mergeJoinBy xs (x :: ys)).Perm (.right x :: mergeJoinBy xs ys) := by
  have hmap : xs.map (fun y => if y ∈ x :: ys then EitherOrBoth.both y y else .left y) =
      xs.map (fun y => if y ∈ ys then .both y y else .left y) :=
    List.map_congr_left fun y hy => by simp [show y ≠ x from fun h => hx (h ▸ hy)]
  simp only [mergeJoinBy, hmap, List.filter_cons, hx, not_false_eq_true, decide_True, if_true,
    List.map_cons]
  exact List.perm_middle

theorem mergeJoinBy_cons_both (hxs : x ∉ xs) (hys : x ∉ ys) :
    mergeJoinBy (x :: xs) (x :: ys) = .both x x :: mergeJoinBy xs ys := by
  have hmap : xs.map (fun y => if y ∈ x :: ys then EitherOrBoth.both y y else .left y) =
      xs.map (fun y => if y ∈ ys then .both y y else .left y) :=
    List.map_congr_left fun y hy => by simp [show y ≠ x from fun h => hxs (h ▸ hy)]
  have hfilter : (ys.filter fun y => y ∉ x :: xs) = ys.filter fun y => y ∉ xs :=
    List.filter_congr fun y hy => by simp [show y ≠ x from fun h => hys (h ▸ hy)]
  simp only [mergeJoinBy, List.map_cons, List.mem_cons_self, if_true, hmap, List.filter_cons,
    not_true_eq_false, decide_False, hfilter, List.cons_append]
  rfl

theorem item_mem_of_mem_mergeJoinBy {e : EitherOrBoth α α} (he : e ∈ mergeJoinBy xs ys) :
    e.item ∈ xs ∨ e.item ∈ ys := by
  simp only [mergeJoinBy, List.mem_append, List.mem_map, List.mem_filter] at he
  rcases he with ⟨x, hx, rfl⟩ | ⟨y, ⟨hy, -⟩, rfl⟩
  · split <;> exact .inl hx
  · exact .inr hy

end Model

section Run
variable {α : Type} [LinearOrder α]

theorem lt_of_mem_sorted_cons {a b z : α} {l : List α} (hab : a < b)
    (hl : (b :: l).Sorted (· < ·)) (hz : z ∈ b :: l) : a < z := by
  rcases List.mem_cons.1 hz with rfl | hz
  · exact hab
  · exact hab.trans (List.rel_of_sorted_cons hl z hz)

theorem mergeJoinByCmp_perm : ∀ {xs ys : List α}, xs.Sorted (· < ·) → ys.Sorted (· < ·) →
    (mergeJoinByCmp xs ys).Perm (mergeJoinBy xs ys) := by
  intro xs ys
  induction xs, ys using mergeJoinByCmp.induct with
  | case1 ys => intro _ _; simp [mergeJoinByCmp, mergeJoinBy]
  | case2 x xs => intro _ _; simp [mergeJoinByCmp, mergeJoinBy]
  | case3 x xs y ys hlt ih =>
    intro hxs hys
    have hx : x ∉ y :: ys := fun hmem =>
      lt_irrefl x (lt_of_mem_sorted_cons (compare_lt_iff_lt.1 hlt) hys hmem)
    rw [mergeJoinByCmp, hlt, mergeJoinBy_cons_left hx]
    exact (ih hxs.of_cons hys).cons _
  | case4 x xs y ys hgt ih =>
    intro hxs hys
    have hy : y ∉ x :: xs := fun hmem =>
      lt_irrefl y (lt_of_mem_sorted_cons (compare_gt_iff_gt.1 hgt) hxs hmem)
    rw [mergeJoinByCmp, hgt]
    exact ((ih hxs hys.of_cons).cons _).trans (mergeJoinBy_cons_right hy).symm
  | case5 x xs y ys heq ih =>
    intro hxs hys
    obtain rfl := compare_eq_iff_eq.1 heq
    rw [mergeJoinByCmp, heq, mergeJoinBy_cons_both (fun h => lt_irrefl x
      (List.rel_of_sorted_cons hxs x h)) (fun h => lt_irrefl x (List.rel_of_sorted_cons hys x h))]
    exact (ih hxs.of_cons hys.of_cons).cons _

theorem item_mem_of_mem_mergeJoinByCmp {xs ys : List α} (hxs : xs.Sorted (· < ·))
    (hys : ys.Sorted (· < ·)) {e : EitherOrBoth α α} (he : e ∈ mergeJoinByCmp xs ys) :
    e.item ∈ xs ∨ e.item ∈ ys :=
  item_mem_of_mem_mergeJoinBy ((mergeJoinByCmp_perm hxs hys).subset he)

theorem mergeJoinByCmp_sorted : ∀ {xs ys : List α}, xs.Sorted (· < ·) → ys.Sorted (· < ·) →
    ((mergeJoinByCmp xs ys).map EitherOrBoth.item).Sorted (· < ·) := by
  intro xs ys
  induction xs, ys using mergeJoinByCmp.induct with
  | case1 ys => intro _ hys; simpa [mergeJoinByCmp, Function.comp_def, EitherOrBoth.item] using hys
  | case2 x xs =>
    intro hxs _
    simpa [mergeJoinByCmp, Function.comp_def, EitherOrBoth.item] using hxs
  | case3 x xs y ys hlt ih =>
    intro hxs hys
    rw [mergeJoinByCmp, hlt, List.map_cons, List.sorted_cons]
    refine ⟨List.forall_mem_map.2 fun e he => ?_, ih hxs.of_cons hys⟩
    rcases item_mem_of_mem_mergeJoinByCmp hxs.of_cons hys he with h | h
    · exact List.rel_of_sorted_cons hxs _ h
    · exact lt_of_mem_sorted_cons (compare_lt_iff_lt.1 hlt) hys h
  | case4 x xs y ys hgt ih =>
    intro hxs hys
    rw [mergeJoinByCmp, hgt, List.map_cons, List.sorted_cons]
    refine ⟨List.forall_mem_map.2 fun e he => ?_, ih hxs hys.of_cons⟩
    rcases item_mem_of_mem_mergeJoinByCmp hxs hys.of_cons he with h | h
    · exact lt_of_mem_sorted_cons (compare_gt_iff_gt.1 hgt) hxs h
    · exact List.rel_of_sorted_cons hys _ h
  | case5 x xs y ys heq ih =>
    intro hxs hys
    obtain rfl := compare_eq_iff_eq.1 heq
    rw [mergeJoinByCmp, heq, List.map_cons, List.sorted_cons]
    refine ⟨List.forall_mem_map.2 fun e he => ?_, ih hxs.of_cons hys.of_cons⟩
    rcases item_mem_of_mem_mergeJoinByCmp hxs.of_cons hys.of_cons he with h | h
    · exact List.rel_of_sorted_cons hxs _ h
    · exact List.rel_of_sorted_cons hys _ h

/-- On the ascending, duplicate-free iterators of two `BTreeSet`s or `BTreeMap`s, the merge join
    the extractors run yields the elements `mergeJoinBy` keeps, each item once and in ascending
    order: inserting them into a sorter in the model's order instead changes nothing a sorter
    merges. -/
theorem mergeJoinByCmp_refines {xs ys : List α} (hxs : xs.Sorted (· < ·))
    (hys : ys.Sorted (· < ·)) :
    (mergeJoinByCmp xs ys).Perm (mergeJoinBy xs ys) ∧
      ((mergeJoinByCmp xs ys).map EitherOrBoth.item).Sorted (· < ·) :=
  ⟨mergeJoinByCmp_perm hxs hys, mergeJoinByCmp_sorted hxs hys⟩

theorem mergeJoinByCmp_refines_of_numbers :
    (mergeJoinByCmp [1, 3, 4] [2, 3]).Perm (mergeJoinBy [1, 3, 4] [2, 3]) ∧
      ((mergeJoinByCmp [1, 3, 4] [2, 3]).map EitherOrBoth.item).Sorted (· < ·) :=
  @mergeJoinByCmp_refines ℕ _ [1, 3, 4] [2, 3] (by decide) (by decide)

end Run

end MilliCore.Extract
