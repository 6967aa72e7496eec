import MilliCore.Search.Evaluate

set_option autoImplicit false

namespace MilliCore.Search
open MilliCore.Store

/-! ## Filters the evaluator treats alike

`IN` evaluates each of its values as an `=` on its field, under the same universe, and unions
the results; `!=` is the documents minus the `=` of its value. Each is compared here with the
filter a user would write in its place: the `OR` of the equalities, and `NOT` of the equality.
The first pair differ only in the preflight, which `IN` makes on its field even with no value;
the second only on a field the index does not know, where `!=` selects no document and `NOT =`
every one. -/

section Rewrites
variable (search : FacetSearch) (geo : GeoSearch) (index : Index)

def inEqualities (fid : Token) (els : List Token) : List FilterCondition :=
  els.map fun el => .condition fid (.equal el)

theorem fids_inEqualities (depth : ℕ) (fid : Token) (els : List Token) :
    fidsOfList (depth + 1) (inEqualities fid els) = els.map fun _ => fid := by
  induction els with
  | nil => rfl
  | cons el els ih => simp only [inEqualities, List.map_cons, fidsOfList] at ih ⊢; rw [ih]; rfl

theorem innerEvaluateOr_inEqualities {universe' : Option RoaringBitmap}
    (h : isEmptyUniverse universe' = false) (fid : Token) (els : List Token) :
    innerEvaluateOr search geo index universe' (inEqualities fid els) =
      withFieldFeatures index fid fun fieldId ruleIndex features =>
        unionResults (els.map fun el =>
          evaluateOperator search index fieldId universe' (.equal el) features ruleIndex) := by
  induction els with
  | nil => unfold withFieldFeatures; split <;> rfl
  | cons el els ih =>
    simp only [inEqualities, List.map_cons] at ih ⊢
    rw [innerEvaluateOr, ih, innerEvaluate, innerEvaluateCondition, unlessEmptyUniverse, if_neg
      (by simp [h])]
    unfold withFieldFeatures
    split <;> rfl

theorem forM_copies_checkFilterable (rules : List FilterableAttributesRule) (fid : Token)
    (h : checkFilterable rules fid = .ok ()) :
    ∀ els : List Token, (els.map fun _ => fid).forM (checkFilterable rules) = .ok () :=
  fun _ => (forM_eq_ok_iff _ _).2 fun _ hcopy => by
    obtain ⟨_, -, rfl⟩ := List.mem_map.1 hcopy
    exact h

theorem forM_singleton_checkFilterable (rules : List FilterableAttributesRule) (fid : Token) :
    [fid].forM (checkFilterable rules) = checkFilterable rules fid := by
  change checkFilterable rules fid >>= (fun _ => pure ()) = _
  cases checkFilterable rules fid <;> rfl

/-- `fid IN [v₁, …, vₙ]` evaluates as `fid = v₁ OR … OR fid = vₙ` under every universe, errors
    included; as a whole filter it differs only in its preflight, which checks `fid` even when
    there is no value, where the empty `OR` checks nothing. -/
theorem evaluate_in_eq_or (fid : Token) (els : List Token) :
    (∀ universe', innerEvaluate search geo index universe' (.in fid els) =
      innerEvaluate search geo index universe' (.or (inEqualities fid els))) ∧
    Filter.evaluate search geo ⟨.in fid els⟩ index =
      (do checkFilterable index.filterableAttributesRules fid
          Filter.evaluate search geo ⟨.or (inEqualities fid els)⟩ index) := by
  have hinner : ∀ universe', innerEvaluate search geo index universe' (.in fid els) =
      innerEvaluate search geo index universe' (.or (inEqualities fid els)) := by
    intro universe'
    rw [innerEvaluate, innerEvaluate, unlessEmptyUniverse, unlessEmptyUniverse]
    split
    · rfl
    · rw [innerEvaluateOr_inEqualities search geo index (Bool.eq_false_iff.2 ‹_›)]
  refine ⟨hinner, ?_⟩
  have hfids : FilterCondition.fids maxFilterDepth (.or (inEqualities fid els)) =
      els.map fun _ => fid := fids_inEqualities 1998 fid els
  have hin : FilterCondition.fids maxFilterDepth (.in fid els) = [fid] := rfl
  simp only [Filter.evaluate, hin, hfids, forM_singleton_checkFilterable, hinner]
  cases hcheck : checkFilterable index.filterableAttributesRules fid with
  | error e => rfl
  | ok u =>
    rw [forM_copies_checkFilterable _ fid hcheck]
    rfl

end Rewrites

end MilliCore.Search
