import MilliCore.Search.Semantics
import Mathlib.Data.List.ReduceOption

set_option autoImplicit false

namespace MilliCore.Search
open MilliCore.Store

/-! ## Building a filter from a request

`Filter::from_json` reads a JSON string as one filter expression and a JSON array as the
conjunction of its items, an item being an expression or an array of expressions joined by `OR`
(`parse_filter_array`, then `Filter::from_array`). Every expression goes through
`Filter::from_str`, which parses it and rejects a condition that reaches `MAX_FILTER_DEPTH`. The
parser and the depth probe belong to the `filter_parser` crate, which is not under src/: the
model takes them as a `FilterParser`, and every result here holds for every parser. -/

inductive JsonValue where
  | null
  | bool (b : Bool)
  | number (n : ℚ)
  | string (s : String)
  | array (values : List JsonValue)
  | object (fields : List (String × JsonValue))

/-- The errors of building a filter: an `Error` on a token (a condition too deep), the parser's
    error as `UserError::InvalidFilter` with its text, and `UserError::InvalidFilterExpression`
    with the JSON types expected and the value found. -/
inductive ConstructError where
  | filter (error : Error)
  | invalidFilter (message : String)
  | invalidFilterExpression (expected : List String) (value : JsonValue)

/-- What `Filter` uses of the `filter_parser` crate: `FilterCondition::parse`, its error kept as
    its text, and `FilterCondition::token_at_depth`. -/
structure FilterParser where
  parse : String → Except String (Option FilterCondition)
  tokenAtDepth : FilterCondition → ℕ → Option Token

/-- How `from_array` joins the conditions it kept: none gives nothing, one gives itself, more
    give `node` of them (the `match ors.len()` of an array item, and the `and` after the loop). -/
def collapse (node : List FilterCondition → FilterCondition) :
    List FilterCondition → Option FilterCondition
  | [] => none
  | [condition] => some condition
  | c₁ :: c₂ :: conditions => some (node (c₁ :: c₂ :: conditions))

def arrayItemRules : Sum (List String) String → List String
  | .inl rules => rules
  | .inr rule => [rule]

section Construction
variable (parser : FilterParser)

def FilterParser.checkDepth (condition : FilterCondition) : Except ConstructError (Option Filter) :=
  match parser.tokenAtDepth condition maxFilterDepth with
  | some token => .error (.filter (token.asExternalError .tooDeep))
  | none => .ok (some ⟨condition⟩)

def Filter.fromStr (expression : String) : Except ConstructError (Option Filter) :=
  match parser.parse expression with
  | .ok (some condition) => parser.checkDepth condition
  | .ok none => .ok none
  | .error e => .error (.invalidFilter e)

/-- An item of the loop of `from_array`: the rules of an `Either::Left` array through `from_str`
    in order, the empty ones dropped and the rest joined by `Or`; an `Either::Right` rule through
    `from_str`. -/
def Filter.fromEither : Sum (List String) String → Except ConstructError (Option FilterCondition)
  | .inl rules => do
    let ors ← rules.mapM (Filter.fromStr parser)
    pure (collapse .or (ors.reduceOption.map Filter.condition))
  | .inr rule => do
    let filter ← Filter.fromStr parser rule
    pure (filter.map Filter.condition)

def Filter.fromArray (array : List (Sum (List String) String)) :
    Except ConstructError (Option Filter) := do
  let ands ← array.mapM (Filter.fromEither parser)
  match collapse .and ands.reduceOption with
  | none => pure none
  | some condition => parser.checkDepth condition

def parseOr : JsonValue → Except ConstructError String
  | .string s => .ok s
  | value => .error (.invalidFilterExpression ["String"] value)

def parseAnd : JsonValue → Except ConstructError (Sum (List String) String)
  | .string s => .ok (.inr s)
  | .array values => .inl <$> values.mapM parseOr
  | value => .error (.invalidFilterExpression ["String", "[String]"] value)

/-- `parse_filter_array`: every element's shape is read before any rule is parsed. -/
def Filter.parseFilterArray (arr : List JsonValue) : Except ConstructError (Option Filter) := do
  let ands ← arr.mapM parseAnd
  Filter.fromArray parser ands

def Filter.fromJson : JsonValue → Except ConstructError (Option Filter)
  | .string expr => Filter.fromStr parser expr
  | .array arr => Filter.parseFilterArray parser arr
  | value => .error (.invalidFilterExpression ["String", "Array"] value)

end Construction

/-! ## Rules in reading order -/

theorem flatMap_eq_append_cons {α β : Type} {g : α → List β} {b : β} {post : List β} :
    ∀ {l : List α} {pre : List β}, l.flatMap g = pre ++ b :: post →
      ∃ lpre a lpost gpre gpost, l = lpre ++ a :: lpost ∧ g a = gpre ++ b :: gpost ∧
        pre = lpre.flatMap g ++ gpre
  | [], pre, h => by simp at h
  | a :: l, pre, h => by
    rw [List.flatMap_cons, List.append_eq_append_iff] at h
    rcases h with ⟨c, rfl, hrest⟩ | ⟨c, hga, hpost⟩
    · obtain ⟨lpre, a', lpost, gpre, gpost, rfl, ha', rfl⟩ := flatMap_eq_append_cons hrest
      exact ⟨a :: lpre, a', lpost, gpre, gpost, rfl, ha', by simp⟩
    · cases c with
      | nil =>
        obtain ⟨lpre, a', lpost, gpre, gpost, rfl, ha', hnil⟩ :=
          @flatMap_eq_append_cons _ _ _ _ _ _ [] ((List.nil_append _).symm.trans hpost.symm)
        exact ⟨a :: lpre, a', lpost, gpre, gpost, rfl, ha', by
          rw [List.flatMap_cons, List.append_assoc, ← hnil, hga, List.append_nil, List.append_nil]⟩
      | cons b' c =>
        simp only [List.cons_append, List.cons.injEq] at hpost
        obtain ⟨rfl, rfl⟩ := hpost
        exact ⟨[], a, l, pre, c, rfl, hga, by simp⟩

/-! ## The joins -/

theorem collapse_eq_none {node : List FilterCondition → FilterCondition}
    {conditions : List FilterCondition} : collapse node conditions = none ↔ conditions = [] := by
  match conditions with
  | [] => simp [collapse]
  | [_] => simp [collapse]
  | _ :: _ :: _ => simp [collapse]

section Joins
variable (search : FacetSearch) (geo : GeoSearch) (index : Index)
  {conditions : List FilterCondition} {condition : FilterCondition}

theorem mem_semantics_collapse_or (h : collapse .or conditions = some condition) (d : DocumentId) :
    d ∈ semantics search geo index condition ↔ ∃ c ∈ conditions, d ∈ semantics search geo index c := by
  match conditions, h with
  | [_], rfl => simp
  | _ :: _ :: _, rfl => rw [semantics, mem_semanticsOr]

theorem mem_semantics_collapse_and (h : collapse .and conditions = some condition) (d : DocumentId) :
    d ∈ semantics search geo index condition ↔ ∀ c ∈ conditions, d ∈ semantics search geo index c := by
  match conditions, h with
  | [_], rfl => simp
  | _ :: _ :: _, rfl => simp [semantics, mem_semanticsAnd]

end Joins

/-! ## `from_str` and the items of `from_array` -/

section Items
variable {parser : FilterParser}

theorem checkDepth_ne_none (condition : FilterCondition) :
    parser.checkDepth condition ≠ .ok none := by
  unfold FilterParser.checkDepth
  split <;> simp

theorem checkDepth_eq_some {condition : FilterCondition} {filter : Filter}
    (h : parser.checkDepth condition = .ok (some filter)) :
    filter.condition = condition ∧ parser.tokenAtDepth condition maxFilterDepth = none := by
  unfold FilterParser.checkDepth at h
  split at h
  · cases h
  · cases h
    exact ⟨rfl, ‹_›⟩

theorem checkDepth_of_fromStr {rule : String} {filter : Filter}
    (h : Filter.fromStr parser rule = .ok (some filter)) :
    parser.checkDepth filter.condition = .ok (some filter) := by
  unfold Filter.fromStr at h
  split at h
  · rw [(checkDepth_eq_some h).1]
    exact h
  · cases h
  · cases h

theorem fromEither_eq (item : Sum (List String) String) :
    Filter.fromEither parser item = (fun ors => collapse .or (ors.reduceOption.map Filter.condition)) <$>
      (arrayItemRules item).mapM (Filter.fromStr parser) := by
  cases item with
  | inl rules => rfl
  | inr rule =>
    simp only [Filter.fromEither, arrayItemRules, List.mapM_cons, List.mapM_nil]
    cases Filter.fromStr parser rule with
    | error e => rfl
    | ok filter => cases filter <;> rfl

theorem fromEither_eq_ok {item : Sum (List String) String} {o : Option FilterCondition}
    (h : Filter.fromEither parser item = .ok o) :
    ∃ ors, (arrayItemRules item).mapM (Filter.fromStr parser) = .ok ors ∧
      o = collapse .or (ors.reduceOption.map Filter.condition) := by
  obtain ⟨ors, hors, rfl⟩ := map_eq_ok.1 ((fromEither_eq item).symm.trans h)
  exact ⟨ors, hors, rfl⟩

theorem fromEither_eq_none_iff {item : Sum (List String) String} {o : Option FilterCondition}
    (h : Filter.fromEither parser item = .ok o) :
    o = none ↔ ∀ rule ∈ arrayItemRules item, Filter.fromStr parser rule = .ok none := by
  obtain ⟨ors, hors, rfl⟩ := fromEither_eq_ok h
  simp only [collapse_eq_none, List.map_eq_nil_iff, List.reduceOption, List.filterMap_eq_nil_iff,
    id_eq]
  constructor
  · intro hnone rule hrule
    obtain ⟨r, hr, hfrom⟩ := mapM_eq_ok_forall hors rule hrule
    rwa [hnone r hr] at hfrom
  · intro hnone r hr
    obtain ⟨rule, hrule, hfrom⟩ := (mem_of_mapM_eq_ok hors).1 hr
    rw [hnone rule hrule, Except.ok.injEq] at hfrom
    exact hfrom.symm

theorem fromStr_ok_of_fromEither {item : Sum (List String) String} {o : Option FilterCondition}
    (h : Filter.fromEither parser item = .ok o) :
    ∀ rule ∈ arrayItemRules item, ∃ r, Filter.fromStr parser rule = .ok r := fun rule hrule =>
  have ⟨_, hors, _⟩ := fromEither_eq_ok h
  (mapM_eq_ok_forall hors rule hrule).imp fun _ h => h.2

theorem fromEither_ne_none_iff {item : Sum (List String) String} {o : Option FilterCondition}
    (h : Filter.fromEither parser item = .ok o) :
    o ≠ none ↔ ∃ rule ∈ arrayItemRules item, ∃ filter,
      Filter.fromStr parser rule = .ok (some filter) := by
  rw [Ne, fromEither_eq_none_iff h]
  push_neg
  refine exists_congr fun rule => and_congr_right fun hrule => ?_
  obtain ⟨r, hr⟩ := fromStr_ok_of_fromEither h rule hrule
  rw [hr]
  cases r <;> simp

theorem fromEither_ok_of_forall {item : Sum (List String) String}
    (h : ∀ rule ∈ arrayItemRules item, ∃ r, Filter.fromStr parser rule = .ok r) :
    ∃ o, Filter.fromEither parser item = .ok o := by
  obtain ⟨ors, hors⟩ := mapM_ok_of_forall h
  exact ⟨_, by rw [fromEither_eq, hors]; rfl⟩

theorem fromEither_eq_error_of_first {item : Sum (List String) String} {pre post : List String}
    {rule : String} {e : ConstructError} (hsplit : arrayItemRules item = pre ++ rule :: post)
    (hpre : ∀ r ∈ pre, ∃ o, Filter.fromStr parser r = .ok o)
    (hrule : Filter.fromStr parser rule = .error e) :
    Filter.fromEither parser item = .error e := by
  rw [fromEither_eq, hsplit, mapM_eq_error_of_first hpre hrule]
  rfl

variable (search : FacetSearch) (geo : GeoSearch) (index : Index)

theorem mem_semantics_fromEither {item : Sum (List String) String} {condition : FilterCondition}
    (h : Filter.fromEither parser item = .ok (some condition)) (d : DocumentId) :
    d ∈ semantics search geo index condition ↔ ∃ rule ∈ arrayItemRules item, ∃ filter,
      Filter.fromStr parser rule = .ok (some filter) ∧
        d ∈ semantics search geo index filter.condition := by
  obtain ⟨ors, hors, hcollapse⟩ := fromEither_eq_ok h
  rw [mem_semantics_collapse_or search geo index hcollapse.symm]
  simp only [List.mem_map, List.reduceOption_mem_iff, mem_of_mapM_eq_ok hors]
  constructor
  · rintro ⟨_, ⟨filter, ⟨rule, hrule, hfrom⟩, rfl⟩, hd⟩
    exact ⟨rule, hrule, filter, hfrom, hd⟩
  · rintro ⟨rule, hrule, filter, hfrom, hd⟩
    exact ⟨_, ⟨filter, ⟨rule, hrule, hfrom⟩, rfl⟩, hd⟩

end Items

/-! ## What an array of rules builds -/

/-- A filter parser that reads the empty expression as no filter, fails on `!` with a syntax
    error and reads any other expression `v` as the condition `a = v`. -/
def sampleParser : FilterParser where
  parse expression :=
    if expression = "" then .ok none
    else if expression = "!" then .error "unexpected !"
    else .ok (some (.condition (sampleToken "a") (.equal (sampleToken expression))))
  tokenAtDepth _ _ := none

section Array
variable {parser : FilterParser}

theorem fromArray_eq_ok {array : List (Sum (List String) String)} {result : Option Filter}
    (h : Filter.fromArray parser array = .ok result) :
    ∃ ands, array.mapM (Filter.fromEither parser) = .ok ands ∧
      ((collapse .and ands.reduceOption = none ∧ result = none) ∨
        ∃ condition, collapse .and ands.reduceOption = some condition ∧
          parser.checkDepth condition = .ok result) := by
  obtain ⟨ands, hands, h⟩ := bind_eq_ok.1 h
  refine ⟨ands, hands, ?_⟩
  revert h
  cases collapse .and ands.reduceOption with
  | none => intro h; cases h; exact .inl ⟨rfl, rfl⟩
  | some condition => exact fun h => .inr ⟨condition, rfl, h⟩

/-- An array builds no filter exactly when every rule of every item is one the parser reads as
    no filter: an empty array, an empty item and an empty rule add nothing to a filter. -/
theorem Filter.fromArray_eq_none_iff (parser : FilterParser)
    (array : List (Sum (List String) String)) :
    Filter.fromArray parser array = .ok none ↔
      ∀ item ∈ array, ∀ rule ∈ arrayItemRules item, Filter.fromStr parser rule = .ok none := by
  constructor
  · intro h item hitem
    obtain ⟨ands, hands, ⟨hnone, -⟩ | ⟨condition, -, hcheck⟩⟩ := fromArray_eq_ok h
    · obtain ⟨o, ho, hfrom⟩ := mapM_eq_ok_forall hands item hitem
      rw [collapse_eq_none, List.reduceOption, List.filterMap_eq_nil_iff] at hnone
      exact (fromEither_eq_none_iff hfrom).1 (hnone o ho)
    · exact absurd hcheck (checkDepth_ne_none condition)
  · intro hall
    obtain ⟨ands, hands⟩ := mapM_ok_of_forall fun item hitem =>
      fromEither_ok_of_forall fun rule hrule => ⟨_, hall item hitem rule hrule⟩
    have hnone : collapse .and ands.reduceOption = none := by
      rw [collapse_eq_none, List.reduceOption, List.filterMap_eq_nil_iff]
      intro o ho
      obtain ⟨item, hitem, hfrom⟩ := (mem_of_mapM_eq_ok hands).1 ho
      exact (fromEither_eq_none_iff hfrom).2 (hall item hitem)
    simp only [Filter.fromArray, hands, ok_bind, hnone]
    rfl

/-- The first rule that fails, reading the items in order and each item's rules in order, gives
    the error of the whole array: no later rule is parsed and the depth guard of the joined
    filter is not reached. -/
theorem Filter.fromArray_eq_error_of_first {array : List (Sum (List String) String)}
    {pre post : List String} {rule : String} {e : ConstructError}
    (hsplit : array.flatMap arrayItemRules = pre ++ rule :: post)
    (hpre : ∀ r ∈ pre, ∃ o, Filter.fromStr parser r = .ok o)
    (hrule : Filter.fromStr parser rule = .error e) :
    Filter.fromArray parser array = .error e := by
  obtain ⟨lpre, item, lpost, gpre, gpost, rfl, hitem, rfl⟩ := flatMap_eq_append_cons hsplit
  have hbefore : ∀ x ∈ lpre, ∃ o, Filter.fromEither parser x = .ok o := fun x hx =>
    fromEither_ok_of_forall fun r hr =>
      hpre r (List.mem_append_left _ (List.mem_flatMap.2 ⟨x, hx, hr⟩))
  rw [Filter.fromArray, mapM_eq_error_of_first hbefore
    (fromEither_eq_error_of_first hitem (fun r hr => hpre r (List.mem_append_right _ hr)) hrule)]
  rfl

theorem fromArray_syntax_error_in_group :
    Filter.fromArray sampleParser [.inr "1", .inl ["", "!", "2"], .inr "!"] =
      .error (.invalidFilter "unexpected !") :=
  @Filter.fromArray_eq_error_of_first sampleParser _ ["1", ""] ["2", "!"] "!" _ rfl
    (fun r hr => by rcases List.mem_pair.1 hr with rfl | rfl <;> exact ⟨_, rfl⟩) rfl

variable (search : FacetSearch) (geo : GeoSearch) (index : Index)

/-- The filter an array builds holds, once evaluated, the documents that satisfy, for every
    item with a rule that parses to a condition, one of those conditions: items are joined by
    `AND`, the rules of an item by `OR`, and an item whose rules all parse to nothing is
    dropped rather than matching no document. -/
theorem Filter.fromArray_evaluate (hc : index.Closed) {array : List (Sum (List String) String)}
    {filter : Filter} (h : Filter.fromArray parser array = .ok (some filter)) {B : RoaringBitmap}
    (hB : filter.evaluate search geo index = .ok B) (d : DocumentId) :
    d ∈ B ↔ ∀ item ∈ array,
      (∃ rule ∈ arrayItemRules item, ∃ g, Filter.fromStr parser rule = .ok (some g)) →
        ∃ rule ∈ arrayItemRules item, ∃ g, Filter.fromStr parser rule = .ok (some g) ∧
          d ∈ semantics search geo index g.condition := by
  rw [evaluate_eq_semantics search geo index hc filter B hB]
  obtain ⟨ands, hands, ⟨-, hfilter⟩ | ⟨condition, hcollapse, hcheck⟩⟩ := fromArray_eq_ok h
  · cases hfilter
  rw [(checkDepth_eq_some hcheck).1, mem_semantics_collapse_and search geo index hcollapse]
  simp only [List.reduceOption_mem_iff]
  constructor
  · intro hall item hitem hsome
    obtain ⟨o, ho, hfrom⟩ := mapM_eq_ok_forall hands item hitem
    cases o with
    | none => exact absurd rfl ((fromEither_ne_none_iff hfrom).2 hsome)
    | some c => exact (mem_semantics_fromEither search geo index hfrom d).1 (hall c ho)
  · intro hall c hc
    obtain ⟨item, hitem, hfrom⟩ := (mem_of_mapM_eq_ok hands).1 hc
    exact (mem_semantics_fromEither search geo index hfrom d).2
      (hall item hitem ((fromEither_ne_none_iff hfrom).1 (Option.some_ne_none c)))

theorem fromArray_evaluate_sample :
    Filter.fromArray sampleParser [.inr "1", .inl ["", "2"]] = .ok (some ⟨.and
      [.condition (sampleToken "a") (.equal (sampleToken "1")),
        .condition (sampleToken "a") (.equal (sampleToken "2"))]⟩) ∧
    Filter.evaluate .levelZero .inOrder ⟨.and
      [.condition (sampleToken "a") (.equal (sampleToken "1")),
        .condition (sampleToken "a") (.equal (sampleToken "2"))]⟩ sampleIndex = .ok ∅ ∧
    ((1 : DocumentId) ∈ (∅ : RoaringBitmap) ↔ ∀ item ∈ [.inr "1", .inl ["", "2"]],
      (∃ rule ∈ arrayItemRules item, ∃ g, Filter.fromStr sampleParser rule = .ok (some g)) →
        ∃ rule ∈ arrayItemRules item, ∃ g, Filter.fromStr sampleParser rule = .ok (some g) ∧
          1 ∈ semantics .levelZero .inOrder sampleIndex g.condition) :=
  have h : Filter.fromArray sampleParser [.inr "1", .inl ["", "2"]] = .ok (some ⟨.and
      [.condition (sampleToken "a") (.equal (sampleToken "1")),
        .condition (sampleToken "a") (.equal (sampleToken "2"))]⟩) := rfl
  ⟨h, by decide, Filter.fromArray_evaluate .levelZero .inOrder sampleIndex sampleIndex_closed h
    (by decide) 1⟩

end Array

/-! ## JSON requests -/

def JsonValue.isString : JsonValue → Bool
  | .string _ => true
  | _ => false

def JsonValue.isRuleGroup : JsonValue → Bool
  | .string _ => true
  | .array values => values.all JsonValue.isString
  | _ => false

theorem parseOr_eq_ok_of_isString {value : JsonValue} (h : value.isString = true) :
    ∃ s, parseOr value = .ok s := by
  cases value <;> first | exact ⟨_, rfl⟩ | cases h

theorem parseOr_eq_error {value : JsonValue} (h : value.isString = false) :
    parseOr value = .error (.invalidFilterExpression ["String"] value) := by
  cases value <;> first | rfl | cases h

theorem parseAnd_eq_ok_of_isRuleGroup {value : JsonValue} (h : value.isRuleGroup = true) :
    ∃ item, parseAnd value = .ok item := by
  cases value with
  | string s => exact ⟨_, rfl⟩
  | array values =>
    rw [JsonValue.isRuleGroup, List.all_eq_true] at h
    obtain ⟨rules, hrules⟩ := mapM_ok_of_forall fun v hv => parseOr_eq_ok_of_isString (h v hv)
    exact ⟨.inl rules, by rw [parseAnd, hrules]; rfl⟩
  | _ => cases h

/-- The shape of every element of a JSON array is checked before any rule is parsed: after
    elements that are rules or arrays of rules, an element that is neither fails the whole
    filter, whatever the parser and the elements after it; it is named itself when it is not an
    array, and by its first element that is not a string when it is. -/
theorem Filter.fromJson_array_shape_error (parser : FilterParser) {pre post : List JsonValue}
    (hpre : ∀ v ∈ pre, v.isRuleGroup = true) :
    (∀ value : JsonValue, value.isString = false → (∀ values, value ≠ .array values) →
      Filter.fromJson parser (.array (pre ++ value :: post)) =
        .error (.invalidFilterExpression ["String", "[String]"] value)) ∧
    (∀ strings rest : List JsonValue, ∀ found : JsonValue, (∀ v ∈ strings, v.isString = true) →
      found.isString = false →
      Filter.fromJson parser (.array (pre ++ .array (strings ++ found :: rest) :: post)) =
        .error (.invalidFilterExpression ["String"] found)) := by
  have hfirst : ∀ value e, parseAnd value = .error e →
      Filter.fromJson parser (.array (pre ++ value :: post)) = .error e := fun _ _ hvalue => by
    rw [Filter.fromJson, Filter.parseFilterArray, mapM_eq_error_of_first
      (fun v hv => parseAnd_eq_ok_of_isRuleGroup (hpre v hv)) hvalue]
    rfl
  refine ⟨fun value hstring harray => hfirst _ _ ?_,
    fun strings rest found hstrings hfound => hfirst _ _ ?_⟩
  · cases value with
    | string s => cases hstring
    | array values => exact absurd rfl (harray values)
    | _ => rfl
  · rw [parseAnd, mapM_eq_error_of_first (fun v hv => parseOr_eq_ok_of_isString (hstrings v hv))
      (parseOr_eq_error hfound)]
    rfl

theorem fromJson_null_and_number_in_group :
    Filter.fromJson sampleParser (.array ([.string "1"] ++ .null :: [.string "!"])) =
      .error (.invalidFilterExpression ["String", "[String]"] .null) ∧
    Filter.fromJson sampleParser (.array ([.string "1"] ++ .array ([.string "2"] ++ .number 3 :: [])
      :: [.null])) = .error (.invalidFilterExpression ["String"] (.number 3)) :=
  ⟨(Filter.fromJson_array_shape_error sampleParser (by decide)).1 .null rfl (fun _ h => nomatch h),
    (Filter.fromJson_array_shape_error sampleParser (by decide)).2 _ _ _ (by decide) rfl⟩

theorem fromArray_singleton (parser : FilterParser) (item : Sum (List String) String)
    {rule : String} (hitem : arrayItemRules item = [rule]) :
    Filter.fromArray parser [item] = Filter.fromStr parser rule := by
  simp only [Filter.fromArray, List.mapM_cons, List.mapM_nil, fromEither_eq, hitem]
  cases h : Filter.fromStr parser rule with
  | error e => rfl
  | ok r =>
    cases r with
    | none => rfl
    | some filter => exact checkDepth_of_fromStr h

/-- A rule sent alone, as a string, in an array or in an array inside an array, builds the same
    filter or fails with the same error: the depth guard `from_array` applies again never
    rejects what `from_str` let through. -/
theorem Filter.fromJson_single_rule (parser : FilterParser) (rule : String) :
    Filter.fromJson parser (.array [.string rule]) = Filter.fromJson parser (.string rule) ∧
      Filter.fromJson parser (.array [.array [.string rule]]) =
        Filter.fromJson parser (.string rule) := by
  constructor
  · exact fromArray_singleton parser (.inr rule) rfl
  · exact fromArray_singleton parser (.inl [rule]) rfl

end MilliCore.Search
