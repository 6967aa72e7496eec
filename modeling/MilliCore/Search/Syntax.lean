import MilliCore.Result
import MilliCore.Store
import Mathlib.Data.Finset.Sort

set_option autoImplicit false

namespace MilliCore.Search
open MilliCore.Store

def maxFilterDepth : ℕ := 2000

structure Span where
  offset : ℕ
  fragment : String
deriving DecidableEq

/-- `filter_parser::Token`: its span, and the value it stands for (its fragment, unescaped, or
    the value it was built with). -/
structure Token where
  span : Span
  value : String
deriving DecidableEq

def Token.new (span : Span) (value : String) : Token := ⟨span, value⟩

inductive FloatError where
  | invalidFloat
  | nonFiniteFloat
deriving DecidableEq

inductive BadGeoError where
  | lat (lat : FiniteF64)
  | lng (lng : FiniteF64)
  | boundingBoxTopIsBelowBottom (top bottom : FiniteF64)
deriving DecidableEq

inductive FilterError where
  | attributeNotFilterable («attribute» : String) (filterablePatterns : Finset String)
  | parseGeoError (error : BadGeoError)
  | tooDeep
deriving DecidableEq

/-- The user errors of an evaluation: a `FilterError` on a token (`as_external_error`, surfaced
    as `UserError::InvalidFilter`), a token that is not a finite number, and
    `UserError::FilterOperatorNotAllowed`. -/
inductive Error where
  | invalidFilter (token : Token) (error : FilterError)
  | invalidFloat (token : Token) (error : FloatError)
  | filterOperatorNotAllowed (field : String) (allowedOperators : List String) (operator : String)
      (ruleIndex : ℕ)
deriving DecidableEq

instance instDecidableEqExcept {ε α : Type} [DecidableEq ε] [DecidableEq α] :
    DecidableEq (Except ε α)
  | .ok a, .ok b => decidable_of_iff (a = b) ⟨congrArg _, fun h => by injection h⟩
  | .error a, .error b => decidable_of_iff (a = b) ⟨congrArg _, fun h => by injection h⟩
  | .ok _, .error _ => isFalse fun h => by cases h
  | .error _, .ok _ => isFalse fun h => by cases h

def Token.asExternalError (token : Token) (error : FilterError) : Error :=
  .invalidFilter token error

/-! ## `Token::parse_finite_float`

The token's value read by `str::parse::<f64>`, which is not under src/: the exact value of the
decimal literal, rounded to the nearest `f64` with ties to even; a literal past `f64::MAX` rounds
to an infinity and is rejected, as are `inf`, `infinity` and `nan`. -/

def digitsFrom (acc : ℕ) : List Char → Option ℕ
  | [] => some acc
  | c :: cs => if c.isDigit then digitsFrom (10 * acc + (c.toNat - '0'.toNat)) cs else none

def parseSignificand (cs : List Char) : Option (ℕ × ℕ) :=
  match cs.splitOn '.' with
  | [i] => if i.isEmpty then none else (digitsFrom 0 i).map fun n => (n, 0)
  | [i, f] =>
    if i.isEmpty && f.isEmpty then none else (digitsFrom 0 (i ++ f)).map fun n => (n, f.length)
  | _ => none

def parseExponent : List Char → Option ℤ
  | '-' :: ds => if ds.isEmpty then none else (digitsFrom 0 ds).map fun n => -(n : ℤ)
  | '+' :: ds => if ds.isEmpty then none else (digitsFrom 0 ds).map (↑)
  | ds => if ds.isEmpty then none else (digitsFrom 0 ds).map (↑)

def scaleByPow10 (n : ℕ) (e : ℤ) : ℚ :=
  if 0 ≤ e then mkRat (n * 10 ^ e.toNat) 1 else mkRat n (10 ^ (-e).toNat)

def parseUnsignedDecimal (cs : List Char) : Option ℚ :=
  match cs.span fun c => c ≠ 'e' ∧ c ≠ 'E' with
  | (significand, []) => (parseSignificand significand).map fun (n, f) => scaleByPow10 n (-f)
  | (significand, _ :: exponent) => do
    let (n, f) ← parseSignificand significand
    let e ← parseExponent exponent
    pure (scaleByPow10 n (e - f))

def parseDecimal : List Char → Option ℚ
  | '-' :: cs => (parseUnsignedDecimal cs).map (- ·)
  | '+' :: cs => parseUnsignedDecimal cs
  | cs => parseUnsignedDecimal cs

def isNonFiniteLiteral (cs : List Char) : Bool :=
  let unsigned : List Char := match cs with
    | '-' :: rest => rest
    | '+' :: rest => rest
    | _ => cs
  decide (unsigned.map Char.toLower ∈ ["inf".toList, "infinity".toList, "nan".toList])

/-- `⌊log₂ n⌋` for `0 < n`, in at most `fuel` halvings. -/
def log2Within : ℕ → ℕ → ℕ
  | 0, _ => 0
  | fuel + 1, n => if n < 2 then 0 else log2Within fuel (n / 2) + 1

def floorLog2 (n d : ℕ) : ℤ :=
  let k : ℤ := (log2Within n n : ℤ) - log2Within d d
  if (if 0 ≤ k then d * 2 ^ k.toNat ≤ n else d ≤ n * 2 ^ (-k).toNat) then k else k - 1

def roundHalfEven (a b : ℕ) : ℕ :=
  if 2 * (a % b) < b then a / b
  else if b < 2 * (a % b) then a / b + 1
  else if a / b % 2 = 0 then a / b else a / b + 1

/-- The nearest `f64` to `q`, ties to even, with no upper limit on the exponent: a multiple of
    `2 ^ e`, `e` the exponent of the 53rd significant bit, or `-1074` below the normal range. -/
def roundToF64 (q : ℚ) : ℚ :=
  if q.num = 0 then 0 else
  let n := q.num.natAbs
  let e := max (floorLog2 n q.den - 52) (-1074)
  let m := if 0 ≤ e then roundHalfEven n (q.den * 2 ^ e.toNat)
    else roundHalfEven (n * 2 ^ (-e).toNat) q.den
  let magnitude : ℤ := if 0 ≤ e then m * 2 ^ e.toNat else m
  mkRat (if q.num < 0 then -magnitude else magnitude) (if 0 ≤ e then 1 else 2 ^ (-e).toNat)

def Token.parseFiniteFloat (token : Token) : Except Error FiniteF64 :=
  match parseDecimal token.value.toList with
  | some q =>
    if h : -f64MaxValue ≤ roundToF64 q ∧ roundToF64 q ≤ f64MaxValue then .ok ⟨roundToF64 q, h⟩
    else .error (.invalidFloat token .nonFiniteFloat)
  | none =>
    .error (.invalidFloat token
      (if isNonFiniteLiteral token.value.toList then .nonFiniteFloat else .invalidFloat))

example : (Token.new ⟨0, "1e3"⟩ "1e3").parseFiniteFloat = .ok ⟨1000, by decide⟩ := by decide

theorem parseFiniteFloat_error {token : Token} {e : Error}
    (h : token.parseFiniteFloat = .error e) : ∃ kind, e = .invalidFloat token kind := by
  unfold Token.parseFiniteFloat at h
  repeat' split at h
  all_goals cases h
  all_goals exact ⟨_, rfl⟩

inductive Condition where
  | greaterThan (value : Token)
  | greaterThanOrEqual (value : Token)
  | equal (value : Token)
  | notEqual (value : Token)
  | null
  | empty
  | exists
  | lowerThan (value : Token)
  | lowerThanOrEqual (value : Token)
  | between («from» «to» : Token)
  | contains (keyword word : Token)
  | startsWith (keyword word : Token)
deriving DecidableEq

/-- Modelled from the spec: `Condition::operator`, the operator as the filter writes it. -/
def Condition.operator : Condition → String
  | .greaterThan _ => ">"
  | .greaterThanOrEqual _ => ">="
  | .equal _ => "="
  | .notEqual _ => "!="
  | .null => "IS NULL"
  | .empty => "IS EMPTY"
  | .exists => "EXISTS"
  | .lowerThan _ => "<"
  | .lowerThanOrEqual _ => "<="
  | .between _ _ => "TO"
  | .contains _ _ => "CONTAINS"
  | .startsWith _ _ => "STARTS WITH"

inductive FilterCondition where
  | not (filter : FilterCondition)
  | condition (fid : Token) (op : Condition)
  | «in» (fid : Token) (els : List Token)
  | or (filters : List FilterCondition)
  | and (filters : List FilterCondition)
  | geoLowerThan (point : Token × Token) (radius : Token)
  | geoBoundingBox (topRightPoint bottomLeftPoint : Token × Token)

structure Filter where
  condition : FilterCondition

mutual
/-- Modelled from the spec: `FilterCondition::fids`, the fields of the conditions down to
    `depth`, each `Not`, `And` or `Or` a level (§4.1). -/
def FilterCondition.fids : ℕ → FilterCondition → List Token
  | 0, _ => []
  | _ + 1, .condition fid _ => [fid]
  | _ + 1, .in fid _ => [fid]
  | depth + 1, .not filter => filter.fids depth
  | depth + 1, .or filters => fidsOfList depth filters
  | depth + 1, .and filters => fidsOfList depth filters
  | _ + 1, .geoLowerThan _ _ => []
  | _ + 1, .geoBoundingBox _ _ => []

def fidsOfList (depth : ℕ) : List FilterCondition → List Token
  | [] => []
  | filter :: filters => filter.fids depth ++ fidsOfList depth filters
end

/-! ## Error messages

The texts of `impl Display for BadGeoError` and `impl Display for FilterError`. An `f64` is
written by Rust's `Display`, which is not under src/: the model takes it as `format`. -/

def patternsText (patterns : List String) : String :=
  String.join (patterns.enum.map fun entry =>
    "`" ++ entry.2 ++ "`" ++ (if entry.1 ≠ patterns.length - 1 then ", " else ""))

def BadGeoError.display (format : FiniteF64 → String) : BadGeoError → String
  | .boundingBoxTopIsBelowBottom top bottom =>
    "The top latitude `" ++ format top ++ "` is below the bottom latitude `" ++ format bottom ++
      "`."
  | .lat latitude =>
    "Bad latitude `" ++ format latitude ++
      "`. Latitude must be contained between -90 and 90 degrees. "
  | .lng longitude =>
    "Bad longitude `" ++ format longitude ++
      "`. Longitude must be contained between -180 and 180 degrees. "

/-- `impl Display for FilterError`: the patterns are sorted before they are listed. -/
def FilterError.display (format : FiniteF64 → String) : FilterError → String
  | .attributeNotFilterable «attribute» filterablePatterns =>
    "Attribute `" ++ «attribute» ++ "` is not filterable." ++
      if filterablePatterns = ∅ then " This index does not have configured filterable attributes."
      else " Available filterable attribute patterns are: " ++
        patternsText (filterablePatterns.sort (· ≤ ·)) ++ "."
  | .parseGeoError error => error.display format
  | .tooDeep =>
    "Too many filter conditions, can\x27t process more than " ++ toString maxFilterDepth ++
      " filters."

theorem foldl_append_data (acc : String) :
    ∀ l : List String, (l.foldl (fun r s => r ++ s) acc).data = acc.data ++ (l.map String.data).flatten
  | [] => by simp
  | s :: l => by simp [foldl_append_data _ l]

theorem infix_patternsText {patterns : List String} {p : String} (hp : p ∈ patterns) :
    ("`" ++ p ++ "`").data <:+: (patternsText patterns).data := by
  rw [← List.enum_map_snd patterns, List.mem_map] at hp
  obtain ⟨entry, hmem, rfl⟩ := hp
  let quoted := fun entry : ℕ × String =>
    "`" ++ entry.2 ++ "`" ++ (if entry.1 ≠ patterns.length - 1 then ", " else "")
  have hquoted : (quoted entry).data ∈ (patterns.enum.map quoted).map String.data :=
    List.mem_map.2 ⟨_, List.mem_map.2 ⟨entry, hmem, rfl⟩, rfl⟩
  rw [patternsText, String.join, foldl_append_data]
  exact ((List.prefix_append _ _).isInfix.trans (List.infix_of_mem_flatten hquoted)).trans
    (List.suffix_append _ _).isInfix

theorem display_attributeNotFilterable (format : FiniteF64 → String) («attribute» : String)
    (filterablePatterns : Finset String) :
    ("Attribute `" ++ «attribute» ++ "` is not filterable.").data <+:
        ((FilterError.attributeNotFilterable «attribute» filterablePatterns).display format).data ∧
      ∀ p ∈ filterablePatterns, ("`" ++ p ++ "`").data <:+:
        ((FilterError.attributeNotFilterable «attribute» filterablePatterns).display format).data := by
  refine ⟨by simp [FilterError.display], fun p hp => ?_⟩
  rw [FilterError.display, if_neg (Finset.ne_empty_of_mem hp)]
  refine (infix_patternsText ((Finset.mem_sort (· ≤ ·)).2 hp)).trans ?_
  simp only [String.data_append]
  exact (List.infix_append _ _ _).trans (List.suffix_append _ _).isInfix

end MilliCore.Search
