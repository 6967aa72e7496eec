import MilliCore.Extract.Basic
import Mathlib.Data.List.AList

set_option autoImplicit false

namespace MilliCore.Extract

/-! ## The proximity window of `extract_word_pair_proximity_docids` -/

/-- `MAX_DISTANCE`, from `proximity.rs`, which is not under src/; the spec gives `8`. The window
    needs it positive, and below `256` for `prox as u8` and `MAX_DISTANCE as u8` to keep their
    values. -/
class MaxDistance where
  val : ℕ
  pos : 0 < val
  lt_u8 : val < 256

theorem min?_congr {l₁ l₂ : List ℕ} (h : ∀ v, v ∈ l₁ ↔ v ∈ l₂) : l₁.min? = l₂.min? := by
  cases h₂ : l₂.min? with
  | none =>
    rw [List.min?_eq_none_iff] at h₂ ⊢
    exact List.eq_nil_iff_forall_not_mem.2 fun v hv => by simp [h₂] at h; exact h v hv
  | some m =>
    rw [List.min?_eq_some_iff'] at h₂ ⊢
    exact ⟨(h m).2 h₂.1, fun b hb => h₂.2 b ((h b).1 hb)⟩

section Window
variable [MaxDistance]

def maxDistance : ℕ := MaxDistance.val

theorem maxDistance_pos : 0 < maxDistance := MaxDistance.pos

/-- Modelled from the spec (§4.7): `index_proximity`, the distance of two positions clamped to
    `MAX_DISTANCE`. -/
def indexProximity (lhs rhs : ℕ) : ℕ :=
  min (rhs - lhs + (lhs - rhs)) maxDistance

/-- A proximity kept in a pair map: the guard of `word_positions_into_word_pair_proximity` lets
    only `0 < prox < MAX_DISTANCE` in. -/
structure Proximity where
  val : ℕ
  pos : 0 < val
  lt : val < maxDistance
deriving DecidableEq

def Proximity.cmpMin (a b : Proximity) : Proximity :=
  if a.val ≤ b.val then a else b

@[simp] theorem Proximity.val_cmpMin (a b : Proximity) : (a.cmpMin b).val = min a.val b.val := by
  unfold Proximity.cmpMin
  split <;> omega

/-- `BTreeMap<(String, String), u8>`: the best proximity of each ordered word pair, kept as an
    association list with one entry per pair. -/
abbrev WordPairProximity := AList fun _ : String × String => Proximity

def insertMin (map : WordPairProximity) (pair : String × String) (prox : Proximity) :
    WordPairProximity :=
  map.insert pair (match map.lookup pair with
    | some p => p.cmpMin prox
    | none => prox)

def insertIfClose (map : WordPairProximity) (pair : String × String) (prox : ℕ) :
    WordPairProximity :=
  if h : 0 < prox ∧ prox < maxDistance then insertMin map pair ⟨prox, h.1, h.2⟩ else map

/-- `word_positions_into_word_pair_proximity` on the window `head :: rest`: the head is popped and
    its proximity to each word left is recorded. The source's `pop_front().unwrap()` is only
    reached on a non-empty window, so the head is an argument here. -/
def wordPositionsIntoWordPairProximity (head : String × ℕ)
    (rest : List (String × ℕ)) (map : WordPairProximity) : WordPairProximity :=
  rest.foldl (fun map (word, position) =>
    insertIfClose map (head.1, word) (indexProximity head.2 position)) map

/-- The `while` loop before each push, which drains "the proximity window until the head word is
    considered close to the word we are inserting". -/
def drainProximityWindow (position : ℕ) :
    List (String × ℕ) → WordPairProximity → List (String × ℕ) × WordPairProximity
  | [], map => ([], map)
  | head :: rest, map =>
    if maxDistance ≤ indexProximity head.2 position then
      drainProximityWindow position rest (wordPositionsIntoWordPairProximity head rest map)
    else (head :: rest, map)

/-- The `for (position, word)` loop over one side of a record: each word is pushed at the back
    once the heads too far from it are drained. -/
def pushWordPositions :
    List (String × ℕ) → WordPairProximity → List (ℕ × String) →
      List (String × ℕ) × WordPairProximity
  | window, map, [] => (window, map)
  | window, map, (position, word) :: rest =>
    let (window, map) := drainProximityWindow position window map
    pushWordPositions (window ++ [(word, position)]) map rest

/-- The `while !word_positions.is_empty()` loop that ends a side. -/
def drainWordPositions :
    List (String × ℕ) → WordPairProximity → List (String × ℕ) × WordPairProximity
  | [], map => ([], map)
  | head :: rest, map => drainWordPositions rest (wordPositionsIntoWordPairProximity head rest map)

/-- One side of a record in its `rayon::join` closure: nothing when the precision does not enable
    the side or the record lacks it, else the push loop and the final drain. -/
def extractSide (enabled : Bool) (side : Option (List (ℕ × String)))
    (window : List (String × ℕ)) (map : WordPairProximity) :
    List (String × ℕ) × WordPairProximity :=
  if enabled then
    match side with
    | some positions =>
      let (window, map) := pushWordPositions window map positions
      drainWordPositions window map
    | none => (window, map)
  else (window, map)

/-! ## The pairs the window records -/

def insertAll (map : WordPairProximity) (items : List ((String × String) × ℕ)) :
    WordPairProximity :=
  items.foldl (fun map item => insertIfClose map item.1 item.2) map

def pairsOf (head : String × ℕ) (rest : List (String × ℕ)) :
    List ((String × String) × ℕ) :=
  rest.map fun x => ((head.1, x.1), indexProximity head.2 x.2)

def allPairs : List (String × ℕ) → List ((String × String) × ℕ)
  | [] => []
  | head :: rest => pairsOf head rest ++ allPairs rest

def Increasing (window : List (String × ℕ)) : Prop :=
  window.Pairwise fun a b => a.2 < b.2

theorem insertAll_append (map : WordPairProximity) (l₁ l₂ : List ((String × String) × ℕ)) :
    insertAll map (l₁ ++ l₂) = insertAll (insertAll map l₁) l₂ :=
  List.foldl_append _ _ _ _

theorem wordPositionsIntoWordPairProximity_eq (head : String × ℕ)
    (rest : List (String × ℕ)) (map : WordPairProximity) :
    wordPositionsIntoWordPairProximity head rest map = insertAll map (pairsOf head rest) := by
  simp only [wordPositionsIntoWordPairProximity, insertAll, pairsOf, List.foldl_map]

theorem insertAll_of_far {map : WordPairProximity} {items : List ((String × String) × ℕ)}
    (h : ∀ item ∈ items, maxDistance ≤ item.2) : insertAll map items = map := by
  induction items generalizing map with
  | nil => rfl
  | cons item items ih =>
    have hfar : ¬(0 < item.2 ∧ item.2 < maxDistance) := fun hc =>
      absurd (h item (List.mem_cons_self _ _)) (Nat.not_le.2 hc.2)
    simp only [insertAll, List.foldl_cons, insertIfClose, hfar, dite_false]
    exact ih fun i hi => h i (List.mem_cons_of_mem _ hi)

theorem drainWordPositions_eq (window : List (String × ℕ)) (map : WordPairProximity) :
    drainWordPositions window map = ([], insertAll map (allPairs window)) := by
  induction window generalizing map with
  | nil => rfl
  | cons head rest ih =>
    rw [drainWordPositions, ih, wordPositionsIntoWordPairProximity_eq, allPairs, insertAll_append]

theorem drainProximityWindow_suffix (position : ℕ) (window : List (String × ℕ))
    (map : WordPairProximity) : (drainProximityWindow position window map).1 <:+ window := by
  induction window generalizing map with
  | nil => exact List.suffix_refl _
  | cons head rest ih =>
    rw [drainProximityWindow]
    split
    · exact (ih _).trans (List.suffix_cons _ _)
    · exact List.suffix_refl _

theorem far_of_increasing {head x : String × ℕ} {rest : List (String × ℕ)}
    (hlt : head.2 < x.2) (hrest : ∀ y ∈ rest, x.2 < y.2)
    (hfar : maxDistance ≤ indexProximity head.2 x.2) :
    ∀ item ∈ pairsOf head (x :: rest), maxDistance ≤ item.2 := by
  simp only [pairsOf, List.mem_map, List.mem_cons, forall_exists_index, and_imp]
  rintro _ y hy rfl
  have : x.2 ≤ y.2 := by rcases hy with rfl | hy; exacts [le_rfl, (hrest y hy).le]
  unfold indexProximity at hfar ⊢
  omega

/-- The heads drained before a push are exactly far from the rest of the record, so the pairs
    they record are the pairs of the whole window that can be close. -/
theorem drainProximityWindow_allPairs (x : String × ℕ) (rest : List (String × ℕ)) :
    ∀ (window : List (String × ℕ)) (map : WordPairProximity),
      Increasing (window ++ x :: rest) →
        insertAll (drainProximityWindow x.2 window map).2
            (allPairs ((drainProximityWindow x.2 window map).1 ++ x :: rest)) =
          insertAll map (allPairs (window ++ x :: rest))
  | [], _, _ => rfl
  | head :: window, map, hinc => by
    have hinc' : Increasing (window ++ x :: rest) := (List.pairwise_cons.1 hinc).2
    rw [drainProximityWindow]
    split
    · next hfar =>
      have hhead := (List.pairwise_cons.1 hinc).1
      have hx : ∀ y ∈ rest, x.2 < y.2 :=
        (List.pairwise_cons.1 (List.pairwise_append.1 hinc').2.1).1
      rw [drainProximityWindow_allPairs x rest window _ hinc', List.cons_append, allPairs,
        pairsOf, List.map_append, ← pairsOf, ← pairsOf, insertAll_append, insertAll_append,
        insertAll_of_far (far_of_increasing (hhead x (by simp)) hx hfar),
        wordPositionsIntoWordPairProximity_eq]
    · rfl

theorem pushWordPositions_allPairs :
    ∀ (positions : List (ℕ × String)) (window : List (String × ℕ))
      (map : WordPairProximity), Increasing (window ++ positions.map Prod.swap) →
        insertAll (pushWordPositions window map positions).2
            (allPairs (pushWordPositions window map positions).1) =
          insertAll map (allPairs (window ++ positions.map Prod.swap))
  | [], window, map, _ => by simp [pushWordPositions]
  | (position, word) :: positions, window, map, hinc => by
    have hsuffix := drainProximityWindow_suffix position window map
    have hinc' : Increasing ((drainProximityWindow position window map).1 ++ [(word, position)] ++
        positions.map Prod.swap) := by
      rw [List.append_assoc]
      exact hinc.sublist ((hsuffix.sublist.append (List.Sublist.refl _)))
    rw [pushWordPositions, pushWordPositions_allPairs positions _ _ hinc', List.append_assoc,
      List.singleton_append]
    exact drainProximityWindow_allPairs (word, position) _ window map hinc

def sidePairs (enabled : Bool) (side : Option (List (ℕ × String))) :
    List ((String × String) × ℕ) :=
  if enabled then allPairs ((side.getD []).map Prod.swap) else []

theorem extractSide_window (enabled : Bool) (side : Option (List (ℕ × String)))
    (map : WordPairProximity) : (extractSide enabled side [] map).1 = [] := by
  unfold extractSide
  split
  · split
    · exact congrArg Prod.fst (drainWordPositions_eq _ _)
    · rfl
  · rfl

theorem extractSide_map (enabled : Bool) (side : Option (List (ℕ × String)))
    (hinc : Increasing ((side.getD []).map Prod.swap)) (map : WordPairProximity) :
    (extractSide enabled side [] map).2 = insertAll map (sidePairs enabled side) := by
  unfold extractSide sidePairs
  split
  · split
    · next positions =>
      have hpush := pushWordPositions_allPairs positions [] map hinc
      revert hpush
      rcases pushWordPositions [] map positions with ⟨window, map'⟩
      intro hpush
      exact (congrArg Prod.snd (drainWordPositions_eq window map')).trans hpush
    · rfl
  · rfl

/-! ## The map the window builds -/

def closeValues (pair : String × String) (items : List ((String × String) × ℕ)) : List ℕ :=
  items.filterMap fun item =>
    if item.1 = pair ∧ 0 < item.2 ∧ item.2 < maxDistance then some item.2 else none

theorem lookup_insertAll (pair : String × String) :
    ∀ (items : List ((String × String) × ℕ)) (map : WordPairProximity),
      ((insertAll map items).lookup pair).map Proximity.val =
        (((map.lookup pair).map Proximity.val).toList ++ closeValues pair items).min?
  | [], map => by
    show (map.lookup pair).map _ = _
    cases map.lookup pair <;> rfl
  | (k, v) :: items, map => by
    show ((insertAll (insertIfClose map k v) items).lookup pair).map _ = _
    rw [lookup_insertAll pair items]
    unfold insertIfClose closeValues
    by_cases hv : 0 < v ∧ v < maxDistance
    · by_cases hk : k = pair
      · subst hk
        simp only [hv, dite_true, insertMin, AList.lookup_insert, and_self, if_true,
          List.filterMap_cons]
        cases map.lookup k with
        | none => rfl
        | some q =>
          dsimp only
          rw [Option.map_some', Proximity.val_cmpMin]
          rfl
      · simp [hv, hk, insertMin, AList.lookup_insert_ne (Ne.symm hk)]
    · simp [hv]

def occurrences (positions : List (ℕ × String)) (pair : String × String) : List ℕ :=
  positions.flatMap fun a => positions.filterMap fun b =>
    if a.2 = pair.1 ∧ b.2 = pair.2 ∧ a.1 < b.1 then some (indexProximity a.1 b.1) else none

/-- The map the window loop is meant to build, in the words of its contract: for each pair the
    least `index_proximity(p1, p2)` over every record with `w1` at `p1` and `w2` at `p2`,
    `p1 < p2`, kept when it lies in `1..MAX_DISTANCE`. -/
def naiveWordPairProximity (records : List (List (ℕ × String))) (pair : String × String) :
    Option ℕ :=
  match (records.flatMap fun positions => occurrences positions pair).min? with
  | some prox => if 1 ≤ prox ∧ prox < maxDistance then some prox else none
  | none => none

theorem naiveWordPairProximity_eq_some {records : List (List (ℕ × String))}
    {pair : String × String} {p : ℕ} :
    naiveWordPairProximity records pair = some p ↔
      1 ≤ p ∧ p < maxDistance ∧ p ∈ records.flatMap (occurrences · pair) ∧
        ∀ q ∈ records.flatMap (occurrences · pair), p ≤ q := by
  unfold naiveWordPairProximity
  cases hmin : (records.flatMap fun positions => occurrences positions pair).min? with
  | none =>
    rw [List.min?_eq_none_iff] at hmin
    simp [hmin]
  | some m =>
    obtain ⟨hm, hle⟩ := List.min?_eq_some_iff'.1 hmin
    have hleast : ∀ {q}, q ∈ records.flatMap (occurrences · pair) →
        (∀ q' ∈ records.flatMap (occurrences · pair), q ≤ q') → q = m :=
      fun hq hq' => le_antisymm (hq' m hm) (hle _ hq)
    dsimp only
    split
    · next hbounds =>
      rw [Option.some.injEq]
      exact ⟨by rintro rfl; exact ⟨hbounds.1, hbounds.2, hm, hle⟩,
        fun ⟨_, _, hp, hp'⟩ => (hleast hp hp').symm⟩
    · next hbounds =>
      exact ⟨nofun, fun ⟨h₁, h₂, hp, hp'⟩ => absurd (hleast hp hp' ▸ ⟨h₁, h₂⟩) hbounds⟩

theorem mem_occurrences {positions : List (ℕ × String)} {pair : String × String} {v : ℕ} :
    v ∈ occurrences positions pair ↔ ∃ a ∈ positions, ∃ b ∈ positions,
      a.2 = pair.1 ∧ b.2 = pair.2 ∧ a.1 < b.1 ∧ indexProximity a.1 b.1 = v := by
  simp [occurrences, and_assoc]

theorem indexProximity_bounds {p₁ p₂ : ℕ} (h : p₁ < p₂) :
    1 ≤ indexProximity p₁ p₂ ∧ indexProximity p₁ p₂ ≤ maxDistance := by
  have := maxDistance_pos
  unfold indexProximity
  omega

theorem mem_allPairs {window : List (String × ℕ)} (hinc : Increasing window)
    {item : (String × String) × ℕ} :
    item ∈ allPairs window ↔ ∃ a ∈ window, ∃ b ∈ window, a.2 < b.2 ∧
      ((a.1, b.1), indexProximity a.2 b.2) = item := by
  induction window with
  | nil => simp [allPairs]
  | cons head rest ih =>
    obtain ⟨hhead, hrest⟩ := List.pairwise_cons.1 hinc
    simp only [allPairs, pairsOf, List.mem_append, List.mem_map, ih hrest, List.mem_cons]
    constructor
    · rintro (⟨b, hb, rfl⟩ | ⟨a, ha, b, hb, hab, rfl⟩)
      · exact ⟨head, .inl rfl, b, .inr hb, hhead b hb, rfl⟩
      · exact ⟨a, .inr ha, b, .inr hb, hab, rfl⟩
    · rintro ⟨a, rfl | ha, b, rfl | hb, hab, rfl⟩
      · exact absurd hab (lt_irrefl _)
      · exact .inl ⟨b, hb, rfl⟩
      · exact absurd (hhead a ha) (not_lt.2 hab.le)
      · exact .inr ⟨a, ha, b, hb, hab, rfl⟩

theorem mem_closeValues_allPairs {positions : List (ℕ × String)}
    (hinc : Increasing (positions.map Prod.swap)) {pair : String × String} {v : ℕ} :
    v ∈ closeValues pair (allPairs (positions.map Prod.swap)) ↔
      v ∈ occurrences positions pair ∧ v < maxDistance := by
  simp only [closeValues, List.mem_filterMap, mem_allPairs hinc, List.mem_map, mem_occurrences,
    Option.ite_none_right_eq_some, Option.some.injEq]
  constructor
  · rintro ⟨_, ⟨_, ⟨a, ha, rfl⟩, _, ⟨b, hb, rfl⟩, hab, rfl⟩, ⟨rfl, -, hlt⟩, rfl⟩
    exact ⟨⟨a, ha, b, hb, rfl, rfl, hab, rfl⟩, hlt⟩
  · rintro ⟨⟨a, ha, b, hb, h₁, h₂, hab, rfl⟩, hlt⟩
    exact ⟨_, ⟨a.swap, ⟨a, ha, rfl⟩, b.swap, ⟨b, hb, rfl⟩, hab, rfl⟩,
      ⟨Prod.ext h₁ h₂, (indexProximity_bounds hab).1, hlt⟩, rfl⟩

theorem clamped_min?_eq {values : List ℕ} (h : ∀ v ∈ values, 1 ≤ v ∧ v ≤ maxDistance) :
    (match values.min? with
      | some prox => if 1 ≤ prox ∧ prox < maxDistance then some prox else none
      | none => none) = (values.filter (· < maxDistance)).min? := by
  cases hmin : values.min? with
  | none =>
    rw [List.min?_eq_none_iff] at hmin
    simp [hmin]
  | some m =>
    obtain ⟨hm, hle⟩ := List.min?_eq_some_iff'.1 hmin
    dsimp only
    by_cases hlt : m < maxDistance
    · rw [if_pos ⟨(h m hm).1, hlt⟩, eq_comm, List.min?_eq_some_iff']
      exact ⟨List.mem_filter.2 ⟨hm, by simpa using hlt⟩, fun b hb => hle b (List.mem_filter.1 hb).1⟩
    · rw [if_neg (fun hc => hlt hc.2), eq_comm, List.min?_eq_none_iff,
        List.filter_eq_nil_iff]
      exact fun v hv hvlt => hlt (lt_of_le_of_lt (hle v hv) (by simpa using hvlt))

theorem lookup_allPairs_eq_naive (records : List (List (ℕ × String)))
    (hinc : ∀ positions ∈ records, Increasing (positions.map Prod.swap)) (pair : String × String) :
    ((insertAll ∅ (records.flatMap fun positions => allPairs (positions.map Prod.swap))).lookup
        pair).map Proximity.val = naiveWordPairProximity records pair := by
  rw [lookup_insertAll, AList.lookup_empty, naiveWordPairProximity, clamped_min?_eq]
  · refine min?_congr fun v => ?_
    simp only [Option.map_none', Option.toList_none, List.nil_append, closeValues,
      List.filterMap_flatMap, List.mem_flatMap, List.mem_filter, decide_eq_true_eq]
    constructor
    · rintro ⟨positions, hp, hv⟩
      obtain ⟨hocc, hlt⟩ := (mem_closeValues_allPairs (hinc positions hp)).1 hv
      exact ⟨⟨positions, hp, hocc⟩, hlt⟩
    · rintro ⟨⟨positions, hp, hocc⟩, hlt⟩
      exact ⟨positions, hp, (mem_closeValues_allPairs (hinc positions hp)).2 ⟨hocc, hlt⟩⟩
  · intro v hv
    obtain ⟨positions, -, hocc⟩ := List.mem_flatMap.1 hv
    obtain ⟨a, -, b, -, -, -, hab, rfl⟩ := mem_occurrences.1 hocc
    exact indexProximity_bounds hab

end Window

end MilliCore.Extract
