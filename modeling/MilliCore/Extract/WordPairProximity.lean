import MilliCore.Extract.Window
import MilliCore.Utf8
import Mathlib.Data.List.FinRange
import Mathlib.Data.List.Sort

set_option autoImplicit false

namespace MilliCore.Extract
open MilliCore.Store

/-! ## The extractor -/

def InnerIndexSettingsDiff.anyDeletion (diff : InnerIndexSettingsDiff) : Bool :=
  decide (diff.old.proximityPrecision = .byWord)

def InnerIndexSettingsDiff.anyAddition (diff : InnerIndexSettingsDiff) : Bool :=
  decide (diff.new.proximityPrecision = .byWord)

/-- Modelled from the spec (§4.7): `reindex_proximities`, which fails only when the precision is
    unchanged and not by word. -/
def InnerIndexSettingsDiff.reindexProximities (diff : InnerIndexSettingsDiff) : Bool :=
  decide (diff.old.proximityPrecision ≠ diff.new.proximityPrecision) ||
    decide (diff.old.proximityPrecision = .byWord)

/-- The key `[prox, w1, 0, w2]` of a word pair: the proximity byte, then the bytes of `w1`, a nul
    byte and the bytes of `w2`, kept as the string those bytes encode. -/
def pairKey (prox : ℕ) (pair : String × String) : ℕ × String :=
  (prox, pair.1 ++ "\x00" ++ pair.2)

/-- The bytes of a key `[prox, w1, 0, w2]`: the proximity byte (`prox as u8`, the proximity itself,
    as it is below `MAX_DISTANCE`), then the bytes of `w1`, the nul byte and the bytes of `w2`. -/
def pairKeyBytes (key : ℕ × String) : List ℕ :=
  key.1 :: Utf8.asBytes key.2

theorem pairKey_eq_pairKey {p q : ℕ} {pair other : String × String} (h₁ : '\x00' ∉ pair.1.data)
    (h₂ : '\x00' ∉ pair.2.data) : pairKey q other = pairKey p pair ↔ q = p ∧ other = pair := by
  obtain ⟨⟨v₁⟩, ⟨v₂⟩⟩ := other
  obtain ⟨⟨w₁⟩, ⟨w₂⟩⟩ := pair
  have hdata : ∀ s t : List Char, String.mk s ++ "\x00" ++ String.mk t = ⟨s ++ '\x00' :: t⟩ :=
    fun _ _ => by simp [String.ext_iff]
  simp only [pairKey, Prod.mk.injEq, hdata, String.ext_iff]
  rw [@eq_comm _ (v₁ ++ _), List.append_cons_inj_of_not_mem h₁ h₂]
  simp only [true_and, @eq_comm _ w₁, @eq_comm _ w₂]

theorem documentId_le_antisymm {a b : DocumentId} (hab : a ≤ b) (hba : b ≤ a) : a = b :=
  UInt32.eq_of_toBitVec_eq (BitVec.le_antisymm hab hba)

theorem increasing_swap {positions : List (ℕ × String)}
    (h : (positions.map Prod.fst).Sorted (· < ·)) : Increasing (positions.map Prod.swap) := by
  unfold Increasing
  rw [List.pairwise_map]
  exact List.pairwise_map.1 h

section Extractor
variable [MaxDistance]

abbrev PairSorters := Fin (maxDistance - 1) → Sorter (ℕ × String)

def Proximity.sorterIndex (prox : Proximity) : Fin (maxDistance - 1) :=
  ⟨prox.val - 1, by have := prox.pos; have := prox.lt; omega⟩

def PairSorters.insert (sorters : PairSorters) (prox : Proximity)
    (entry : (ℕ × String) × KvDelAdd RoaringBitmap) : PairSorters :=
  Function.update sorters prox.sorterIndex (sorters prox.sorterIndex ++ [entry])

/-- `document_word_positions_into_sorter`: each element of the merge join of the two maps,
    compared on whole `((w1, w2), prox)` entries, goes to the sorter of its proximity under the key
    `[prox, w1, 0, w2]`. -/
def documentWordPositionsIntoSorter (documentId : DocumentId) (del add : WordPairProximity)
    (sorters : PairSorters) : PairSorters :=
  (mergeJoinBy del.entries add.entries).foldl (fun sorters eob =>
    sorters.insert eob.item.2 (pairKey eob.item.2.val eob.item.1, eob.delAddValue documentId))
    sorters

/-- The variables of the loop over the records of `extract_word_pair_proximity_docids`. -/
structure ExtractorState where
  delWordPositions : List (String × ℕ)
  addWordPositions : List (String × ℕ)
  delWordPairProximity : WordPairProximity
  addWordPairProximity : WordPairProximity
  currentDocumentId : Option DocumentId
  sorters : PairSorters

def ExtractorState.init : ExtractorState :=
  ⟨[], [], ∅, ∅, none, fun _ => []⟩

/-- "if we change document, we fill the sorter": the maps of the document left go to the sorters,
    then are cleared. -/
def ExtractorState.beforeRecord (state : ExtractorState) (documentId : DocumentId) :
    ExtractorState :=
  match state.currentDocumentId with
  | some id =>
    if id ≠ documentId then
      { state with
        sorters := documentWordPositionsIntoSorter id state.delWordPairProximity
          state.addWordPairProximity state.sorters
        delWordPairProximity := ∅
        addWordPairProximity := ∅ }
    else state
  | none => state

def ExtractorState.step (diff : InnerIndexSettingsDiff) (state : ExtractorState)
    (record : Record) : ExtractorState :=
  let state := state.beforeRecord record.documentId
  let del := extractSide diff.anyDeletion record.value.deletion state.delWordPositions
    state.delWordPairProximity
  let add := extractSide diff.anyAddition record.value.addition state.addWordPositions
    state.addWordPairProximity
  { delWordPositions := del.1
    addWordPositions := add.1
    delWordPairProximity := del.2
    addWordPairProximity := add.2
    currentDocumentId := some record.documentId
    sorters := state.sorters }

def ExtractorState.finalSorters (state : ExtractorState) : PairSorters :=
  match state.currentDocumentId with
  | some documentId =>
    documentWordPositionsIntoSorter documentId state.delWordPairProximity
      state.addWordPairProximity state.sorters
  | none => state.sorters

/-- `extract_word_pair_proximity_docids`: nothing on a settings update that keeps the pairs,
    else the loop over the records, the last flush, and the sorters written one after the other. -/
def extractWordPairProximityDocids (diff : InnerIndexSettingsDiff) (stream : List Record) :
    Sorter (ℕ × String) :=
  if diff.settingsUpdateOnly && !diff.reindexProximities then []
  else
    let sorters := (stream.foldl (ExtractorState.step diff) ExtractorState.init).finalSorters
    (List.finRange (maxDistance - 1)).flatMap fun i => (sorters i).writtenStream pairKeyBytes

/-! ## What the flush writes -/

def pairKeys (map : WordPairProximity) : List (ℕ × String) :=
  map.entries.map fun entry => pairKey entry.2.val entry.1

@[simp] theorem pairKeys_empty : pairKeys ∅ = [] := rfl

theorem pairKey_mem_pairKeys {p : ℕ} {pair : String × String} (h₁ : '\x00' ∉ pair.1.data)
    (h₂ : '\x00' ∉ pair.2.data) {map : WordPairProximity} :
    pairKey p pair ∈ pairKeys map ↔ (map.lookup pair).map Proximity.val = some p := by
  simp only [pairKeys, List.mem_map, pairKey_eq_pairKey h₁ h₂, Option.map_eq_some']
  constructor
  · rintro ⟨⟨_, b⟩, hmem, rfl, rfl⟩
    exact ⟨b, AList.mem_lookup_iff.2 hmem, rfl⟩
  · rintro ⟨b, hmem, rfl⟩
    exact ⟨⟨pair, b⟩, AList.mem_lookup_iff.1 hmem, rfl, rfl⟩

def PairSorters.Holds (sorters : PairSorters) (side : DelAdd) (key : ℕ × String)
    (d : DocumentId) : Prop :=
  ∃ i, (sorters i).Holds side key d

section Flush
variable {side : DelAdd} {key : ℕ × String} {d : DocumentId}

theorem PairSorters.holds_insert {sorters : PairSorters} {prox : Proximity}
    {entry : (ℕ × String) × KvDelAdd RoaringBitmap} :
    (sorters.insert prox entry).Holds side key d ↔
      sorters.Holds side key d ∨ Sorter.Holds [entry] side key d := by
  simp only [PairSorters.Holds, PairSorters.insert]
  constructor
  · rintro ⟨i, hi⟩
    by_cases h : i = prox.sorterIndex
    · subst h
      rw [Function.update_same, Sorter.holds_append] at hi
      exact hi.imp (⟨_, ·⟩) id
    · rw [Function.update_noteq h] at hi
      exact .inl ⟨i, hi⟩
  · rintro (⟨i, hi⟩ | h)
    · by_cases hidx : i = prox.sorterIndex
      · subst hidx
        exact ⟨_, by rw [Function.update_same, Sorter.holds_append]; exact .inl hi⟩
      · exact ⟨i, by rw [Function.update_noteq hidx]; exact hi⟩
    · exact ⟨prox.sorterIndex, by rw [Function.update_same, Sorter.holds_append]; exact .inr h⟩

theorem documentWordPositionsIntoSorter_holds {documentId : DocumentId}
    {del add : WordPairProximity} {sorters : PairSorters} :
    (documentWordPositionsIntoSorter documentId del add sorters).Holds side key d ↔
      sorters.Holds side key d ∨ (key ∈ pairKeys (side.pick del add) ∧ d = documentId) := by
  have hfold : ∀ (eobs : List (EitherOrBoth (Σ _ : String × String, Proximity)
      (Σ _ : String × String, Proximity))) (sorters : PairSorters),
      (eobs.foldl (fun sorters eob => sorters.insert eob.item.2
        (pairKey eob.item.2.val eob.item.1, eob.delAddValue documentId)) sorters).Holds side key d ↔
        sorters.Holds side key d ∨ ∃ eob ∈ eobs,
          pairKey eob.item.2.val eob.item.1 = key ∧
            d ∈ ((eob.delAddValue documentId).get side).getD ∅ := by
    intro eobs
    induction eobs with
    | nil => simp
    | cons eob eobs ih =>
      intro sorters
      rw [List.foldl_cons, ih, PairSorters.holds_insert, Sorter.holds_singleton]
      simp only [List.mem_cons, exists_eq_or_imp, or_assoc]
  have hentries : side.pick del.entries add.entries = (side.pick del add).entries := by
    cases side <;> rfl
  rw [documentWordPositionsIntoSorter, hfold, pairKeys, List.mem_map]
  refine or_congr_right ⟨fun ⟨eob, heob, hkey, hd⟩ => ?_, fun ⟨⟨e, he, hkey⟩, hd⟩ => ?_⟩
  · obtain ⟨he, hd⟩ := (mem_mergeJoinBy side).1 ⟨eob, heob, rfl, hd⟩
    exact ⟨⟨eob.item, hentries ▸ he, hkey⟩, hd⟩
  · obtain ⟨eob, heob, rfl, hd⟩ := (mem_mergeJoinBy side).2 ⟨hentries ▸ he, hd⟩
    exact ⟨eob, heob, hkey, hd⟩

end Flush

/-! ## The loop over the records -/

def ExtractorState.wordPositions (state : ExtractorState) (side : DelAdd) : List (String × ℕ) :=
  side.pick state.delWordPositions state.addWordPositions

def ExtractorState.wordPairProximity (state : ExtractorState) (side : DelAdd) :
    WordPairProximity :=
  side.pick state.delWordPairProximity state.addWordPairProximity

def InnerIndexSettingsDiff.enables (diff : InnerIndexSettingsDiff) (side : DelAdd) : Bool :=
  side.pick diff.anyDeletion diff.anyAddition

def sideFold (enabled : Bool) (side : DelAdd) (records : List Record) (map : WordPairProximity) :
    WordPairProximity :=
  records.foldl (fun map record => (extractSide enabled (record.value.get side) [] map).2) map

@[simp] theorem sideFold_nil (enabled : Bool) (side : DelAdd) (map : WordPairProximity) :
    sideFold enabled side [] map = map := rfl

theorem sideFold_cons (enabled : Bool) (side : DelAdd) (record : Record) (records : List Record)
    (map : WordPairProximity) :
    sideFold enabled side (record :: records) map =
      sideFold enabled side records (extractSide enabled (record.value.get side) [] map).2 := rfl

/-- The windows are empty between records, and the maps too before the first one. -/
structure ExtractorState.Clean (state : ExtractorState) : Prop where
  windows : ∀ side, state.wordPositions side = []
  maps : state.currentDocumentId = none → ∀ side, state.wordPairProximity side = ∅

section Loop
variable (diff : InnerIndexSettingsDiff) {state : ExtractorState} {record : Record}
  {side : DelAdd}

theorem ExtractorState.init_clean : ExtractorState.init.Clean :=
  ⟨fun side => by cases side <;> rfl, fun _ side => by cases side <;> rfl⟩

theorem ExtractorState.beforeRecord_wordPositions (documentId : DocumentId) :
    (state.beforeRecord documentId).wordPositions side = state.wordPositions side := by
  unfold ExtractorState.beforeRecord
  split
  · split <;> rfl
  · rfl

theorem ExtractorState.Clean.beforeRecord_wordPairProximity (hclean : state.Clean)
    (documentId : DocumentId) :
    (state.beforeRecord documentId).wordPairProximity side =
      if state.currentDocumentId = some documentId then state.wordPairProximity side else ∅ := by
  unfold ExtractorState.beforeRecord
  split
  · next id hid =>
    by_cases h : id = documentId
    · simp [h, hid]
    · simp only [ne_eq, h, not_false_eq_true, ite_true, hid, Option.some.injEq, ite_false]
      cases side <;> rfl
  · next hnone => simp [hnone, hclean.maps hnone side]

theorem ExtractorState.beforeRecord_sorters_holds {key : ℕ × String} {d : DocumentId}
    (documentId : DocumentId) :
    (state.beforeRecord documentId).sorters.Holds side key d ↔
      state.sorters.Holds side key d ∨ (state.currentDocumentId = some d ∧ d ≠ documentId ∧
        key ∈ pairKeys (state.wordPairProximity side)) := by
  unfold ExtractorState.beforeRecord
  split
  · next c hc =>
    split
    · next hne =>
      rw [documentWordPositionsIntoSorter_holds, hc, Option.some.injEq]
      exact or_congr_right ⟨fun ⟨hk, hdc⟩ => ⟨hdc.symm, hdc ▸ hne, hk⟩,
        fun ⟨hcd, _, hk⟩ => ⟨hk, hcd.symm⟩⟩
    · next heq =>
      simp only [hc, Option.some.injEq, not_not.1 heq]
      exact (or_iff_left fun ⟨hcd, hne, _⟩ => hne hcd.symm).symm
  · next hc => simp [hc]

@[simp] theorem ExtractorState.step_sorters :
    (state.step diff record).sorters = (state.beforeRecord record.documentId).sorters := rfl

@[simp] theorem ExtractorState.step_currentDocumentId :
    (state.step diff record).currentDocumentId = some record.documentId := rfl

theorem ExtractorState.step_wordPositions :
    (state.step diff record).wordPositions side =
      (extractSide (diff.enables side) (record.value.get side)
        ((state.beforeRecord record.documentId).wordPositions side)
        ((state.beforeRecord record.documentId).wordPairProximity side)).1 := by
  cases side <;> rfl

theorem ExtractorState.step_wordPairProximity :
    (state.step diff record).wordPairProximity side =
      (extractSide (diff.enables side) (record.value.get side)
        ((state.beforeRecord record.documentId).wordPositions side)
        ((state.beforeRecord record.documentId).wordPairProximity side)).2 := by
  cases side <;> rfl

theorem ExtractorState.Clean.step (hclean : state.Clean) : (state.step diff record).Clean where
  windows side := by
    rw [ExtractorState.step_wordPositions, ExtractorState.beforeRecord_wordPositions,
      hclean.windows side]
    exact extractSide_window _ _ _
  maps h := nomatch h

theorem ExtractorState.Clean.foldl (hclean : state.Clean) (records : List Record) :
    (records.foldl (ExtractorState.step diff) state).Clean := by
  induction records generalizing state with
  | nil => exact hclean
  | cons record records ih => exact ih (hclean.step diff)

theorem ExtractorState.Clean.step_wordPairProximity' (hclean : state.Clean) :
    (state.step diff record).wordPairProximity side =
      (extractSide (diff.enables side) (record.value.get side) []
        (if state.currentDocumentId = some record.documentId then state.wordPairProximity side
          else ∅)).2 := by
  rw [ExtractorState.step_wordPairProximity, ExtractorState.beforeRecord_wordPositions,
    hclean.windows side, hclean.beforeRecord_wordPairProximity]

theorem ExtractorState.foldl_currentDocumentId (records : List Record) (state : ExtractorState) :
    (records.foldl (ExtractorState.step diff) state).currentDocumentId =
      (records.getLast?.map Record.documentId).or state.currentDocumentId := by
  induction records generalizing state with
  | nil => rfl
  | cons record records ih =>
    rw [List.foldl_cons, ih, List.getLast?_cons]
    cases records.getLast? <;> rfl

theorem ExtractorState.Clean.foldl_wordPairProximity (d : DocumentId) :
    ∀ (records : List Record) (state : ExtractorState), state.Clean →
      state.currentDocumentId = some d → (∀ r ∈ records, r.documentId = d) →
        (records.foldl (ExtractorState.step diff) state).wordPairProximity side =
          sideFold (diff.enables side) side records (state.wordPairProximity side)
  | [], _, _, _, _ => rfl
  | record :: records, state, hclean, hcur, hdoc => by
    have hrecord : record.documentId = d := hdoc record (List.mem_cons_self _ _)
    rw [List.foldl_cons, ExtractorState.Clean.foldl_wordPairProximity d records _ (hclean.step diff)
      (by rw [← hrecord]; rfl) (fun r hr => hdoc r (List.mem_cons_of_mem _ hr)),
      hclean.step_wordPairProximity', if_pos (hrecord ▸ hcur)]
    rfl

theorem ExtractorState.Clean.finalSorters_holds (key : ℕ × String) (d : DocumentId) :
    ∀ (rest : List Record) (state : ExtractorState), state.Clean →
      (rest.map Record.documentId).Sorted (· ≤ ·) →
      (∀ c, state.currentDocumentId = some c → ∀ r ∈ rest, c ≤ r.documentId) →
      ((rest.foldl (ExtractorState.step diff) state).finalSorters.Holds side key d ↔
        state.sorters.Holds side key d ∨
          key ∈ pairKeys (sideFold (diff.enables side) side (rest.filter (·.documentId = d))
            (if state.currentDocumentId = some d then state.wordPairProximity side else ∅)))
  | [], state, _, _, _ => by
    rw [List.foldl_nil]
    unfold ExtractorState.finalSorters
    split
    · next c hc =>
      rw [documentWordPositionsIntoSorter_holds, hc]
      by_cases h : c = d
      · simp [h, ExtractorState.wordPairProximity]
      · simp [h, Ne.symm h]
    · next hc => simp [hc]
  | record :: rest, state, hclean, hsorted, hle => by
    obtain ⟨hfirst, hrest⟩ := List.sorted_cons.1 hsorted
    rw [List.foldl_cons, ExtractorState.Clean.finalSorters_holds key d rest _ (hclean.step diff)
        hrest (fun c hc r hr => by cases hc; exact hfirst _ (List.mem_map_of_mem _ hr)),
      ExtractorState.step_sorters, ExtractorState.beforeRecord_sorters_holds,
      ExtractorState.step_currentDocumentId, hclean.step_wordPairProximity']
    by_cases hrd : record.documentId = d
    · subst hrd
      rw [List.filter_cons_of_pos (by simp), if_pos rfl, sideFold_cons]
      simp
    · rw [List.filter_cons_of_neg (by simpa using hrd), if_neg (by simpa using hrd)]
      by_cases hcur : state.currentDocumentId = some d
      · have hnil : rest.filter (·.documentId = d) = [] := List.filter_eq_nil_iff.2 fun r hr hrd' => by
          have hrd' : r.documentId = d := of_decide_eq_true hrd'
          exact hrd (documentId_le_antisymm (hrd' ▸ hfirst _ (List.mem_map_of_mem _ hr))
            (hle d hcur record (List.mem_cons_self _ _)))
        simp [hcur, hnil, Ne.symm hrd]
      · simp [hcur]

/-- On a stream sorted by document id, the extractor's output names a document on a side of
    exactly the keys of the map that side's records of the document build, unless a settings
    update keeps the pairs and nothing is written. -/
theorem extractWordPairProximityDocids_holds {stream : List Record}
    (hsorted : (stream.map Record.documentId).Sorted (· ≤ ·)) (key : ℕ × String) (d : DocumentId) :
    (extractWordPairProximityDocids diff stream).Holds side key d ↔
      (diff.settingsUpdateOnly && !diff.reindexProximities) = false ∧
        key ∈ pairKeys (sideFold (diff.enables side) side (stream.filter (·.documentId = d)) ∅) := by
  unfold extractWordPairProximityDocids
  split
  · next h => simp [h, Sorter.Holds]
  · next h =>
    simp only [Sorter.holds_flatMap, List.mem_finRange, true_and, writtenStream_holds]
    rw [show (∃ i, _) ↔ PairSorters.Holds _ side key d from Iff.rfl,
      ExtractorState.init_clean.finalSorters_holds diff key d stream _ hsorted nofun]
    simp [h, ExtractorState.init, PairSorters.Holds, Sorter.Holds]

end Loop

theorem sideFold_eq (enabled : Bool) (side : DelAdd) :
    ∀ (records : List Record) (map : WordPairProximity),
      (∀ r ∈ records, Increasing (((r.value.get side).getD []).map Prod.swap)) →
        sideFold enabled side records map =
          insertAll map (records.flatMap fun r => sidePairs enabled (r.value.get side))
  | [], _, _ => rfl
  | record :: records, map, hinc => by
    rw [sideFold, List.foldl_cons, ← sideFold, extractSide_map _ _ (hinc record (by simp)),
      sideFold_eq enabled side records _ (fun r hr => hinc r (List.mem_cons_of_mem _ hr)),
      List.flatMap_cons, insertAll_append]

theorem lookup_sideFold_eq_naive {side : DelAdd} {records : List Record}
    (hinc : ∀ r ∈ records, (((r.value.get side).getD []).map Prod.fst).Sorted (· < ·))
    (pair : String × String) :
    ((sideFold true side records ∅).lookup pair).map Proximity.val =
      naiveWordPairProximity (records.map fun r => (r.value.get side).getD []) pair := by
  rw [sideFold_eq true side records ∅ fun r hr => increasing_swap (hinc r hr),
    ← lookup_allPairs_eq_naive _ (by simpa using fun r hr => increasing_swap (hinc r hr))]
  simp [sidePairs, List.flatMap_map]

theorem pairKey_mem_sideFold {enabled : Bool} {side : DelAdd} {records : List Record} {p : ℕ}
    {pair : String × String} (h₁ : '\x00' ∉ pair.1.data) (h₂ : '\x00' ∉ pair.2.data)
    (hinc : ∀ r ∈ records, (((r.value.get side).getD []).map Prod.fst).Sorted (· < ·)) :
    pairKey p pair ∈ pairKeys (sideFold enabled side records ∅) ↔
      enabled = true ∧
        naiveWordPairProximity (records.map fun r => (r.value.get side).getD []) pair = some p := by
  cases enabled
  · rw [sideFold_eq false side records ∅ fun r hr => increasing_swap (hinc r hr)]
    simp [sidePairs, insertAll, List.flatMap_eq_nil_iff.2]
  · rw [pairKey_mem_pairKeys h₁ h₂, lookup_sideFold_eq_naive hinc]
    exact (and_iff_right rfl).symm

/-- The map the loop holds for a side, after the records of a document that follow another
    document (or none), is the naive all-pairs map of those records: no close pair is lost when
    a head is evicted early, and no pair spans two records or two documents. -/
theorem wordPairProximity_eq_naive (diff : InnerIndexSettingsDiff) (before records : List Record)
    (d : DocumentId) (hbefore : ∀ r ∈ before.getLast?, r.documentId ≠ d) (hne : records ≠ [])
    (hdoc : ∀ r ∈ records, r.documentId = d)
    (hinc : ∀ r ∈ records, ((r.value.deletion.getD []).map Prod.fst).Sorted (· < ·) ∧
      ((r.value.addition.getD []).map Prod.fst).Sorted (· < ·))
    (side : DelAdd) (henabled : diff.enables side = true) (pair : String × String) :
    ((((before ++ records).foldl (ExtractorState.step diff) .init).wordPairProximity side).lookup
        pair).map Proximity.val =
      naiveWordPairProximity (records.map fun r => (r.value.get side).getD []) pair := by
  obtain ⟨record, records, rfl⟩ := List.exists_cons_of_ne_nil hne
  have hclean := ExtractorState.init_clean.foldl diff before
  have hrecord : record.documentId = d := hdoc record (List.mem_cons_self _ _)
  have hcur : (before.foldl (ExtractorState.step diff) .init).currentDocumentId ≠
      some record.documentId := by
    rw [ExtractorState.foldl_currentDocumentId]
    cases hlast : before.getLast? with
    | none => exact nofun
    | some last => simpa [hrecord] using hbefore last (by simp [hlast])
  rw [List.foldl_append, List.foldl_cons, (hclean.step diff).foldl_wordPairProximity diff d records
      _ (by rw [← hrecord]; rfl) (fun r hr => hdoc r (List.mem_cons_of_mem _ hr)),
    hclean.step_wordPairProximity', if_neg hcur, ← sideFold_cons, henabled]
  exact lookup_sideFold_eq_naive (fun r hr => by cases side; exacts [(hinc r hr).1, (hinc r hr).2])
    pair

end Extractor

/-- The spec's `MAX_DISTANCE`, under which the examples run. -/
instance specMaxDistance : MaxDistance := ⟨8, by decide, by decide⟩

theorem wordPairProximity_eq_naive_of_one_field :
    (((([] ++ ([⟨0, 0, ⟨none, some [(0, "a"), (2, "b"), (9, "a")]⟩⟩] : List Record)).foldl
        (ExtractorState.step ⟨⟨∅, ⟨fun _ => false⟩, .byWord⟩, ⟨∅, ⟨fun _ => false⟩, .byWord⟩,
          false⟩) .init).wordPairProximity .addition).lookup ("a", "b")).map Proximity.val =
      naiveWordPairProximity [[(0, "a"), (2, "b"), (9, "a")]] ("a", "b") :=
  wordPairProximity_eq_naive _ [] [⟨0, 0, ⟨none, some [(0, "a"), (2, "b"), (9, "a")]⟩⟩] 0
    nofun (by simp) (by simp) (by decide) .addition (by decide) ("a", "b")

end MilliCore.Extract
