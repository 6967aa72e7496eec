import MilliCore.Extract.Basic

set_option autoImplicit false

namespace MilliCore.Extract
open MilliCore.Store

/-! ## The extractor -/

/-- The words of one side of a record, inserted one by one into a `BTreeSet` (kept as a list
    without repetition). -/
def sideWords (side : Option (List (ℕ × String))) : List String :=
  match side with
  | some positions => positions.foldl (fun words (_, word) => words.insert word) []
  | none => []

def wordsIntoSorter (documentId : DocumentId) (fid : FieldId) (delWords addWords : List String) :
    Sorter (String × FieldId) :=
  (mergeJoinBy delWords addWords).map fun eob => ((eob.item, fid), eob.delAddValue documentId)

/-- The first loop of `extract_word_docids`: the words of each record, gathered per side, go to
    the `word_fid_docids` sorter. -/
def wordFidDocidsSorter (stream : List Record) : Sorter (String × FieldId) :=
  stream.flatMap fun record =>
    wordsIntoSorter record.documentId record.fid (sideWords record.value.deletion)
      (sideWords record.value.addition)

/-- Modelled from the spec (§4.6): `is_noop_del_add_obkv`, a value whose deletion and addition
    are the same. -/
def isNoopDelAddObkv (value : KvDelAdd RoaringBitmap) : Bool :=
  decide (value.deletion = value.addition)

structure WordDocidsOutput where
  wordDocids : Sorter String
  exactWordDocids : Sorter String
  wordFidDocids : Sorter (String × FieldId)

def WordDocidsOutput.append (a b : WordDocidsOutput) : WordDocidsOutput :=
  ⟨a.wordDocids ++ b.wordDocids, a.exactWordDocids ++ b.exactWordDocids,
    a.wordFidDocids ++ b.wordFidDocids⟩

/-- What one turn of the loop over the merged `word_fid_docids` stream inserts under the word into
    the sorter of the words of exactness `exact`: the record's deletion when the old settings give
    the word that exactness, its addition when the new ones do. -/
def routedInserts (diff : InnerIndexSettingsDiff) (exact : Bool)
    (entry : (String × FieldId) × KvDelAdd RoaringBitmap) : Sorter String :=
  let ((w, fid), obkv) := entry
  (if diff.old.isExact w fid = exact then
    (obkv.deletion.map fun value => (w, ⟨some value, none⟩)).toList else []) ++
  (if diff.new.isExact w fid = exact then
    (obkv.addition.map fun value => (w, ⟨none, some value⟩)).toList else [])

def mergedRecordInserts (diff : InnerIndexSettingsDiff)
    (entry : (String × FieldId) × KvDelAdd RoaringBitmap) : WordDocidsOutput :=
  { wordDocids := routedInserts diff false entry
    exactWordDocids := routedInserts diff true entry
    wordFidDocids := if isNoopDelAddObkv entry.2 then [] else [entry] }

def extractWordDocids (diff : InnerIndexSettingsDiff) (stream : List Record) : WordDocidsOutput :=
  (wordFidDocidsSorter stream).mergedStream.foldl
    (fun output entry => output.append (mergedRecordInserts diff entry)) ⟨[], [], []⟩

/-! ## What the outputs delete and add -/

theorem mem_foldl_insert (positions : List (ℕ × String)) (acc : List String) (w : String) :
    w ∈ positions.foldl (fun words (_, word) => words.insert word) acc ↔
      w ∈ acc ∨ w ∈ positions.map Prod.snd := by
  induction positions generalizing acc with
  | nil => simp
  | cons p ps ih => simp only [List.foldl_cons, ih, List.mem_insert_iff, List.map_cons,
      List.mem_cons]; tauto

theorem mem_sideWords {side : Option (List (ℕ × String))} {w : String} :
    w ∈ sideWords side ↔ w ∈ (side.getD []).map Prod.snd := by
  cases side <;> simp [sideWords, mem_foldl_insert]

theorem sideWords_get (value : KvDelAdd (List (ℕ × String))) (side : DelAdd) :
    side.pick (sideWords value.deletion) (sideWords value.addition) = sideWords (value.get side) := by
  cases side <;> rfl

theorem wordsIntoSorter_holds {documentId d : DocumentId} {fid f : FieldId}
    {delWords addWords : List String} {side : DelAdd} {w : String} :
    (wordsIntoSorter documentId fid delWords addWords).Holds side (w, f) d ↔
      fid = f ∧ w ∈ side.pick delWords addWords ∧ d = documentId := by
  simp only [Sorter.Holds, wordsIntoSorter, List.mem_map, Prod.mk.injEq]
  constructor
  · rintro ⟨v, ⟨eob, heob, ⟨rfl, rfl⟩, rfl⟩, hd⟩
    exact ⟨rfl, (mem_mergeJoinBy side).1 ⟨eob, heob, rfl, hd⟩⟩
  · rintro ⟨rfl, hw, rfl⟩
    obtain ⟨eob, heob, hitem, hd⟩ := (mem_mergeJoinBy side).2 ⟨hw, rfl⟩
    exact ⟨_, ⟨eob, heob, ⟨hitem, rfl⟩, rfl⟩, hd⟩

theorem wordFidDocidsSorter_holds {stream : List Record} {side : DelAdd} {w : String}
    {f : FieldId} {d : DocumentId} :
    (wordFidDocidsSorter stream).Holds side (w, f) d ↔
      ∃ r ∈ stream, r.documentId = d ∧ r.fid = f ∧ w ∈ ((r.value.get side).getD []).map Prod.snd := by
  simp only [wordFidDocidsSorter, Sorter.holds_flatMap, wordsIntoSorter_holds, sideWords_get,
    mem_sideWords]
  exact exists_congr fun r => and_congr_right fun _ => by tauto

section Outputs
variable (diff : InnerIndexSettingsDiff) (stream : List Record)

theorem extractWordDocids_eq :
    extractWordDocids diff stream =
      ⟨(wordFidDocidsSorter stream).mergedStream.flatMap (routedInserts diff false),
        (wordFidDocidsSorter stream).mergedStream.flatMap (routedInserts diff true),
        (wordFidDocidsSorter stream).mergedStream.flatMap
          fun entry => if isNoopDelAddObkv entry.2 then [] else [entry]⟩ := by
  suffices ∀ (entries : Sorter (String × FieldId)) (output : WordDocidsOutput),
      entries.foldl (fun output entry => output.append (mergedRecordInserts diff entry)) output =
        output.append ⟨entries.flatMap (routedInserts diff false),
          entries.flatMap (routedInserts diff true),
          entries.flatMap fun entry => if isNoopDelAddObkv entry.2 then [] else [entry]⟩ from
    this _ _
  intro entries
  induction entries with
  | nil => intro output; simp [WordDocidsOutput.append]
  | cons e es ih =>
    intro output
    rw [List.foldl_cons, ih]
    simp [WordDocidsOutput.append, mergedRecordInserts]

theorem routedInserts_holds {exact : Bool} {side : DelAdd} {w w' : String} {f : FieldId}
    {obkv : KvDelAdd RoaringBitmap} {d : DocumentId} :
    (routedInserts diff exact ((w', f), obkv)).Holds side w d ↔
      w' = w ∧ (side.pick diff.old diff.new).isExact w' f = exact ∧ d ∈ (obkv.get side).getD ∅ := by
  cases hd : obkv.deletion <;> cases ha : obkv.addition <;> cases side <;>
    simp [routedInserts, Sorter.Holds, KvDelAdd.get, DelAdd.pick, hd, ha, or_and_right, exists_or,
      and_assoc, @eq_comm _ w] <;> tauto

theorem routed_holds {exact : Bool} {side : DelAdd} {w : String} {d : DocumentId} :
    Sorter.Holds ((wordFidDocidsSorter stream).mergedStream.flatMap (routedInserts diff exact))
        side w d ↔
      ∃ f, (side.pick diff.old diff.new).isExact w f = exact ∧
        (wordFidDocidsSorter stream).Holds side (w, f) d := by
  rw [Sorter.holds_flatMap]
  constructor
  · rintro ⟨⟨⟨w', f⟩, merged⟩, hm, h⟩
    obtain ⟨rfl, hexact, hd⟩ := (routedInserts_holds diff).1 h
    obtain ⟨-, rfl⟩ := mem_mergedStream.1 hm
    exact ⟨f, hexact, mem_merged.1 hd⟩
  · rintro ⟨f, hexact, hholds⟩
    obtain ⟨v, hv, -⟩ := id hholds
    exact ⟨((w, f), _), mem_mergedStream.2 ⟨⟨v, hv⟩, rfl⟩,
      (routedInserts_holds diff).2 ⟨rfl, hexact, mem_merged.2 hholds⟩⟩

end Outputs

theorem wordFidWriter_holds {sorter : Sorter (String × FieldId)} {key : String × FieldId}
    {side : DelAdd} {d : DocumentId} :
    Sorter.Holds (sorter.mergedStream.flatMap
        fun entry => if isNoopDelAddObkv entry.2 then [] else [entry]) side key d ↔
      isNoopDelAddObkv (mergeDeladdCboRoaringBitmaps (sorter.valuesOf key)) = false ∧
        sorter.Holds side key d := by
  rw [Sorter.holds_flatMap]
  constructor
  · rintro ⟨⟨k, v⟩, hm, h⟩
    obtain ⟨-, rfl⟩ := mem_mergedStream.1 hm
    split at h
    · simp [Sorter.Holds] at h
    · next hnoop =>
      obtain ⟨rfl, hd⟩ := Sorter.holds_singleton.1 h
      exact ⟨by simpa using hnoop, mem_merged.1 hd⟩
  · rintro ⟨hnoop, hholds⟩
    obtain ⟨v, hv, -⟩ := id hholds
    refine ⟨(key, _), mem_mergedStream.2 ⟨⟨v, hv⟩, rfl⟩, ?_⟩
    rw [if_neg (by simp [hnoop])]
    exact Sorter.holds_singleton.2 ⟨rfl, mem_merged.2 hholds⟩

/-! ## Rebuilding the word databases -/

abbrev WordCorpus := DocumentId → FieldId → Finset String

/-- The stream the caller builds for a set `changed` of documents between an old and a new corpus:
    each record carries the complete old words of its field on its deletion side and the complete
    new ones on its addition side; only documents of `changed` have records, and each field with
    words of such a document has one. A document outside `changed` keeps its words, and the old and
    new settings give each of them the same exactness. Nothing is asked of the stream's order. -/
structure WordChangeStream (diff : InnerIndexSettingsDiff) (old new : WordCorpus)
    (changed : Finset DocumentId) (stream : List Record) : Prop where
  changed_of_mem : ∀ r ∈ stream, r.documentId ∈ changed
  deletion : ∀ r ∈ stream, ∀ w,
    w ∈ (r.value.deletion.getD []).map Prod.snd ↔ w ∈ old r.documentId r.fid
  addition : ∀ r ∈ stream, ∀ w,
    w ∈ (r.value.addition.getD []).map Prod.snd ↔ w ∈ new r.documentId r.fid
  complete : ∀ d ∈ changed, ∀ f w, w ∈ old d f ∨ w ∈ new d f →
    ∃ r ∈ stream, r.documentId = d ∧ r.fid = f
  unchanged : ∀ d ∉ changed, old d = new d
  sameExactness : ∀ d ∉ changed, ∀ f w, w ∈ old d f → diff.old.isExact w f = diff.new.isExact w f

structure WordDocidsIndex where
  wordDocids : String → RoaringBitmap
  exactWordDocids : String → RoaringBitmap
  wordFidDocids : String × FieldId → RoaringBitmap

def WordDocidsIndex.ofExactness (index : WordDocidsIndex) : Bool → String → RoaringBitmap
  | true => index.exactWordDocids
  | false => index.wordDocids

/-- The word databases of a corpus under some settings: `(w, f)` holds the documents with `w` in
    field `f`, and each word database the documents with `w` in a field that gives it its
    exactness. -/
structure WordDocidsIndex.Builds (index : WordDocidsIndex) (corpus : WordCorpus)
    (settings : InnerIndexSettings) : Prop where
  wordFidDocids : ∀ w f d, d ∈ index.wordFidDocids (w, f) ↔ w ∈ corpus d f
  ofExactness : ∀ exact w d,
    d ∈ index.ofExactness exact w ↔ ∃ f, settings.isExact w f = exact ∧ w ∈ corpus d f

def WordDocidsOutput.applyTo (output : WordDocidsOutput) (index : WordDocidsIndex) :
    WordDocidsIndex :=
  ⟨applyMerged output.wordDocids index.wordDocids,
    applyMerged output.exactWordDocids index.exactWordDocids,
    applyMerged output.wordFidDocids index.wordFidDocids⟩

section Rebuild
variable {diff : InnerIndexSettingsDiff} {old new : WordCorpus} {changed : Finset DocumentId}
  {stream : List Record}

theorem WordChangeStream.holds (hstream : WordChangeStream diff old new changed stream)
    {side : DelAdd} {w : String} {f : FieldId} {d : DocumentId} :
    (wordFidDocidsSorter stream).Holds side (w, f) d ↔
      d ∈ changed ∧ w ∈ side.pick old new d f := by
  have hside : ∀ r ∈ stream, ∀ w, w ∈ ((r.value.get side).getD []).map Prod.snd ↔
      w ∈ side.pick old new r.documentId r.fid := by
    cases side
    exacts [hstream.deletion, hstream.addition]
  rw [wordFidDocidsSorter_holds]
  constructor
  · rintro ⟨r, hr, rfl, rfl, hw⟩
    exact ⟨hstream.changed_of_mem r hr, (hside r hr w).1 hw⟩
  · rintro ⟨hd, hw⟩
    obtain ⟨r, hr, rfl, rfl⟩ :=
      hstream.complete d hd f w (by cases side <;> [exact .inl hw; exact .inr hw])
    exact ⟨r, hr, rfl, rfl, (hside r hr w).2 hw⟩

/-- Merging the per-field output rebuilds `word_fid_docids`. A no-op record is not written, and
    none is needed: its deletions and additions name the same changed documents. -/
theorem wordFidDocids_rebuilt (hstream : WordChangeStream diff old new changed stream)
    (index : WordDocidsIndex) (hindex : index.Builds old diff.old) (w : String) (f : FieldId)
    (d : DocumentId) :
    d ∈ applyMerged (extractWordDocids diff stream).wordFidDocids index.wordFidDocids (w, f) ↔
      w ∈ new d f := by
  have hsame : ∀ d, d ∉ changed → (w ∈ old d f ↔ w ∈ new d f) := fun d hd => by
    rw [hstream.unchanged d hd]
  rw [extractWordDocids_eq, mem_applyMerged, hindex.wordFidDocids, wordFidWriter_holds,
    wordFidWriter_holds]
  cases hnoop : isNoopDelAddObkv
      (mergeDeladdCboRoaringBitmaps ((wordFidDocidsSorter stream).valuesOf (w, f)))
  · have hholds : ∀ side d, (wordFidDocidsSorter stream).Holds side (w, f) d ↔
        d ∈ changed ∧ w ∈ side.pick old new d f := fun _ _ => hstream.holds
    simp only [true_and]
    exact rebuilt_of_deladd (hholds .deletion) (hholds .addition) hsame d
  · simp only [Bool.true_eq_false, false_and, not_false_eq_true, and_true, or_false]
    by_cases hd : d ∈ changed
    · have hside : ∀ side, (wordFidDocidsSorter stream).Holds side (w, f) d ↔
          w ∈ side.pick old new d f := fun side => hstream.holds.trans (and_iff_right hd)
      have hsides : (mergeDeladdCboRoaringBitmaps ((wordFidDocidsSorter stream).valuesOf
          (w, f))).get .deletion = (mergeDeladdCboRoaringBitmaps
            ((wordFidDocidsSorter stream).valuesOf (w, f))).get .addition := by
        simpa [isNoopDelAddObkv, KvDelAdd.get] using hnoop
      show w ∈ DelAdd.deletion.pick old new d f ↔ w ∈ DelAdd.addition.pick old new d f
      rw [← hside .deletion, ← hside .addition, ← mem_merged, ← mem_merged, hsides]
    · exact hsame d hd

theorem ofExactness_rebuilt (hstream : WordChangeStream diff old new changed stream)
    (index : WordDocidsIndex) (hindex : index.Builds old diff.old) (exact : Bool) (w : String)
    (d : DocumentId) :
    d ∈ applyMerged ((wordFidDocidsSorter stream).mergedStream.flatMap
        (routedInserts diff exact)) (index.ofExactness exact) w ↔
      ∃ f, diff.new.isExact w f = exact ∧ w ∈ new d f := by
  rw [mem_applyMerged, hindex.ofExactness]
  have hholds : ∀ side d, Sorter.Holds ((wordFidDocidsSorter stream).mergedStream.flatMap
      (routedInserts diff exact)) side w d ↔
        d ∈ changed ∧ ∃ f, (side.pick diff.old diff.new).isExact w f = exact ∧
          w ∈ side.pick old new d f := fun side d => by
    simp only [routed_holds, hstream.holds]
    exact ⟨fun ⟨f, hf, hd, hw⟩ => ⟨hd, f, hf, hw⟩, fun ⟨hd, f, hf, hw⟩ => ⟨f, hf, hd, hw⟩⟩
  have hsame : ∀ d, d ∉ changed → ((∃ f, diff.old.isExact w f = exact ∧ w ∈ old d f) ↔
      ∃ f, diff.new.isExact w f = exact ∧ w ∈ new d f) := fun d hd => by
    rw [← hstream.unchanged d hd]
    exact exists_congr fun f => and_congr_left fun hw => by rw [hstream.sameExactness d hd f w hw]
  exact rebuilt_of_deladd (hholds .deletion) (hholds .addition) hsame d

end Rebuild

/-- Merging the three outputs of `extract_word_docids` into the word databases of the old corpus
    under the old settings, deletions then additions, gives the databases of the new corpus under
    the new settings. -/
theorem extractWordDocids_rebuilds_index (diff : InnerIndexSettingsDiff) (old new : WordCorpus)
    (changed : Finset DocumentId) (stream : List Record)
    (hstream : WordChangeStream diff old new changed stream) (index : WordDocidsIndex)
    (hindex : index.Builds old diff.old) :
    ((extractWordDocids diff stream).applyTo index).Builds new diff.new where
  wordFidDocids := wordFidDocids_rebuilt hstream index hindex
  ofExactness exact w d := by
    rw [extractWordDocids_eq]
    cases exact <;> exact ofExactness_rebuilt hstream index hindex _ w d

def WordDocidsIndex.empty : WordDocidsIndex := ⟨fun _ => ∅, fun _ => ∅, fun _ => ∅⟩

theorem WordDocidsIndex.empty_builds (settings : InnerIndexSettings) :
    WordDocidsIndex.empty.Builds (fun _ _ => ∅) settings :=
  ⟨fun _ _ _ => by simp [WordDocidsIndex.empty], fun exact _ _ => by
    cases exact <;> simp [WordDocidsIndex.empty, WordDocidsIndex.ofExactness]⟩

def noExactDiff : InnerIndexSettingsDiff :=
  ⟨⟨∅, ⟨fun _ => false⟩, .byWord⟩, ⟨∅, ⟨fun _ => false⟩, .byWord⟩, false⟩

def oneWordCorpus : WordCorpus := fun d f => if d = 0 ∧ f = 0 then {"a"} else ∅

def oneWordStream : List Record := [⟨0, 0, ⟨none, some [(0, "a")]⟩⟩]

theorem oneWordStream_changes :
    WordChangeStream noExactDiff (fun _ _ => ∅) oneWordCorpus {0} oneWordStream where
  changed_of_mem := by decide
  deletion r hr w := by
    simp only [oneWordStream, List.mem_singleton] at hr
    subst hr
    simp
  addition r hr w := by
    simp only [oneWordStream, List.mem_singleton] at hr
    subst hr
    simp [oneWordCorpus]
  complete d hd f w h := by
    simp only [Finset.mem_singleton] at hd
    subst hd
    by_cases hf : f = 0
    · exact ⟨_, List.mem_singleton_self _, rfl, hf.symm⟩
    · simp [oneWordCorpus, hf] at h
  unchanged d hd := by
    funext f
    simp [oneWordCorpus, show d ≠ 0 by simpa using hd]
  sameExactness _ _ _ _ h := absurd h (Finset.not_mem_empty _)

theorem oneWordStream_rebuilds_index :
    WordChangeStream noExactDiff (fun _ _ => ∅) oneWordCorpus {0} oneWordStream ∧
      WordDocidsIndex.empty.Builds (fun _ _ => ∅) noExactDiff.old ∧
      ((extractWordDocids noExactDiff oneWordStream).applyTo WordDocidsIndex.empty).Builds
        oneWordCorpus noExactDiff.new :=
  ⟨oneWordStream_changes, WordDocidsIndex.empty_builds _,
    extractWordDocids_rebuilds_index _ _ _ _ _ oneWordStream_changes _
      (WordDocidsIndex.empty_builds _)⟩

/-! ## `docids_into_writers`

Defined beside the extractor and called by nothing under src/, it writes the documents a word
loses and gains as one Del/Add value, leaving out what applying the value would not change. -/

def docidsIntoWriters (word : String) (deletions additions : RoaringBitmap) : Sorter String :=
  if deletions = additions then []
  else [(word, ⟨if deletions ≠ ∅ ∧ ¬deletions ⊆ additions then some deletions else none,
    if additions ≠ ∅ then some additions else none⟩)]

/-- What `docids_into_writers` writes is never a no-op, and applying it to the stored bitmaps
    removes the deleted documents from the word's bitmap and adds the added ones, whenever the
    stored bitmap holds the deleted documents; the other words are untouched. -/
theorem docidsIntoWriters_applied (word : String) (deletions additions : RoaringBitmap)
    (index : String → RoaringBitmap) (hstored : deletions ⊆ index word) :
    (∀ entry ∈ docidsIntoWriters word deletions additions, isNoopDelAddObkv entry.2 = false) ∧
    ∀ w, applyMerged (docidsIntoWriters word deletions additions) index w =
      if w = word then (index word \ deletions) ∪ additions else index w := by
  unfold docidsIntoWriters
  split_ifs with heq hdel hadd hadd
  · -- nothing written: the word loses and gains the same documents
    subst heq
    refine ⟨by simp, fun w => ?_⟩
    split_ifs with hw
    · subst hw
      simp [applyMerged, Sorter.valuesOf, mergeDeladdCboRoaringBitmaps, mergeSide,
        Finset.sdiff_union_of_subset hstored]
    · simp [applyMerged, Sorter.valuesOf, mergeDeladdCboRoaringBitmaps, mergeSide]
  all_goals
    refine ⟨by simp_all [isNoopDelAddObkv], fun w => ?_⟩
    ext d
    by_cases hw : w = word <;>
      simp_all [mem_applyMerged, Sorter.holds_singleton, KvDelAdd.get, eq_comm]
  -- no deletion written: the deletions are empty or added back, so removing them is a no-op
  exact or_congr_left' fun hadded =>
    ⟨fun hd => ⟨hd, fun hdel' => hadded (hdel (Finset.ne_empty_of_mem hdel') hdel')⟩, And.left⟩

theorem docidsIntoWriters_added_back :
    (∀ entry ∈ docidsIntoWriters "a" {1} {1, 2}, isNoopDelAddObkv entry.2 = false) ∧
    ∀ w, applyMerged (docidsIntoWriters "a" {1} {1, 2}) (fun _ => {0, 1}) w =
      if w = "a" then ({0, 1} \ {1}) ∪ {1, 2} else {0, 1} :=
  docidsIntoWriters_applied "a" {1} {1, 2} (fun _ => {0, 1}) (by decide)

end MilliCore.Extract
