import MilliCore.Extract.WordPairProximity

set_option autoImplicit false

/-!
# Rebuilding the word-pair proximity database

The caller of `extract_word_pair_proximity_docids` sends, for each changed document, every field
with its old positions on the deletion side and its new ones on the addition side. Merged per key
and applied to the database of the old corpus, deletions then additions, the output gives the
database of the new corpus, at every key `[prox, w1, 0, w2]` of words free of nul bytes. A word
holding a nul byte makes two pairs share a key, and then the rebuilt database is not the new one.
-/

namespace MilliCore.Extract
open MilliCore.Store

abbrev PositionCorpus := DocumentId → FieldId → List (ℕ × String)

/-- The stream the caller builds for a set `changed` of documents between an old and a new corpus:
    sorted by document id, each record carries the old positions of its field on its deletion side
    and the new ones on its addition side, each side in increasing order of position; only
    documents of `changed` have records, and each field with words of such a document has one. A
    document outside `changed` keeps its words, and a change of precision changes every
    document. -/
structure PositionChangeStream (diff : InnerIndexSettingsDiff) (old new : PositionCorpus)
    (changed : Finset DocumentId) (stream : List Record) : Prop where
  sorted : (stream.map Record.documentId).Sorted (· ≤ ·)
  changed_of_mem : ∀ r ∈ stream, r.documentId ∈ changed
  sides : ∀ r ∈ stream, ∀ side,
    (r.value.get side).getD [] = side.pick old new r.documentId r.fid
  increasing : ∀ r ∈ stream, ∀ side, (((r.value.get side).getD []).map Prod.fst).Sorted (· < ·)
  complete : ∀ d ∈ changed, ∀ f, old d f ≠ [] ∨ new d f ≠ [] →
    ∃ r ∈ stream, r.documentId = d ∧ r.fid = f
  unchanged : ∀ d ∉ changed, old d = new d
  precisionChanged : diff.old.proximityPrecision ≠ diff.new.proximityPrecision →
    ∀ d, d ∈ changed

theorem InnerIndexSettingsDiff.enables_iff (diff : InnerIndexSettingsDiff) (side : DelAdd) :
    (diff.settingsUpdateOnly && !diff.reindexProximities) = false ∧ diff.enables side = true ↔
      (side.pick diff.old diff.new).proximityPrecision = .byWord := by
  cases side <;>
    by_cases h : diff.old.proximityPrecision = diff.new.proximityPrecision <;>
    simp_all [InnerIndexSettingsDiff.enables, InnerIndexSettingsDiff.anyDeletion,
      InnerIndexSettingsDiff.anyAddition, InnerIndexSettingsDiff.reindexProximities, DelAdd.pick]

section Rebuild
variable [MaxDistance]

/-- Document `d` belongs to the database of a corpus at `(p, w1, w2)`: the precision is by word,
    and `p`, in `1..MAX_DISTANCE`, is the least proximity of `w1` before `w2` over the fields of
    `d`. -/
def InPairIndex (corpus : PositionCorpus) (precision : ProximityPrecision) (p : ℕ)
    (pair : String × String) (d : DocumentId) : Prop :=
  precision = .byWord ∧ 1 ≤ p ∧ p < maxDistance ∧ (∃ f, p ∈ occurrences (corpus d f) pair) ∧
    ∀ f, ∀ q ∈ occurrences (corpus d f) pair, p ≤ q

/-- The bitmaps under the keys `[prox, w1, 0, w2]` are the database of a corpus under a precision,
    at the keys of words free of nul bytes. -/
def PairIndexBuilds (index : ℕ × String → RoaringBitmap) (corpus : PositionCorpus)
    (precision : ProximityPrecision) : Prop :=
  ∀ p pair d, '\x00' ∉ pair.1.data → '\x00' ∉ pair.2.data →
    (d ∈ index (pairKey p pair) ↔ InPairIndex corpus precision p pair d)

theorem pairIndexBuilds_empty (precision : ProximityPrecision) :
    PairIndexBuilds (fun _ => ∅) (fun _ _ => []) precision := fun _ _ _ _ _ => by
  simp [InPairIndex, occurrences]

section Stream
variable {diff : InnerIndexSettingsDiff} {old new : PositionCorpus} {changed : Finset DocumentId}
  {stream : List Record}

theorem PositionChangeStream.mem_occurrences
    (hstream : PositionChangeStream diff old new changed stream) {d : DocumentId}
    (hd : d ∈ changed) (side : DelAdd) (pair : String × String) (v : ℕ) :
    v ∈ ((stream.filter (·.documentId = d)).map fun r => (r.value.get side).getD []).flatMap
        (occurrences · pair) ↔
      ∃ f, v ∈ occurrences (side.pick old new d f) pair := by
  simp only [List.mem_flatMap, List.mem_map, List.mem_filter, decide_eq_true_eq]
  constructor
  · rintro ⟨_, ⟨r, ⟨hr, rfl⟩, rfl⟩, hv⟩
    exact ⟨r.fid, by rwa [← hstream.sides r hr side]⟩
  · rintro ⟨f, hv⟩
    have hne : side.pick old new d f ≠ [] := by
      rintro h
      simp [h, occurrences] at hv
    obtain ⟨r, hr, rfl, rfl⟩ :=
      hstream.complete _ hd f (by cases side; exacts [.inl hne, .inr hne])
    exact ⟨_, ⟨r, ⟨hr, rfl⟩, rfl⟩, by rwa [hstream.sides r hr side]⟩

theorem PositionChangeStream.holds (hstream : PositionChangeStream diff old new changed stream)
    (side : DelAdd) {p : ℕ} {pair : String × String} (h₁ : '\x00' ∉ pair.1.data)
    (h₂ : '\x00' ∉ pair.2.data) (d : DocumentId) :
    (extractWordPairProximityDocids diff stream).Holds side (pairKey p pair) d ↔
      d ∈ changed ∧ InPairIndex (side.pick old new)
        (side.pick diff.old diff.new).proximityPrecision p pair d := by
  rw [extractWordPairProximityDocids_holds diff hstream.sorted,
    pairKey_mem_sideFold h₁ h₂ fun r hr => hstream.increasing r (List.mem_filter.1 hr).1 side,
    ← and_assoc, diff.enables_iff side, naiveWordPairProximity_eq_some]
  by_cases hd : d ∈ changed
  · simp only [hstream.mem_occurrences hd, InPairIndex, hd, true_and, forall_exists_index,
      @forall_swap ℕ FieldId]
  · have hnil : stream.filter (·.documentId = d) = [] := List.filter_eq_nil_iff.2 fun r hr hrd =>
      hd (of_decide_eq_true hrd ▸ hstream.changed_of_mem r hr)
    simp [hnil, hd]

end Stream

/-- Merging the output of `extract_word_pair_proximity_docids` into the word-pair proximity
    database of the old corpus under the old precision, deletions then additions, gives the
    database of the new corpus under the new precision, at every key of words free of nul
    bytes. -/
theorem extractWordPairProximityDocids_rebuilds_index (diff : InnerIndexSettingsDiff)
    (old new : PositionCorpus) (changed : Finset DocumentId) (stream : List Record)
    (hstream : PositionChangeStream diff old new changed stream)
    (index : ℕ × String → RoaringBitmap)
    (hindex : PairIndexBuilds index old diff.old.proximityPrecision) :
    PairIndexBuilds (applyMerged (extractWordPairProximityDocids diff stream) index) new
      diff.new.proximityPrecision := by
  intro p pair d h₁ h₂
  have hsame : ∀ d, d ∉ changed → (InPairIndex old diff.old.proximityPrecision p pair d ↔
      InPairIndex new diff.new.proximityPrecision p pair d) := fun d hd => by
    have hprec : diff.old.proximityPrecision = diff.new.proximityPrecision :=
      by_contra fun h => hd (hstream.precisionChanged h d)
    rw [InPairIndex, InPairIndex, hstream.unchanged d hd, hprec]
  rw [mem_applyMerged, hindex p pair d h₁ h₂]
  exact rebuilt_of_deladd (hstream.holds .deletion h₁ h₂) (hstream.holds .addition h₁ h₂) hsame d

end Rebuild

/-! ## Words holding a nul byte -/

/-- One field in each of two documents: document 0 has `"a\x00b"` then `"c"`, document 1 has `"a"`
    then `"b\x00c"`. Both pairs have the key `[1, a, 0, b, 0, c]`. -/
def nulCorpus : PositionCorpus := fun d f =>
  if f = 0 then
    if d = 0 then [(0, "a\x00b"), (1, "c")] else if d = 1 then [(0, "a"), (1, "b\x00c")] else []
  else []

def nulStream : List Record :=
  [⟨0, 0, ⟨none, some (nulCorpus 0 0)⟩⟩, ⟨1, 0, ⟨none, some (nulCorpus 1 0)⟩⟩]

def byWordDiff : InnerIndexSettingsDiff :=
  ⟨⟨∅, ⟨fun _ => false⟩, .byWord⟩, ⟨∅, ⟨fun _ => false⟩, .byWord⟩, false⟩

theorem nulStream_changes :
    PositionChangeStream byWordDiff (fun _ _ => []) nulCorpus {0, 1} nulStream where
  sorted := by decide
  changed_of_mem := by decide
  sides r hr side := by
    simp only [nulStream, List.mem_cons, List.mem_singleton, List.not_mem_nil, or_false] at hr
    rcases hr with rfl | rfl <;> cases side <;> rfl
  increasing r hr side := by
    simp only [nulStream, List.mem_cons, List.mem_singleton, List.not_mem_nil, or_false] at hr
    rcases hr with rfl | rfl <;> cases side <;> decide
  complete d hd f h := by
    have hf : f = 0 := by_contra fun hf => by simp [nulCorpus, hf] at h
    subst hf
    simp only [Finset.mem_insert, Finset.mem_singleton] at hd
    rcases hd with rfl | rfl
    exacts [⟨_, List.mem_cons_self _ _, rfl, rfl⟩,
      ⟨_, List.mem_cons_of_mem _ (List.mem_cons_self _ _), rfl, rfl⟩]
  unchanged d hd := by
    simp only [Finset.mem_insert, Finset.mem_singleton, not_or] at hd
    funext f
    simp [nulCorpus, hd.1, hd.2]
  precisionChanged h := absurd rfl h

theorem nulStream_rebuilds_index :
    PositionChangeStream byWordDiff (fun _ _ => []) nulCorpus {0, 1} nulStream ∧
      PairIndexBuilds (fun _ => ∅) (fun _ _ => []) .byWord ∧
      PairIndexBuilds (applyMerged (extractWordPairProximityDocids byWordDiff nulStream)
        fun _ => ∅) nulCorpus .byWord :=
  ⟨nulStream_changes, pairIndexBuilds_empty _,
    extractWordPairProximityDocids_rebuilds_index byWordDiff _ _ _ _ nulStream_changes _
      (pairIndexBuilds_empty _)⟩

/-- Over words holding a nul byte the database is not rebuilt: the key of the pair
    `("a", "b\x00c")`, close in document 1 only, also receives document 0, whose pair
    `("a\x00b", "c")` has the same key, though the empty database before was right at every key. -/
theorem extractWordPairProximityDocids_nul_collision :
    PositionChangeStream byWordDiff (fun _ _ => []) nulCorpus {0, 1} nulStream ∧
      (∀ p pair d, d ∈ (∅ : RoaringBitmap) ↔ InPairIndex (fun _ _ => []) .byWord p pair d) ∧
      (0 : DocumentId) ∈ applyMerged (extractWordPairProximityDocids byWordDiff nulStream)
        (fun _ => ∅) (pairKey 1 ("a", "b\x00c")) ∧
      ¬InPairIndex nulCorpus .byWord 1 ("a", "b\x00c") 0 := by
  refine ⟨nulStream_changes, fun _ _ _ => by simp [InPairIndex, occurrences], by decide, ?_⟩
  rintro ⟨-, -, -, ⟨f, hf⟩, -⟩
  by_cases h : f = 0
  · subst h
    revert hf
    decide
  · simp [nulCorpus, h, occurrences] at hf

end MilliCore.Extract
