import MilliCore.Extract.WordPairProximity

set_option autoImplicit false

namespace MilliCore.Extract
open MilliCore.Store MilliCore.Utf8

/-! ## The proximity bounds and the order of the written stream

The pair maps hold `Proximity` values, which lie in `1..MAX_DISTANCE` by construction, so
`prox - 1` indexes a sorter. Each flush puts a key under the sorter of its proximity byte
(`PairSorters.Keyed`), every step of the loop keeps that, and so the sorters written one after
the other give a stream strictly increasing in key bytes. -/

theorem pairKeyBytes_injective : Function.Injective pairKeyBytes := by
  rintro ⟨p, s⟩ ⟨q, t⟩ h
  simp only [pairKeyBytes, List.cons.injEq] at h
  rw [h.1, asBytes_injective h.2]

section Order
variable [MaxDistance]

/-- Every key of sorter `k` starts with the proximity byte `k + 1`. -/
def PairSorters.Keyed (sorters : PairSorters) : Prop :=
  ∀ k, ∀ e ∈ sorters k, e.1.1 = k.val + 1

theorem Proximity.sorterIndex_add_one (prox : Proximity) :
    (prox.sorterIndex : ℕ) + 1 = prox.val :=
  Nat.sub_add_cancel prox.pos

section Keyed
variable {sorters : PairSorters}

theorem PairSorters.Keyed.insert (h : sorters.Keyed) {prox : Proximity}
    {entry : (ℕ × String) × KvDelAdd RoaringBitmap} (hentry : entry.1.1 = prox.val) :
    (sorters.insert prox entry).Keyed := by
  intro k e he
  by_cases hk : k = prox.sorterIndex
  · subst hk
    rw [PairSorters.insert, Function.update_same, List.mem_append, List.mem_singleton] at he
    rcases he with he | rfl
    · exact h _ e he
    · rw [hentry, prox.sorterIndex_add_one]
  · rw [PairSorters.insert, Function.update_noteq hk] at he
    exact h k e he

theorem PairSorters.Keyed.documentWordPositionsIntoSorter (h : sorters.Keyed)
    (documentId : DocumentId) (del add : WordPairProximity) :
    (documentWordPositionsIntoSorter documentId del add sorters).Keyed := by
  unfold Extract.documentWordPositionsIntoSorter
  generalize mergeJoinBy del.entries add.entries = eobs
  induction eobs generalizing sorters with
  | nil => exact h
  | cons eob eobs ih => exact ih (h.insert rfl)

theorem PairSorters.Keyed.pairKeyBytes_eq (h : sorters.Keyed) {i : Fin (maxDistance - 1)}
    {e : (ℕ × String) × KvDelAdd RoaringBitmap} (he : e ∈ (sorters i).writtenStream pairKeyBytes) :
    pairKeyBytes e.1 = (i.val + 1) :: asBytes e.1.2 := by
  obtain ⟨⟨v, hv⟩, -⟩ := mem_mergedStream.1 (mem_writtenStream.1 he)
  rw [pairKeyBytes, h i _ hv]

end Keyed

section Loop
variable (diff : InnerIndexSettingsDiff) {state : ExtractorState}

theorem ExtractorState.init_keyed : ExtractorState.init.sorters.Keyed :=
  fun _ _ he => nomatch he

theorem ExtractorState.beforeRecord_keyed (h : state.sorters.Keyed) (documentId : DocumentId) :
    (state.beforeRecord documentId).sorters.Keyed := by
  unfold ExtractorState.beforeRecord
  split
  · split
    · exact h.documentWordPositionsIntoSorter _ _ _
    · exact h
  · exact h

theorem ExtractorState.foldl_keyed :
    ∀ (records : List Record) (state : ExtractorState), state.sorters.Keyed →
      (records.foldl (ExtractorState.step diff) state).sorters.Keyed
  | [], _, h => h
  | record :: records, _, h =>
    ExtractorState.foldl_keyed records _ (ExtractorState.beforeRecord_keyed h record.documentId)

theorem ExtractorState.finalSorters_keyed (h : state.sorters.Keyed) : state.finalSorters.Keyed := by
  unfold ExtractorState.finalSorters
  split
  · exact h.documentWordPositionsIntoSorter _ _ _
  · exact h

end Loop

theorem extractWordPairProximityDocids_increasing (diff : InnerIndexSettingsDiff)
    (stream : List Record) :
    ((extractWordPairProximityDocids diff stream).map fun e => pairKeyBytes e.1).Sorted (· < ·) := by
  unfold extractWordPairProximityDocids
  split
  · exact List.sorted_nil
  · have hkeyed := ExtractorState.finalSorters_keyed
      (ExtractorState.foldl_keyed diff stream _ ExtractorState.init_keyed)
    rw [List.map_flatMap, List.Sorted, List.pairwise_flatMap]
    refine ⟨fun _ _ => writtenStream_sorted pairKeyBytes_injective,
      (List.pairwise_lt_finRange _).imp fun {i j} hij x hx y hy => ?_⟩
    obtain ⟨e, he, rfl⟩ := List.mem_map.1 hx
    obtain ⟨e', he', rfl⟩ := List.mem_map.1 hy
    rw [hkeyed.pairKeyBytes_eq he, hkeyed.pairKeyBytes_eq he']
    exact List.Lex.rel (Nat.succ_lt_succ hij)

/-- Over every run of `extract_word_pair_proximity_docids`: each value of either pair map lies in
    `1..MAX_DISTANCE`, so `prox - 1` is a sorter index; each key of sorter `k` starts with the
    byte `k + 1`; and the stream written from the sorters in order is strictly increasing in key
    bytes, each key once. -/
theorem extractWordPairProximityDocids_ordered (diff : InnerIndexSettingsDiff)
    (stream : List Record) :
    (∀ side, ∀ entry ∈
        ((stream.foldl (ExtractorState.step diff) .init).wordPairProximity side).entries,
      1 ≤ entry.2.val ∧ entry.2.val ≤ maxDistance - 1 ∧
        (entry.2.sorterIndex : ℕ) + 1 = entry.2.val ∧
          (entry.2.sorterIndex : ℕ) < maxDistance - 1) ∧
    (∀ k, ∀ e ∈ (stream.foldl (ExtractorState.step diff) .init).finalSorters k,
      (pairKeyBytes e.1).head? = some (k.val + 1)) ∧
    ((extractWordPairProximityDocids diff stream).map fun e => pairKeyBytes e.1).Sorted (· < ·) ∧
    ((extractWordPairProximityDocids diff stream).map Prod.fst).Nodup := by
  have hincreasing := extractWordPairProximityDocids_increasing diff stream
  refine ⟨fun _ entry _ => ⟨entry.2.pos, Nat.le_sub_one_of_lt entry.2.lt,
      entry.2.sorterIndex_add_one, entry.2.sorterIndex.isLt⟩,
    fun k e he => congrArg some (ExtractorState.finalSorters_keyed
      (ExtractorState.foldl_keyed diff stream _ ExtractorState.init_keyed) k e he),
    hincreasing, ?_⟩
  exact List.Nodup.of_map pairKeyBytes
    (by simpa only [List.map_map, Function.comp_def] using hincreasing.nodup)

end Order

end MilliCore.Extract
