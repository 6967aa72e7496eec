import MilliCore.Result
import Mathlib.Algebra.Order.Ring.Rat

set_option autoImplicit false

namespace MilliCore.Vector

/-! ## The composite embedder

`composite::Embedder` pairs the embedder used to embed queries with the one used to embed
documents. `Embedder::new` builds both, then refuses the pair unless they give embeddings of the
same dimensions and close ones on three test texts (`check_similarity`); `dimensions` then
answers with the indexing embedder's, trusting that check. The embedders of each kind, the
cosine distance of `arroy` and `MAX_COMPOSITE_DISTANCE` are not under src/: the model takes
them as a `CompositeContext`. -/

inductive SubEmbedderKind where
  | huggingFace
  | openAi
  | userProvided
  | ollama
  | rest
deriving DecidableEq

structure DistributionShift where
  currentMean : ℚ
  currentSigma : ℚ

/-- An embedding, its `f32` values kept as rationals. -/
abbrev Embedding := List ℚ

/-- A built `SubEmbedder`: its kind, and what the embedder of that kind answers to
    `dimensions`, `distribution` and `embed` (whose `EmbedError` is kept as its text). -/
structure SubEmbedder where
  kind : SubEmbedderKind
  dimensions : ℕ
  distribution : Option DistributionShift
  embed : List String → Except String (List Embedding)

inductive CompositeEmbedderContainsHuggingFace where
  | both
  | search
  | indexing
  | none

inductive NewEmbedderError where
  | subEmbedder (message : String)
  | compositeDimensionsMismatch (searchDimensions indexDimensions : ℕ)
  | compositeTestEmbeddingFailed (error : String) (which : String)
  | compositeEmbeddingCountMismatch (left right : ℕ)
  | compositeEmbeddingValueMismatch (distance : ℚ) (hint : CompositeEmbedderContainsHuggingFace)

/-- What `Embedder::new` calls outside this file: `SubEmbedder::new` on a kind's options and a
    cache capacity, `Cosine::built_distance`, and `MAX_COMPOSITE_DISTANCE`. -/
structure CompositeContext (Options : Type) where
  subEmbedderNew : Options → ℕ → Except NewEmbedderError SubEmbedder
  builtDistance : Embedding → Embedding → ℚ
  maxCompositeDistance : ℚ

structure EmbedderOptions (Options : Type) where
  search : Options
  index : Options

structure Embedder where
  search : SubEmbedder
  index : SubEmbedder

def testTexts : List String :=
  ["test", "a brave dog", "This is a sample text. It is meant to compare similarity."]

def configurationHint (search index : SubEmbedder) : CompositeEmbedderContainsHuggingFace :=
  match search.kind, index.kind with
  | .huggingFace, .huggingFace => .both
  | .huggingFace, _ => .search
  | _, .huggingFace => .indexing
  | _, _ => .none

section Construction
variable {Options : Type} (ctx : CompositeContext Options)

def checkSimilarity (left right : List Embedding) (hint : CompositeEmbedderContainsHuggingFace) :
    Except NewEmbedderError Unit :=
  if left.length ≠ right.length then
    .error (.compositeEmbeddingCountMismatch left.length right.length)
  else
    (left.zip right).forM fun pair =>
      let distance := ctx.builtDistance pair.1 pair.2
      if distance > ctx.maxCompositeDistance then
        .error (.compositeEmbeddingValueMismatch distance hint)
      else .ok ()

/-- `Embedder::new`: the searching embedder with the cache, the indexing one without, then the
    checks in the source's order. -/
def Embedder.new (options : EmbedderOptions Options) (cacheCap : ℕ) :
    Except NewEmbedderError Embedder := do
  let search ← ctx.subEmbedderNew options.search cacheCap
  let index ← ctx.subEmbedderNew options.index 0
  if search.dimensions ≠ index.dimensions then
    throw (.compositeDimensionsMismatch search.dimensions index.dimensions)
  let searchEmbeddings ← (search.embed testTexts).mapError
    fun error => .compositeTestEmbeddingFailed error "search"
  let indexEmbeddings ← (index.embed testTexts).mapError
    fun error => .compositeTestEmbeddingFailed error "indexing"
  checkSimilarity ctx searchEmbeddings indexEmbeddings (configurationHint search index)
  pure ⟨search, index⟩

end Construction

def Embedder.dimensions (embedder : Embedder) : ℕ := embedder.index.dimensions

def Embedder.distribution (embedder : Embedder) : Option DistributionShift :=
  embedder.search.distribution.orElse fun _ => embedder.index.distribution

/-! ## What a built composite satisfies -/

section Checked
variable {Options : Type} (ctx : CompositeContext Options)

structure Embedder.Checked (embedder : Embedder) : Prop where
  dimensions : embedder.search.dimensions = embedder.index.dimensions
  similar : ∃ searchEmbeddings indexEmbeddings,
    embedder.search.embed testTexts = .ok searchEmbeddings ∧
    embedder.index.embed testTexts = .ok indexEmbeddings ∧
    searchEmbeddings.length = indexEmbeddings.length ∧
    ∀ pair ∈ searchEmbeddings.zip indexEmbeddings,
      ctx.builtDistance pair.1 pair.2 ≤ ctx.maxCompositeDistance

theorem checkSimilarity_eq_ok_iff (left right : List Embedding)
    (hint : CompositeEmbedderContainsHuggingFace) :
    checkSimilarity ctx left right hint = .ok () ↔ left.length = right.length ∧
      ∀ pair ∈ left.zip right, ctx.builtDistance pair.1 pair.2 ≤ ctx.maxCompositeDistance := by
  unfold checkSimilarity
  split
  · next hne => simp [hne]
  · next heq =>
    rw [forM_eq_ok_iff, and_iff_right (not_not.1 heq)]
    refine forall₂_congr fun pair _ => ?_
    dsimp only
    split <;> simp_all

theorem Embedder.new_eq_ok_iff (options : EmbedderOptions Options) (cacheCap : ℕ)
    (embedder : Embedder) :
    Embedder.new ctx options cacheCap = .ok embedder ↔
      ctx.subEmbedderNew options.search cacheCap = .ok embedder.search ∧
      ctx.subEmbedderNew options.index 0 = .ok embedder.index ∧
      embedder.Checked ctx ∧ embedder.dimensions = embedder.search.dimensions := by
  simp only [Embedder.new, bind_eq_ok, mapError_eq_ok, ite_eq_iff, ne_eq, not_not, throw,
    throwThe, MonadExceptOf.throw, reduceCtorEq, pure, Except.pure, Except.ok.injEq,
    exists_and_right, false_and, exists_const, and_false, true_and, false_or]
  constructor
  · rintro ⟨search, hs, index, hi, hdim, se, hse, ie, hie, ⟨⟨⟩, hc⟩, rfl⟩
    exact ⟨hs, hi, ⟨hdim, se, ie, hse, hie, (checkSimilarity_eq_ok_iff ctx se ie _).1 hc⟩,
      hdim.symm⟩
  · rintro ⟨hs, hi, ⟨hdim, se, ie, hse, hie, hsimilar⟩, -⟩
    exact ⟨_, hs, _, hi, hdim, se, hse, ie, hie,
      ⟨(), (checkSimilarity_eq_ok_iff ctx se ie _).2 hsimilar⟩, rfl⟩

end Checked

end MilliCore.Vector
