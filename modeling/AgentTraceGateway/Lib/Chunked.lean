import Mathlib.Data.List.Basic
import Mathlib.Tactic.Common

/-! # Chunk-Invariant Consumers

  A consumer reads a stream piece by piece: `feed s c` is its state after
  the chunk `c`. What it will have produced when a known remainder `rest`
  arrives in one piece is `out s rest`. If feeding a chunk never changes
  that prediction, the way the stream was cut does not matter.

  An invariant on (state, remaining input) restricts the law to the streams
  a consumer is meant for; consumers without one take `fun _ _ => True`.
-/

namespace AgentTraceGateway

universe u v w

variable {σ : Type u} {α : Type v} {ω : Type w}

/-- One chunk at a time: the invariant survives the chunk, and the
    prediction made before it still stands after it. -/
structure ChunkInvariant (feed : σ → List α → σ) (out : σ → List α → ω)
    (inv : σ → List α → Prop) : Prop where
  keep : ∀ s c rest, inv s (c ++ rest) → inv (feed s c) rest
  same : ∀ s c rest, inv s (c ++ rest) → out (feed s c) rest = out s (c ++ rest)

namespace ChunkInvariant

variable {feed : σ → List α → σ} {out : σ → List α → ω} {inv : σ → List α → Prop}

/-- The prediction after a whole sequence of chunks is the one made at the
    start for the concatenated input. -/
theorem foldl_eq (h : ChunkInvariant feed out inv) (rest : List α) :
    ∀ (chunks : List (List α)) (s : σ), inv s (chunks.flatten ++ rest) →
      out (chunks.foldl feed s) rest = out s (chunks.flatten ++ rest) := by
  intro chunks
  induction chunks with
  | nil => intro s _; rfl
  | cons c cs ih =>
    intro s hinv
    have hinv' : inv s (c ++ (cs.flatten ++ rest)) := by
      simpa [List.append_assoc] using hinv
    have hstep := h.same s c (cs.flatten ++ rest) hinv'
    have hih := ih (feed s c) (h.keep s c _ hinv')
    simp only [List.foldl_cons, List.flatten_cons, List.append_assoc]
    rw [hih, hstep]

/-- Two ways of cutting one stream are indistinguishable at its end. -/
theorem foldl_flatten_eq (h : ChunkInvariant feed out inv) (s : σ)
    (chunks : List (List α)) (hinv : inv s chunks.flatten) :
    out (chunks.foldl feed s) [] = out s chunks.flatten := by
  have := h.foldl_eq [] chunks s (by simpa using hinv)
  simpa using this

end ChunkInvariant

end AgentTraceGateway
