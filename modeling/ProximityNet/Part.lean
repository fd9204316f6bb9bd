/-!
# Parts of a state

A `Part σ τ` says how a `τ` is kept inside a `σ`, so that something that acts on a `τ` can act on a
`σ`.
-/

namespace ProximityNet

/-- How a `τ` is looked up and replaced inside a `σ`. -/
structure Part (σ τ : Type) where
  get : σ → τ
  set : τ → σ → σ

end ProximityNet
