import ProximityNet.Node.Id

/-!
# Pairs of nodes

A link is undirected, so a pair of nodes is written with the smaller id first and a node is never
paired with itself: `NodePair.of? a b` and `NodePair.of? b a` are the same pair.
-/

namespace ProximityNet

/-- Two nodes, the one with the smaller id first when the pair is made by `of?`. -/
structure NodePair where
  low : NodeId
  high : NodeId
deriving DecidableEq

namespace NodePair

/-- Pairs are ordered by their low node and then by their high node. -/
instance : Ranked NodePair where
  rank p := p.low.toNat * 4294967296 + p.high.toNat
  rank_injective := by
    rintro ⟨⟨a⟩, ⟨b⟩⟩ ⟨⟨a'⟩, ⟨b'⟩⟩ h
    have hb := b.toNat_lt
    have hb' := b'.toNat_lt
    simp only [NodeId.toNat] at h
    have h1 : a.toNat = a'.toNat := by omega
    have h2 : b.toNat = b'.toNat := by omega
    rw [UInt32.toNat_inj.1 h1, UInt32.toNat_inj.1 h2]

/-- Going up in the order is going up in the low node, or staying there and going up in the high. -/
theorem rank_lt_iff {p q : NodePair} :
    rank p < rank q ↔ rank p.low < rank q.low ∨ (p.low = q.low ∧ rank p.high < rank q.high) := by
  obtain ⟨⟨a⟩, ⟨b⟩⟩ := p
  obtain ⟨⟨a'⟩, ⟨b'⟩⟩ := q
  have hb := b.toNat_lt
  have hb' := b'.toNat_lt
  show a.toNat * 4294967296 + b.toNat < a'.toNat * 4294967296 + b'.toNat ↔
    a.toNat < a'.toNat ∨ ((⟨a⟩ : NodeId) = ⟨a'⟩ ∧ b.toNat < b'.toNat)
  rw [NodeId.mk.injEq, ← UInt32.toNat_inj]
  omega

/-- The pair of `a` and `b` in either order, unless they are one node. -/
def of? (a b : NodeId) : Option NodePair :=
  if a.toNat < b.toNat then some ⟨a, b⟩
  else if b.toNat < a.toNat then some ⟨b, a⟩
  else none

def contains (p : NodePair) (node : NodeId) : Bool := p.low = node || p.high = node

/-- The other node of the pair, if `node` is one of the two. -/
def other? (p : NodePair) (node : NodeId) : Option NodeId :=
  if node = p.low then some p.high else if node = p.high then some p.low else none

/-- How a pair is written, such as `(1, 2)`. -/
def label (p : NodePair) : String := "(" ++ p.low.label ++ ", " ++ p.high.label ++ ")"

end NodePair

end ProximityNet
