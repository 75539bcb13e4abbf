import Mathlib.Logic.Relation
import Mathlib.Order.Basic

/-!
# Routes without cycles

A next-hop relation has no cycle when some measure falls along it. The measure need only be there for nodes that
are next hops themselves, and the node where the routes end may be without one.
-/

namespace NetworkSimulator.Library
variable {N β : Type*} [Preorder β] {next : N → N → Prop} {P : N → Prop} {μ : N → β} {dst : N}

lemma falls_along (hdst : ∀ b, ¬next dst b) (hstep : ∀ a b, next a b → b = dst ∨ P b ∧ (P a → μ b < μ a))
    {a b : N} (h : Relation.TransGen next a b) : b = dst ∨ P b ∧ (P a → μ b < μ a) := by
  induction h with
  | single h => exact hstep _ _ h
  | tail _ hbc ih =>
    rcases ih with rfl | ⟨hPb, hba⟩
    · exact absurd hbc (hdst _)
    · exact (hstep _ _ hbc).imp_right fun ⟨hPc, hcb⟩ => ⟨hPc, fun hPa => (hcb hPb).trans (hba hPa)⟩

/-- No node is on a cycle of next hops. -/
theorem no_cycle (P : N → Prop) (μ : N → β) (dst : N) (hdst : ∀ b, ¬next dst b) (hstep : ∀ a b, next a b → b = dst ∨ P b ∧ (P a → μ b < μ a))
    (a : N) : ¬Relation.TransGen next a a := by
  intro h
  rcases falls_along hdst hstep h with rfl | ⟨hPa, hlt⟩
  · obtain ⟨b, hb, -⟩ := Relation.TransGen.head'_iff.mp h
    exact hdst b hb
  · exact lt_irrefl _ (hlt hPa)

end NetworkSimulator.Library
