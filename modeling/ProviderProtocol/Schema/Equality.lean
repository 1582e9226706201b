import ProviderProtocol.Schema.Basic
/-!
# Equality of schemas

Two schemas are equal when their definitions are, in the same order; `Block.beq` decides it.
-/
namespace ProviderProtocol

namespace Block

mutual

def beq : Block → Block → Bool
  | ⟨a, x, d, p⟩, ⟨b, y, e, q⟩ => decide (a = b) && beqBlocks x y && decide (d = e) && p == q

def beqBlocks : List (String × Nesting × Block) → List (String × Nesting × Block) → Bool
  | [], []                               => true
  | (m, n, b) :: rest, (k, l, c) :: more => m == k && decide (n = l) && b.beq c && beqBlocks rest more
  | _, _                                 => false

end

mutual

theorem beq_iff_eq : ∀ b c : Block, b.beq c = true ↔ b = c
  | ⟨a, x, d, p⟩, ⟨b, y, e, q⟩ => by simp [beq, beqBlocks_iff_eq x y, and_assoc]

theorem beqBlocks_iff_eq : ∀ x y : List (String × Nesting × Block), beqBlocks x y = true ↔ x = y
  | [], y => by cases y <;> simp [beqBlocks]
  | (m, n, b) :: rest, y => by
    cases y with
    | nil => simp [beqBlocks]
    | cons e more => obtain ⟨k, l, c⟩ := e; simp [beqBlocks, beq_iff_eq b c, beqBlocks_iff_eq rest more, and_assoc]

end

instance : DecidableEq Block := fun b c => decidable_of_iff (b.beq c = true) (beq_iff_eq b c)

end Block

deriving instance DecidableEq for Schema

end ProviderProtocol
