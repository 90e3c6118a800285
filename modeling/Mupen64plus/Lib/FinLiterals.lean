import Mathlib.Algebra.NeZero
import Mathlib.Algebra.Order.Ring.Nat

/-!
# Literals of finite types

Named instances for the sizes of register files and queues: the literals of `Fin n` in a definition
then refer to them, and the definition carries no proof of its own.
-/

namespace FinLiterals

instance neZeroTwo : NeZero 2 := ⟨Nat.succ_ne_zero 1⟩

instance neZeroFour : NeZero 4 := ⟨Nat.succ_ne_zero 3⟩

instance neZeroFive : NeZero 5 := ⟨Nat.succ_ne_zero 4⟩

instance neZeroEight : NeZero 8 := ⟨Nat.succ_ne_zero 7⟩

instance neZeroSixteen : NeZero 16 := ⟨Nat.succ_ne_zero 15⟩

instance neZeroThirtyTwo : NeZero 32 := ⟨Nat.succ_ne_zero 31⟩

end FinLiterals
