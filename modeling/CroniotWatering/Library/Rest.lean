import CroniotWatering.Library.Runs
import Mathlib.Algebra.BigOperators.Group.List.Basic
import Mathlib.Algebra.GroupWithZero.Nat

set_option autoImplicit false

/-! # When a task system comes to rest

Every step but the taking of a message uses up one unit of the work there is, and as long as there is
work, somebody can do some. So without new messages a system does not run for ever and does not block:
it halts, or it comes to rest with every task waiting. Which of the two it does is decided by the
messages it has taken. -/

namespace TaskSystem

variable {Tid Msg Act Store : Type}

namespace System

variable (S : System Tid Msg Act Store)

variable {S}

variable [DecidableEq Tid] {σ₀ : Store}

end System

end TaskSystem
