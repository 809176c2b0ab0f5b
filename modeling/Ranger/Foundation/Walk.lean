import Mathlib.Algebra.BigOperators.Group.List.Basic
import Mathlib.Algebra.GroupWithZero.Nat
import Mathlib.Logic.Relation

/-! # Walks over what lies below a node

A walk takes a node from a stack, checks it and puts the nodes that follow it onto the
stack. It ends when the stack is empty, or at the first node that fails the check. Nodes
are of a size that bounds what follows them, so every walk ends.
-/

namespace Foundation

universe u v

variable {α : Type u}

/-- Where a walk goes from a node. -/
structure Descent (α : Type u) where
  next : α → List α
  size : α → Nat
  smaller : ∀ node, ((next node).map size).sum < size node

namespace Descent

variable (descent : Descent α)

/-- A node that follows another. -/
def Follows (node follower : α) : Prop := follower ∈ descent.next node

/-- A node that a walk from another comes to. -/
def Below (root node : α) : Prop := Relation.ReflTransGen descent.Follows root node

/-- Whether every node that is taken from the stack passes the check. -/
def walk (check : α → Bool) : List α → Bool
  | [] => true
  | node :: stack => if check node then walk check (descent.next node ++ stack) else false
termination_by stack => (stack.map descent.size).sum
decreasing_by
  rw [List.map_append, List.sum_append, List.map_cons, List.sum_cons]
  exact Nat.add_lt_add_right (descent.smaller node) _

/-- **Walks.** A walk ends well when all that lies below its roots passes the check. -/
theorem walk_eq_true_iff (check : α → Bool) (stack : List α) :
    descent.walk check stack = true ↔
      ∀ root ∈ stack, ∀ node, descent.Below root node → check node = true := by
  induction stack using walk.induct descent check with
  | case1 => simp [walk]
  | case2 node stack passed ih =>
      rw [walk, if_pos passed, ih]
      constructor
      · intro rest root member below reached
        rcases List.mem_cons.mp member with rfl | later
        · rcases Relation.ReflTransGen.cases_head reached with rfl | ⟨follower, first, reached⟩
          · exact passed
          · exact rest follower (List.mem_append_left _ first) below reached
        · exact rest root (List.mem_append_right _ later) below reached
      · intro all root member below reached
        rcases List.mem_append.mp member with first | later
        · exact all node List.mem_cons_self below (.head first reached)
        · exact all root (List.mem_cons_of_mem _ later) below reached
  | case3 node stack failed =>
      rw [walk, if_neg failed]
      refine iff_of_false Bool.false_ne_true fun all => ?_
      exact failed (all node List.mem_cons_self node .refl)

/-- `walk` with a check that has effects. -/
def walkM {m : Type → Type v} [Monad m] (check : α → m Bool) : List α → m Bool
  | [] => pure true
  | node :: stack => do
      if ← check node then walkM check (descent.next node ++ stack) else pure false
termination_by stack => (stack.map descent.size).sum
decreasing_by
  rw [List.map_append, List.sum_append, List.map_cons, List.sum_cons]
  exact Nat.add_lt_add_right (descent.smaller node) _

end Descent

end Foundation
