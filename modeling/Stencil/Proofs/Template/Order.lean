import Stencil.Template.Parse

/-!
The nodes of a tree in order.  Each node comes before the nodes of its body and those before the nodes
that follow it, and each is listed with the number of blocks around it.
-/

set_option autoImplicit false
set_option relaxedAutoImplicit false

namespace Stencil

namespace Node

def isBlock : Node → Bool
  | block .. => true
  | _ => false

def path? : Node → Option Text
  | literal .. => none
  | reference _ path => some path
  | block _ _ path _ => some path

mutual

/-- A node and all nodes in it, in order, each with the number of blocks around it. -/
def inOrder (around : Nat) : Node → List (Nat × Node)
  | literal place content => [(around, literal place content)]
  | reference place path => [(around, reference place path)]
  | block kind place path body =>
    (around, block kind place path body) :: allInOrder (around + 1) body

def allInOrder (around : Nat) : List Node → List (Nat × Node)
  | [] => []
  | node :: nodes => inOrder around node ++ allInOrder around nodes

end

theorem allInOrder_append (around : Nat) (first rest : List Node) :
    allInOrder around (first ++ rest) = allInOrder around first ++ allInOrder around rest := by
  induction first with
  | nil => rfl
  | cons node first ih => rw [List.cons_append, allInOrder, allInOrder, ih, List.append_assoc]

theorem allInOrder_ofLiteral (around : Nat) (place : Position) (content : Text) :
    allInOrder around (ofLiteral place content) =
      (ofLiteral place content).map fun node => (around, node) := by
  rw [ofLiteral]
  split <;> rfl

end Node

end Stencil
