import ReleaseNotes.Yaml.Node

/-!
How far a document grows when its aliases are followed. A short text can stand for a very long one,
and a node can hold an alias to itself, so there is a bound on how often aliases are followed, and
it depends on the number of parts that a document is written in.
-/

namespace ReleaseNotes.Yaml

namespace Node

mutual

/-- How many parts a node is written in. A collection has two of its own. -/
def size : Node → Nat
  | .alias _ | .scalar .. => 1
  | .sequence _ _ items => sizeOfItems items + 2
  | .mapping _ _ pairs => sizeOfPairs pairs + 2

def sizeOfItems : List Node → Nat
  | [] => 0
  | item :: items => item.size + sizeOfItems items

def sizeOfPairs : List (Node × Node) → Nat
  | [] => 0
  | (key, value) :: pairs => key.size + value.size + sizeOfPairs pairs

end

def keysAndValues : List (Node × Node) → List Node
  | [] => []
  | (key, value) :: pairs => key :: value :: keysAndValues pairs

def children : Node → List Node
  | .alias _ | .scalar .. => []
  | .sequence _ _ items => items
  | .mapping _ _ pairs => keysAndValues pairs

theorem sizeOfItems_append (left right : List Node) :
    sizeOfItems (left ++ right) = sizeOfItems left + sizeOfItems right := by
  induction left with
  | nil => simp [sizeOfItems]
  | cons item items ih => simp [sizeOfItems, ih, Nat.add_assoc]

theorem sizeOfItems_keysAndValues (pairs : List (Node × Node)) :
    sizeOfItems (keysAndValues pairs) = sizeOfPairs pairs := by
  induction pairs with
  | nil => simp [keysAndValues, sizeOfItems, sizeOfPairs]
  | cons pair pairs ih =>
    simp [keysAndValues, sizeOfItems, sizeOfPairs, ih, Nat.add_assoc]

theorem sizeOfItems_children_lt (node : Node) : sizeOfItems node.children < node.size := by
  cases node with
  | «alias» target => simp [children, sizeOfItems, size]
  | scalar anchor tag style text => simp [children, sizeOfItems, size]
  | sequence anchor tag items => simp [children, size]
  | mapping anchor tag pairs => simp [children, size, sizeOfItems_keysAndValues]

end Node

namespace Document

/-- Aliases are followed at most so often on the way through some nodes and all that they stand
for. -/
def followsAtMost (document : Document) (bound : Nat) : List Node → Bool
  | [] => true
  | node :: nodes =>
    match node, bound with
    | .alias _, 0 => false
    | .alias target, bound + 1 =>
      document.followsAtMost bound ((document.targets.lookup target).toList ++ nodes)
    | node, bound => document.followsAtMost bound (node.children ++ nodes)
termination_by nodes => (bound, Node.sizeOfItems nodes)
decreasing_by
  · exact Prod.Lex.left _ _ (Nat.lt_succ_self _)
  · apply Prod.Lex.right
    have := Node.sizeOfItems_children_lt node
    simp only [Node.sizeOfItems_append, Node.sizeOfItems]
    omega

/-- To read the document, aliases are followed at most a hundred times for each of its parts. -/
def isReadable (document : Document) : Bool :=
  let nodes := document.root.toList
  document.followsAtMost (100 * Node.sizeOfItems nodes) nodes

end Document

end ReleaseNotes.Yaml
