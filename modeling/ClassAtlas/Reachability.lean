/-!
# Reachability in finite graphs

A graph is given by the successors of each node. The walk works off a queue and lists
every node when it is first met. It is bounded by a number of nodes: where the graph has
no more nodes than that, the bound is never felt, because each listed node is new.
-/

namespace ClassAtlas.Reachability

variable {α : Type} [DecidableEq α]

/-- List the nodes of the queue and all nodes that follow, breadth first, without those
already seen and each once. -/
def explore (next : α → List α) (bound : Nat) (seen queue : List α) : List α :=
  match bound, queue.dropWhile fun node => node ∈ seen with
  | _, [] => []
  | 0, _ :: _ => []
  | fewer + 1, node :: rest => node :: explore next fewer (node :: seen) (rest ++ next node)

/-- Follow single steps from a node until they end or lead to a node already seen. -/
def chain (up : α → Option α) : Nat → List α → Option α → List α
  | 0, _, _ => []
  | _, _, none => []
  | fewer + 1, seen, some node =>
    if node ∈ seen then [] else node :: chain up fewer (node :: seen) (up node)

/-- The nodes that can be reached from a node in one or more steps, in a graph of at most
`bound` nodes. -/
def successors (next : α → List α) (bound : Nat) (node : α) : List α :=
  explore next bound [] (next node)

end ClassAtlas.Reachability
