import ClassAtlas.Reachability
import Mathlib.Data.List.Chain
import Mathlib.Data.List.TakeWhile
import Mathlib.Logic.Relation

/-!
# Walks in finite graphs

The two walks of the reachability module carry a bound, which is a device of their
recursion and not of their meaning. Here a graph is a list of nodes that no step leaves.
A walk that has room for every node not yet seen never meets its bound: the chain then
stops only where its steps end or come round, and the search lists every node that the
queue leads to outside what was seen.

Nothing is assumed about the shape of the graph. Circles, several paths to one node and
repeated entries of the queue are all met by the list of seen nodes alone.
-/

namespace ClassAtlas.Reachability

variable {α : Type}

/-- A line from a start: each node is the step of the one before it, none occurs twice,
and the last has no step, or one that leads back to the line. -/
structure IsLine (up : α → Option α) (start : α) (line : List α) : Prop where
  linked : (start :: line).IsChain fun lower upper => up lower = some upper
  distinct : (start :: line).Nodup
  ended : ∀ upper, up ((start :: line).getLast (List.cons_ne_nil start line)) = some upper →
    upper ∈ start :: line

/-- Every step from a line or its start stays there. -/
theorem IsLine.step_mem {up : α → Option α} {start : α} {line : List α}
    (isLine : IsLine up start line) {node upper : α} (listed : node ∈ start :: line)
    (step : up node = some upper) : upper ∈ start :: line := by
  obtain ⟨before, after, split⟩ := List.append_of_mem listed
  cases after with
  | nil =>
    have last : (start :: line).getLast (List.cons_ne_nil start line) = node := by
      simp only [split, List.getLast_append_singleton]
    exact isLine.ended upper (last ▸ step)
  | cons above rest =>
    have linked := isLine.linked
    rw [split, List.isChain_split, List.isChain_cons_cons] at linked
    have same : above = upper := Option.some.inj (linked.2.1.symm.trans step)
    rw [split, ← same]
    simp

/-- Every node of a line is reached from its start in one or more steps. -/
theorem IsLine.reaches {up : α → Option α} {start : α} {line : List α}
    (isLine : IsLine up start line) {node : α} (listed : node ∈ line) :
    Relation.TransGen (fun lower upper => up lower = some upper) start node := by
  have ordered := (isLine.linked.imp fun _ _ step => Relation.TransGen.single step).pairwise
  exact List.rel_of_pairwise_cons ordered listed

variable [DecidableEq α]

/-- The bound admits every node that was not seen. -/
def Room (nodes seen : List α) (bound : Nat) : Prop :=
  (nodes.filter fun node => node ∉ seen).length ≤ bound

/-- A bound that counts all nodes leaves room, whatever was seen. -/
theorem room_of_length (nodes seen : List α) (bound : Nat) (enough : nodes.length ≤ bound) :
    Room nodes seen bound :=
  (List.length_filter_le _ nodes).trans enough

/-- While a node is unseen, the room is not used up. -/
theorem room_positive {nodes seen : List α} {bound : Nat} {node : α} (inside : node ∈ nodes)
    (fresh : node ∉ seen) (room : Room nodes seen bound) : 0 < bound := by
  have listed : node ∈ nodes.filter fun other => other ∉ seen :=
    List.mem_filter.mpr ⟨inside, by simpa using fresh⟩
  exact (List.length_pos_of_mem listed).trans_le room

/-- Seeing a new node takes one off the room. -/
theorem room_after {nodes seen : List α} {bound : Nat} {node : α} (inside : node ∈ nodes)
    (fresh : node ∉ seen) (room : Room nodes seen (bound + 1)) :
    Room nodes (node :: seen) bound := by
  have listed : node ∈ nodes.filter fun other => other ∉ seen :=
    List.mem_filter.mpr ⟨inside, by simpa using fresh⟩
  have narrower : (nodes.filter fun other => other ∉ node :: seen) =
      (nodes.filter fun other => other ∉ seen).filter fun other => other ≠ node := by
    rw [List.filter_filter]
    apply List.filter_congr
    intro other _
    simp
  have shorter :
      ((nodes.filter fun other => other ∉ seen).filter fun other => other ≠ node).length <
      (nodes.filter fun other => other ∉ seen).length :=
    List.length_filter_lt_length_iff_exists.mpr ⟨node, listed, by simp⟩
  have before : (nodes.filter fun other => other ∉ seen).length ≤ bound + 1 := room
  rw [Room, narrower]
  omega

/-- A chain with room follows the steps from a node, meets nothing twice and nothing seen,
and stops only where there is no step or one to a node already met.

Induct on the bound. Where the step leads to a new node, that node takes the place of the
one the chain started from, and the room shrinks with it. -/
theorem chain_exact (up : α → Option α) (nodes : List α)
    (closed : ∀ node ∈ nodes, ∀ upper, up node = some upper → upper ∈ nodes)
    (bound : Nat) (seen : List α) (lower : α) (inside : lower ∈ nodes)
    (room : Room nodes seen bound) :
    let line := chain up bound seen (up lower)
    ((lower :: line).IsChain fun below above => up below = some above) ∧ line.Nodup ∧
      (∀ node ∈ line, node ∉ seen) ∧
      ∀ upper, up ((lower :: line).getLast (List.cons_ne_nil lower line)) = some upper →
        upper ∈ seen ∨ upper ∈ line := by
  induction bound generalizing seen lower with
  | zero =>
    refine ⟨by simp [chain], by simp [chain], by simp [chain], ?_⟩
    intro upper step
    have step : up lower = some upper := by simpa [chain] using step
    by_cases met : upper ∈ seen
    · exact Or.inl met
    · exact absurd (room_positive (closed lower inside upper step) met room) (Nat.lt_irrefl 0)
  | succ fewer inductionHypothesis =>
    cases step : up lower with
    | none =>
      refine ⟨by simp [chain], by simp [chain], by simp [chain], ?_⟩
      simp [chain, step]
    | some node =>
      by_cases met : node ∈ seen
      · refine ⟨by simp [chain, met], by simp [chain, met], by simp [chain, met], ?_⟩
        intro upper last
        have same : node = upper := by simpa [chain, met, step] using last
        exact Or.inl (same ▸ met)
      · have nodeInside : node ∈ nodes := closed lower inside node step
        obtain ⟨linked, distinct, fresh, ended⟩ :=
          inductionHypothesis (node :: seen) node nodeInside (room_after nodeInside met room)
        have unfolded : chain up (fewer + 1) seen (some node) =
            node :: chain up fewer (node :: seen) (up node) := by
          simp [chain, met]
        simp only [unfolded]
        refine ⟨List.isChain_cons_cons.mpr ⟨step, linked⟩, ?_, ?_, ?_⟩
        · refine List.nodup_cons.mpr ⟨?_, distinct⟩
          intro again
          exact fresh node again List.mem_cons_self
        · intro other listed
          rcases List.mem_cons.mp listed with rfl | later
          · exact met
          · exact fun old => fresh other later (List.mem_cons_of_mem node old)
        · intro upper last
          rw [List.getLast_cons (List.cons_ne_nil node _)] at last
          rcases ended upper last with old | later
          · rcases List.mem_cons.mp old with rfl | old
            · exact Or.inr List.mem_cons_self
            · exact Or.inl old
          · exact Or.inr (List.mem_cons_of_mem node later)

/-- Started from a node with that node alone seen, the chain is a line. -/
theorem chain_is_line (up : α → Option α) (nodes : List α)
    (closed : ∀ node ∈ nodes, ∀ upper, up node = some upper → upper ∈ nodes)
    (bound : Nat) (start : α) (inside : start ∈ nodes) (enough : nodes.length ≤ bound) :
    IsLine up start (chain up bound [start] (up start)) := by
  obtain ⟨linked, distinct, fresh, ended⟩ := chain_exact up nodes closed bound [start] start inside
    (room_of_length nodes [start] bound enough)
  refine ⟨linked, List.nodup_cons.mpr ⟨?_, distinct⟩, ?_⟩
  · intro again
    exact fresh start again List.mem_cons_self
  · intro upper last
    rcases ended upper last with old | later
    · exact List.mem_cons.mpr (Or.inl (List.mem_singleton.mp old))
    · exact List.mem_cons_of_mem start later

section Dropping

variable {seen queue : List α}

/-- Dropping seen nodes from the front of a queue leaves every node that was not seen. -/
theorem mem_dropWhile_of_mem {node : α} (queued : node ∈ queue) :
    node ∈ seen ∨ node ∈ queue.dropWhile fun other => other ∈ seen := by
  rw [← List.takeWhile_append_dropWhile (p := fun other => decide (other ∈ seen)) (l := queue)]
    at queued
  rcases List.mem_append.mp queued with taken | left
  · exact Or.inl (by simpa using List.mem_takeWhile_imp taken)
  · exact Or.inr left

variable {node : α} {rest : List α}
  (dropped : queue.dropWhile (fun other => other ∈ seen) = node :: rest)

include dropped

/-- The first node that is left was not seen. -/
theorem fresh_of_dropWhile : node ∉ seen := by
  have first := List.head?_dropWhile_not (fun other => decide (other ∈ seen)) queue
  rw [dropped] at first
  simpa using first

/-- What is left was in the queue. -/
theorem mem_of_dropWhile {other : α} (left : other ∈ node :: rest) : other ∈ queue := by
  rw [← dropped] at left
  exact (List.dropWhile_suffix _).subset left

end Dropping

/-- The search lists nothing that was seen. -/
theorem explore_fresh (next : α → List α) (bound : Nat) (seen queue : List α) :
    ∀ node ∈ explore next bound seen queue, node ∉ seen := by
  fun_induction explore next bound seen queue with
  | case1 => simp
  | case2 => simp
  | case3 seen queue fewer node rest dropped inductionHypothesis =>
    intro other listed
    rcases List.mem_cons.mp listed with rfl | later
    · exact fresh_of_dropWhile dropped
    · exact fun old => inductionHypothesis other later (List.mem_cons_of_mem node old)

/-- The search lists nothing twice. -/
theorem explore_nodup (next : α → List α) (bound : Nat) (seen queue : List α) :
    (explore next bound seen queue).Nodup := by
  fun_induction explore next bound seen queue with
  | case1 => exact List.nodup_nil
  | case2 => exact List.nodup_nil
  | case3 seen queue fewer node rest dropped inductionHypothesis =>
    refine List.nodup_cons.mpr ⟨?_, inductionHypothesis⟩
    intro again
    exact explore_fresh next fewer (node :: seen) (rest ++ next node) node again List.mem_cons_self

/-- Everything the search lists is led to from the queue, in no or more steps. -/
theorem explore_sound (next : α → List α) (bound : Nat) (seen queue : List α) :
    ∀ node ∈ explore next bound seen queue,
      ∃ start ∈ queue,
        Relation.ReflTransGen (fun lower upper => upper ∈ next lower) start node := by
  fun_induction explore next bound seen queue with
  | case1 => simp
  | case2 => simp
  | case3 seen queue fewer node rest dropped inductionHypothesis =>
    have nodeQueued : node ∈ queue := mem_of_dropWhile dropped List.mem_cons_self
    intro other listed
    rcases List.mem_cons.mp listed with rfl | later
    · exact ⟨other, nodeQueued, .refl⟩
    · obtain ⟨start, queued, path⟩ := inductionHypothesis other later
      rcases List.mem_append.mp queued with waiting | stepped
      · exact ⟨start, mem_of_dropWhile dropped (List.mem_cons_of_mem node waiting), path⟩
      · exact ⟨node, nodeQueued, .head stepped path⟩

/-- With room, the search misses nothing: the queue and the steps from every listed node
lead only to what was seen or is listed. -/
theorem explore_closed (next : α → List α) (nodes : List α)
    (closed : ∀ node ∈ nodes, ∀ upper ∈ next node, upper ∈ nodes)
    (bound : Nat) (seen queue : List α) (inside : ∀ node ∈ queue, node ∈ nodes)
    (room : Room nodes seen bound) :
    (∀ node ∈ queue, node ∈ seen ∨ node ∈ explore next bound seen queue) ∧
      ∀ node ∈ explore next bound seen queue, ∀ upper ∈ next node,
        upper ∈ seen ∨ upper ∈ explore next bound seen queue := by
  fun_induction explore next bound seen queue with
  | case1 _ seen queue dropped =>
    refine ⟨fun node queued => Or.inl ?_, by simp⟩
    have covered : node ∈ seen ∨ node ∈ queue.dropWhile fun other => other ∈ seen :=
      mem_dropWhile_of_mem queued
    simpa only [dropped, List.not_mem_nil, or_false] using covered
  | case2 seen queue node rest dropped =>
    have nodeInside := inside node (mem_of_dropWhile dropped List.mem_cons_self)
    exact absurd (room_positive nodeInside (fresh_of_dropWhile dropped) room) (Nat.lt_irrefl 0)
  | case3 seen queue fewer node rest dropped inductionHypothesis =>
    have fresh := fresh_of_dropWhile dropped
    have nodeInside : node ∈ nodes := inside node (mem_of_dropWhile dropped List.mem_cons_self)
    have queueInside : ∀ other ∈ rest ++ next node, other ∈ nodes := by
      intro other queued
      rcases List.mem_append.mp queued with waiting | stepped
      · exact inside other (mem_of_dropWhile dropped (List.mem_cons_of_mem node waiting))
      · exact closed node nodeInside other stepped
    obtain ⟨covered, stepped⟩ := inductionHypothesis queueInside (room_after nodeInside fresh room)
    -- What the shorter search finds seen is either the node just listed or was seen before.
    have regroup (other : α) (found : other ∈ node :: seen ∨
        other ∈ explore next fewer (node :: seen) (rest ++ next node)) :
        other ∈ seen ∨ other ∈ node :: explore next fewer (node :: seen) (rest ++ next node) := by
      rcases found with old | later
      · rcases List.mem_cons.mp old with rfl | old
        · exact Or.inr List.mem_cons_self
        · exact Or.inl old
      · exact Or.inr (List.mem_cons_of_mem node later)
    constructor
    · intro other queued
      rcases mem_dropWhile_of_mem queued with old | left
      · exact Or.inl old
      · rw [dropped] at left
        rcases List.mem_cons.mp left with rfl | waiting
        · exact Or.inr List.mem_cons_self
        · exact regroup other (covered other (List.mem_append_left _ waiting))
    · intro other listed upper step
      rcases List.mem_cons.mp listed with rfl | later
      · exact regroup upper (covered upper (List.mem_append_right rest step))
      · exact regroup upper (stepped other later upper step)

/-- In a graph of no more nodes than the bound, the successors of a node are those that it
reaches in one or more steps. -/
theorem mem_successors_iff {next : α → List α} {nodes : List α}
    (closed : ∀ lower, ∀ upper ∈ next lower, upper ∈ nodes) {bound : Nat}
    (enough : nodes.length ≤ bound) {start node : α} :
    node ∈ successors next bound start ↔
      Relation.TransGen (fun lower upper => upper ∈ next lower) start node := by
  obtain ⟨covered, stepped⟩ := explore_closed next nodes (fun lower _ => closed lower) bound []
    (next start) (closed start) (room_of_length nodes [] bound enough)
  constructor
  · intro listed
    obtain ⟨first, step, path⟩ := explore_sound next bound [] (next start) node listed
    exact .head' step path
  · intro path
    induction path with
    | single step => exact (covered _ step).resolve_left List.not_mem_nil
    | tail _ step listed => exact (stepped _ listed _ step).resolve_left List.not_mem_nil

end ClassAtlas.Reachability
