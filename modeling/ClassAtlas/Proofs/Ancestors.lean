import ClassAtlas.Graph.Hierarchy
import ClassAtlas.Proofs.Walks

/-!
# Ancestors are what supertypes lead to

A hierarchy is an array of nodes whose supertypes are numbers of nodes. The ancestors that
are computed for a class are the classes reached from it in one or more steps to a
superclass or interface, the class itself left out, and the superclass line comes first.
This holds of every hierarchy, also where it runs in a circle: neither the line nor the
search is told that it does not.

Both walks share what they have seen. The search starts from the interfaces of the class
and of its whole line, so that a class is missed by the search only where the line has it.
-/

namespace ClassAtlas.Hierarchy

open Relation Reachability

/-- One step up: a class names another as its superclass or as an interface. -/
def Extends (classes : Array ClassNode) (lower upper : ClassId) : Prop :=
  ∃ node, classes[lower]? = some node ∧ upper ∈ node.supertypes

/-- No step up leaves the array. -/
def Closed (classes : Array ClassNode) : Prop :=
  ∀ lower upper, Extends classes lower upper → upper < classes.size

/-- The ancestors that stand in the node of a class. -/
def listed (classes : Array ClassNode) (id : ClassId) : List ClassId :=
  (classes[id]?.map ClassNode.ancestors).getD []

/-- The ancestors in the node of a class begin with its superclass line; the others lie
neither on the line nor at its start. -/
structure Listing (classes : Array ClassNode) (id : ClassId) (line others : List ClassId) :
    Prop where
  isLine : IsLine (superclass classes) id line
  split : listed classes id = line ++ others
  apart : ∀ other ∈ others, other ∉ id :: line

variable {classes : Array ClassNode}

/-- The two lookups together are the steps up. -/
theorem extends_iff {lower upper : ClassId} :
    Extends classes lower upper ↔
      superclass classes lower = some upper ∨ upper ∈ interfaces classes lower := by
  cases found : classes[lower]? with
  | none => simp [Extends, superclass, interfaces, found]
  | some node =>
    simp [Extends, superclass, interfaces, found, ClassNode.supertypes, Option.mem_toList]

/-- The search takes exactly the steps up, in an order of its own. -/
theorem mem_upward_iff {lower upper : ClassId} :
    upper ∈ upward classes lower ↔ Extends classes lower upper := by
  simp only [upward, List.mem_append, Option.mem_toList, extends_iff]
  exact or_comm

/-- The superclass line of a class in a closed hierarchy. -/
theorem superclassChain_is_line (closed : Closed classes) {id : ClassId}
    (inside : id < classes.size) :
    IsLine (superclass classes) id (superclassChain classes id) := by
  apply chain_is_line (superclass classes) (List.range classes.size)
  · intro node _ upper step
    exact List.mem_range.mpr (closed node upper (extends_iff.mpr (Or.inl step)))
  · exact List.mem_range.mpr inside
  · simp

/-- What the search lists lies neither on the line nor at its start. -/
theorem otherAncestors_fresh (id : ClassId) :
    ∀ other ∈ otherAncestors classes id, other ∉ id :: superclassChain classes id :=
  explore_fresh _ _ _ _

/-- No ancestor is listed twice. -/
theorem ancestors_nodup (closed : Closed classes) {id : ClassId} (inside : id < classes.size) :
    (ancestors classes id).Nodup := by
  refine List.nodup_append.mpr ⟨?_, explore_nodup _ _ _ _, ?_⟩
  · exact (List.nodup_cons.mp (superclassChain_is_line closed inside).distinct).2
  · rintro upper onLine other searched rfl
    exact otherAncestors_fresh id upper searched (List.mem_cons_of_mem id onLine)

/-- No class is its own ancestor. -/
theorem not_mem_ancestors_self (closed : Closed classes) {id : ClassId}
    (inside : id < classes.size) : id ∉ ancestors classes id := by
  intro listed
  rcases List.mem_append.mp listed with onLine | searched
  · exact (List.nodup_cons.mp (superclassChain_is_line closed inside).distinct).1 onLine
  · exact otherAncestors_fresh id id searched List.mem_cons_self

/-- Every listed ancestor is reached by steps up. -/
theorem ancestors_sound (closed : Closed classes) {id upper : ClassId}
    (inside : id < classes.size) (listed : upper ∈ ancestors classes id) :
    TransGen (Extends classes) id upper := by
  have alongLine : ∀ node ∈ superclassChain classes id, TransGen (Extends classes) id node :=
    fun node onLine => TransGen.mono (fun _ _ step => extends_iff.mpr (Or.inl step)) _ _
      ((superclassChain_is_line closed inside).reaches onLine)
  rcases List.mem_append.mp listed with onLine | searched
  · exact alongLine upper onLine
  · obtain ⟨start, queued, path⟩ := explore_sound _ _ _ _ upper searched
    obtain ⟨node, fromLine, named⟩ := List.mem_flatMap.mp queued
    have step : Extends classes node start := extends_iff.mpr (Or.inr named)
    have onward : ReflTransGen (Extends classes) start upper :=
      ReflTransGen.mono (fun _ _ => mem_upward_iff.mp) _ _ path
    rcases List.mem_cons.mp fromLine with rfl | onLine
    · exact .trans_left (.single step) onward
    · exact .trans_left ((alongLine node onLine).tail step) onward

/-- Every listed ancestor is a class of the hierarchy. -/
theorem ancestors_lt_size (closed : Closed classes) {id upper : ClassId}
    (inside : id < classes.size) (listed : upper ∈ ancestors classes id) :
    upper < classes.size := by
  cases ancestors_sound closed inside listed with
  | single step => exact closed id upper step
  | tail _ step => exact closed _ upper step

/-- A class and its ancestors together are closed under steps up. On the line a superclass
is the next of the line and an interface waits in the queue; off the line the search itself
takes both. -/
theorem ancestors_closed (closed : Closed classes) {id node upper : ClassId}
    (inside : id < classes.size) (listed : node ∈ id :: ancestors classes id)
    (step : Extends classes node upper) : upper ∈ id :: ancestors classes id := by
  have stays : ∀ lower ∈ List.range classes.size, ∀ above ∈ upward classes lower,
      above ∈ List.range classes.size :=
    fun lower _ above up => List.mem_range.mpr (closed lower above (mem_upward_iff.mp up))
  have queueInside : ∀ other ∈ (id :: superclassChain classes id).flatMap (interfaces classes),
      other ∈ List.range classes.size := by
    intro other queued
    obtain ⟨lower, _, named⟩ := List.mem_flatMap.mp queued
    exact List.mem_range.mpr (closed lower other (extends_iff.mpr (Or.inr named)))
  obtain ⟨covered, stepped⟩ := explore_closed (upward classes) (List.range classes.size) stays
    classes.size (id :: superclassChain classes id) _ queueInside
    (room_of_length _ _ _ (by simp))
  have regroup (other : ClassId) (found : other ∈ id :: superclassChain classes id ∨
      other ∈ otherAncestors classes id) : other ∈ id :: ancestors classes id := by
    simpa only [ancestors, ← List.cons_append, List.mem_append] using found
  have place : node ∈ id :: superclassChain classes id ∨ node ∈ otherAncestors classes id := by
    simpa only [ancestors, ← List.cons_append, List.mem_append] using listed
  apply regroup
  rcases place with onLine | searched
  · rcases extends_iff.mp step with above | named
    · exact Or.inl ((superclassChain_is_line closed inside).step_mem onLine above)
    · exact covered upper (List.mem_flatMap.mpr ⟨node, onLine, named⟩)
  · exact stepped node searched upper (mem_upward_iff.mpr step)

/-- The ancestors of a class are the other classes that steps up lead to. -/
theorem mem_ancestors_iff (closed : Closed classes) {id upper : ClassId}
    (inside : id < classes.size) :
    upper ∈ ancestors classes id ↔ upper ≠ id ∧ TransGen (Extends classes) id upper := by
  constructor
  · intro listed
    refine ⟨?_, ancestors_sound closed inside listed⟩
    rintro rfl
    exact not_mem_ancestors_self closed inside listed
  · rintro ⟨different, path⟩
    have reached : upper ∈ id :: ancestors classes id := by
      induction path with
      | single step => exact ancestors_closed closed inside List.mem_cons_self step
      | @tail middle upper _ step inductionHypothesis =>
        by_cases back : middle = id
        · exact ancestors_closed closed inside List.mem_cons_self (back ▸ step)
        · exact ancestors_closed closed inside (inductionHypothesis back) step
    exact (List.mem_cons.mp reached).resolve_left different

end ClassAtlas.Hierarchy
