import ClassAtlas.Proofs.WellFormed

/-!
# Ancestors in linked graphs

The ancestors that stand in a node of a linked graph are exactly the other classes that its
superclass and interfaces lead to, the superclass line first. They were computed before the
last passes, but from supertypes that these passes leave alone, so that they are right for
the graph as it is handed out. No node comes without them: the classes that bodies name are
all numbered before the first body is linked.
-/

namespace ClassAtlas

open Relation Reachability

namespace Hierarchy

/-- The steps to superclasses depend on the superclasses of the nodes only. -/
theorem superclass_congr {left right : Array ClassNode}
    (same : ∀ id : ClassId,
      left[id]?.map ClassNode.superclass = right[id]?.map ClassNode.superclass) :
    superclass left = superclass right := by
  funext id
  simpa only [superclass, Option.bind_map, Function.comp_def] using
    congrArg (·.bind fun parent => parent) (same id)

/-- Ancestors depend on the supertypes of the classes and on nothing else of them. -/
theorem ancestors_congr {left right : Array ClassNode} (sameSize : left.size = right.size)
    (sameSuperclass : superclass left = superclass right)
    (sameInterfaces : interfaces left = interfaces right) (id : ClassId) :
    ancestors left id = ancestors right id := by
  have sameUpward : upward left = upward right := by
    funext lower
    rw [upward, upward, sameSuperclass, sameInterfaces]
  simp only [ancestors, superclassChain, otherAncestors, sameSize, sameSuperclass, sameInterfaces,
    sameUpward]

end Hierarchy

/-- What the ancestors listed in a node have to be: the other classes that are reached in
one or more steps up, each once, and the superclass line before the rest. -/
structure ClassNode.AncestorsExact (classes : Array ClassNode) (id : ClassId) (node : ClassNode) :
    Prop where
  distinct : node.ancestors.Nodup
  reached : ∀ upper, upper ∈ node.ancestors ↔
    upper ≠ id ∧ TransGen (Hierarchy.Extends classes) id upper
  lineFirst : ∃ line others, node.ancestors = line ++ others ∧
    IsLine (Hierarchy.superclass classes) id line

namespace Link

variable {records : List TypedRecord} {missing : List String}

/-- The later passes leave the superclasses as they were declared. -/
theorem graph_superclass : Hierarchy.superclass (graph records missing).classes =
    Hierarchy.superclass (declaredNodes (number records missing) (rows records missing)) :=
  Hierarchy.superclass_congr
    (graph_view_declared ClassNode.superclass (fun _ => rfl) (fun _ _ => rfl))

/-- The later passes leave the interfaces as they were declared. -/
theorem graph_interfaces : Hierarchy.interfaces (graph records missing).classes =
    Hierarchy.interfaces (declaredNodes (number records missing) (rows records missing)) := by
  funext id
  exact congrArg (·.getD [])
    (graph_view_declared ClassNode.interfaces (fun _ => rfl) (fun _ _ => rfl) id)

/-- The ancestors in a node are those of the linked hierarchy. -/
theorem graph_ancestors (readable : ∀ typed ∈ records, typed.types.Readable) {id : ClassId}
    {node : ClassNode} (stands : (graph records missing).classes[id]? = some node) :
    node.ancestors = Hierarchy.ancestors (graph records missing).classes id := by
  have sameSize : (graph records missing).classes.size =
      (declaredNodes (number records missing) (rows records missing)).size := by
    rw [size_graph_classes, size_declaredNodes]
  rw [Hierarchy.ancestors_congr sameSize graph_superclass graph_interfaces]
  have sameAncestors := @graph_view records missing _ ClassNode.ancestors (fun _ => rfl) id
  rw [stands, nodes, withAncestors, Array.getElem?_map, Option.map_some, Option.map_map, eq_comm,
    Option.map_eq_some_iff] at sameAncestors
  obtain ⟨declared, atId, same⟩ := sameAncestors
  rw [← same, Function.comp_apply, (declaredNodes_within readable id declared atId).id]

/-- The supertypes of classes in a linked graph are classes of the graph. -/
theorem graph_closed (readable : ∀ typed ∈ records, typed.types.Readable) :
    Hierarchy.Closed (graph records missing).classes := by
  have within := @graph_classes_within records missing readable
  rw [← size_graph_classes] at within
  exact closed_of_within within

/-- Every class of a linked graph lists its superclass line and then the other ancestors. -/
theorem graph_listing (readable : ∀ typed ∈ records, typed.types.Readable) {id : ClassId}
    {node : ClassNode} (stands : (graph records missing).classes[id]? = some node) :
    Hierarchy.Listing (graph records missing).classes id
      (Hierarchy.superclassChain (graph records missing).classes id)
      (Hierarchy.otherAncestors (graph records missing).classes id) where
  isLine := Hierarchy.superclassChain_is_line (graph_closed readable)
    (Array.getElem?_eq_some_iff.mp stands).1
  split := by
    rw [Hierarchy.listed, stands, Option.map_some, Option.getD_some,
      graph_ancestors readable stands, Hierarchy.ancestors]
  apart := Hierarchy.otherAncestors_fresh id

/-- What a node of the graph lists as an ancestor is reached from it. -/
theorem graph_reached (readable : ∀ typed ∈ records, typed.types.Readable) (lower : ClassId) :
    ∀ upper ∈ Hierarchy.listed (graph records missing).classes lower,
      TransGen (Hierarchy.Extends (graph records missing).classes) lower upper := by
  intro upper isListed
  cases stands : (graph records missing).classes[lower]? with
  | none => simp [Hierarchy.listed, stands] at isListed
  | some node =>
    rw [Hierarchy.listed, stands, Option.map_some, Option.getD_some,
      graph_ancestors readable stands] at isListed
    exact Hierarchy.ancestors_sound (graph_closed readable)
      (Array.getElem?_eq_some_iff.mp stands).1 isListed

/-- The types that bodies name: the classes they access members of, and those they refer
to. -/
def bodyTypes (records : List TypedRecord) : List TypeName :=
  records.flatMap fun typed => typed.types.methods.flatMap fun method =>
    method.accessOwners ++ method.typeMentions

/-- Bodies bring no class in that has no number yet. -/
theorem number_of_bodyTypes : (number records missing).internAll (bodyTypes records) =
    number records missing := by
  apply ClassTable.internAll_of_knows
  intro type named
  obtain ⟨typed, present, inRecord⟩ := List.mem_flatMap.mp named
  obtain ⟨method, isMethod, inMethod⟩ := List.mem_flatMap.mp inRecord
  apply number_knows_method records missing present isMethod
  rcases List.mem_append.mp inMethod with accessed | referred
  · simp [MethodTypes.mentions, accessed]
  · simp [MethodTypes.mentions, referred]

end Link

/-- In the graph of any pool, however its hierarchy runs, every node lists exactly its
ancestors. Its nodes are those of the types numbered at first, to which bodies add none. -/
theorem ClassPool.link_ancestors_exact (pool : ClassPool) :
    Throughout pool.link.1.classes (ClassNode.AncestorsExact pool.link.1.classes) ∧
    pool.link.1.classes.map ClassNode.type =
      (Link.number pool.typedRecords pool.missingNames).types ∧
    (Link.number pool.typedRecords pool.missingNames).internAll
      (Link.bodyTypes pool.typedRecords) = Link.number pool.typedRecords pool.missingNames := by
  rw [link_graph]
  refine ⟨?_, ?_, Link.number_of_bodyTypes⟩
  · intro id node stands
    have closed := @Link.graph_closed _ pool.missingNames (@readable_of_mem_typedRecords pool)
    have inside := (Array.getElem?_eq_some_iff.mp stands).1
    have isListed := Link.graph_ancestors readable_of_mem_typedRecords stands
    refine ⟨?_, ?_, ?_⟩
    · rw [isListed]
      exact Hierarchy.ancestors_nodup closed inside
    · intro upper
      rw [isListed]
      exact Hierarchy.mem_ancestors_iff closed inside
    · exact ⟨_, _, isListed, Hierarchy.superclassChain_is_line closed inside⟩
  · apply Array.ext_getElem?
    intro id
    rw [Array.getElem?_map, Link.graph_types]

end ClassAtlas
