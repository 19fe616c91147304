import ClassAtlas.Types.Spelling

/-!
# Field and method descriptors

A field descriptor is a letter of a primitive type, a class name between `L` and a
semicolon, or a bracket before the descriptor of a component. A method descriptor is
a parenthesised sequence of field descriptors followed by one more. The reader takes
one descriptor off the front of a text and returns what follows it.
-/

namespace ClassAtlas

namespace TypeName

/-- Take one field descriptor off the front. There is no array of `void`, but `void`
alone is read, since it stands as a return type. -/
def takeDescriptor : List Char → Option (TypeName × List Char)
  | [] => none
  | 'L' :: rest =>
    match Name.splitFirst ';' rest with
    | some (name, after) => (ofObjectName name).toOption.map fun type => (type, after)
    | none => none
  | '[' :: rest =>
    match takeDescriptor rest with
    | some (primitive .void, _) => none
    | some (component, after) => some (array component, after)
    | none => none
  | symbol :: rest => (Primitive.ofLetter? symbol).map fun kind => (primitive kind, rest)

/-- A descriptor takes at least one letter. -/
theorem takeDescriptor_length {letters after : List Char} {type : TypeName}
    (taken : takeDescriptor letters = some (type, after)) : after.length < letters.length := by
  fun_induction takeDescriptor letters generalizing type after with
  | case1 => simp at taken
  | case2 rest name tail found =>
    obtain ⟨_, _, same⟩ := Option.map_eq_some_iff.1 taken
    obtain ⟨shape, _⟩ := Name.splitFirst_eq_some found
    have tailIs : tail = after := congrArg Prod.snd same
    subst tailIs
    simp only [shape, List.length_cons, List.length_append]
    omega
  | case3 => simp at taken
  | case4 => simp at taken
  | case5 rest component tail _ found inductionHypothesis =>
    have tailIs : tail = after := congrArg Prod.snd (Option.some.inj taken)
    subst tailIs
    have shorter := inductionHypothesis found
    simp only [List.length_cons]
    omega
  | case6 => simp at taken
  | case7 symbol rest =>
    obtain ⟨_, _, same⟩ := Option.map_eq_some_iff.1 taken
    have tailIs : rest = after := congrArg Prod.snd same
    subst tailIs
    simp

/-- Read a whole text as a field descriptor. -/
def ofDescriptor (text : String) : Except SpellingError TypeName :=
  match takeDescriptor text.toList with
  | some (type, []) => .ok type
  | _ => .error (.invalid text)

end TypeName

/-- The types of a method: its parameters in order and what it returns. -/
structure MethodDescriptor where
  parameters : List TypeName
  returnType : TypeName
  deriving DecidableEq, Repr

namespace MethodDescriptor

/-- Take parameters up to and including the closing parenthesis. A parameter is refused
when its name is that of `void`, whether or not it is the primitive type. -/
def takeParameters (letters : List Char) : Option (List TypeName × List Char) :=
  match letters with
  | [] => none
  | ')' :: rest => some ([], rest)
  | others =>
    match _taken : TypeName.takeDescriptor others with
    | none => none
    | some (type, after) =>
      if type.sameName (.primitive .void) then none
      else (takeParameters after).map fun (types, rest) => (type :: types, rest)
termination_by letters.length
decreasing_by exact TypeName.takeDescriptor_length _taken

/-- Read a method descriptor such as `(ILjava/lang/String;)[I`. -/
def parse? : List Char → Option MethodDescriptor
  | '(' :: rest =>
    match takeParameters rest with
    | some (parameters, after) =>
      match TypeName.takeDescriptor after with
      | some (returnType, []) => some { parameters, returnType }
      | _ => none
    | none => none
  | _ => none

/-- Read a method descriptor, or name the text that is none. -/
def parse (text : String) : Except SpellingError MethodDescriptor :=
  match parse? text.toList with
  | some descriptor => .ok descriptor
  | none => .error (.invalid text)

/-- What is read as a method descriptor was taken off part by part. -/
theorem taken_of_parse {text : String} {descriptor : MethodDescriptor}
    (read : parse text = .ok descriptor) : ∃ rest after, text.toList = '(' :: rest ∧
      takeParameters rest = some (descriptor.parameters, after) ∧
      TypeName.takeDescriptor after = some (descriptor.returnType, []) := by
  rw [parse] at read
  split at read
  · rename_i found
    cases read
    rw [parse?.eq_def] at found
    split at found
    · rename_i starts
      split at found
      · rename_i parametersTaken
        split at found
        · rename_i returnTaken
          cases found
          exact ⟨_, _, starts, parametersTaken, returnTaken⟩
        · simp at found
      · simp at found
    · simp at found
  · simp at read

/-- The descriptor's text, with slashed class names. -/
def render (descriptor : MethodDescriptor) : String :=
  "(" ++ String.join (descriptor.parameters.map TypeName.descriptor) ++ ")" ++
    descriptor.returnType.descriptor

/-- The parameter part of a descriptor's text, `(I)` for `(I)V`; all of a text that
closes no parenthesis. Two methods that differ here only in what follows are taken
for the same by access resolution. -/
def parameterPart (text : String) : String :=
  match Name.splitFirst ')' text.toList with
  | some (before, _) => String.ofList (before ++ [')'])
  | none => text

end MethodDescriptor

end ClassAtlas
