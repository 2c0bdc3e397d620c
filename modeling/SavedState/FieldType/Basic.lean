import SavedState.NameSet

/-!
The erased type of a field: a name, generic arguments, array dimensions, and the names of the
classes and interfaces that the named class is known to extend.
-/

namespace SavedState

structure FieldType where
  name : String
  arguments : List FieldType
  dimensions : Nat
  supertypes : NameSet

namespace FieldType

/-- A plain name, without arguments, dimensions or known supertypes. -/
def named (name : String) : FieldType := ⟨name, [], 0, .empty⟩

def isArray (t : FieldType) : Bool := t.dimensions != 0

/-- The type of an array's entries. -/
def component? (t : FieldType) : Option FieldType :=
  match t.dimensions with
  | 0 => none
  | n + 1 => some { t with dimensions := n }

/-- An array is a subtype of no class. -/
def isSubtype (t : FieldType) (ancestor : String) : Bool :=
  !t.isArray && (t.name == ancestor || t.supertypes.contains ancestor)

def brackets (dimensions : Nat) : String := String.join (List.replicate dimensions "[]")

mutual

def render : FieldType → String
  | ⟨name, arguments, dimensions, _⟩ => name ++ renderArguments arguments ++ brackets dimensions

def renderArguments : List FieldType → String
  | [] => ""
  | a :: as => "<" ++ render a ++ renderMore as ++ ">"

def renderMore : List FieldType → String
  | [] => ""
  | a :: as => ", " ++ render a ++ renderMore as

end

mutual

/-- Adds to every node of the type what `parents` knows of its name. -/
def inherit (parents : String → List String) : FieldType → FieldType
  | ⟨name, arguments, dimensions, supertypes⟩ =>
    ⟨name, inheritAll parents arguments, dimensions, supertypes.insertAll (parents name)⟩

def inheritAll (parents : String → List String) : List FieldType → List FieldType
  | [] => []
  | a :: as => inherit parents a :: inheritAll parents as

end

mutual

/-- The nodes of the type in pre-order, each with its depth. -/
def nodes (depth : Nat) : FieldType → List (Nat × FieldType)
  | ⟨name, arguments, dimensions, supertypes⟩ =>
    (depth, ⟨name, arguments, dimensions, supertypes⟩) :: nodesAll (depth + 1) arguments

def nodesAll (depth : Nat) : List FieldType → List (Nat × FieldType)
  | [] => []
  | a :: as => nodes depth a ++ nodesAll depth as

end

mutual

def equal : FieldType → FieldType → Bool
  | ⟨name, arguments, dimensions, supertypes⟩, ⟨name', arguments', dimensions', supertypes'⟩ =>
    name == name' && dimensions == dimensions' && supertypes == supertypes' &&
      equalAll arguments arguments'

def equalAll : List FieldType → List FieldType → Bool
  | [], [] => true
  | a :: as, b :: bs => equal a b && equalAll as bs
  | _, _ => false

end

mutual

theorem equal_iff : ∀ {s t : FieldType}, equal s t = true ↔ s = t
  | ⟨_, arguments, _, _⟩, ⟨_, arguments', _, _⟩ => by
    have h := @equalAll_iff arguments arguments'
    simp [equal, h]
    grind

theorem equalAll_iff : ∀ {as bs : List FieldType}, equalAll as bs = true ↔ as = bs
  | [], [] => by simp [equalAll]
  | [], _ :: _ => by simp [equalAll]
  | _ :: _, [] => by simp [equalAll]
  | a :: as, b :: bs => by
    have h := @equal_iff a b
    have hs := @equalAll_iff as bs
    simp [equalAll, h, hs]

end

instance : DecidableEq FieldType := fun _ _ => decidable_of_iff _ equal_iff

end FieldType

end SavedState
