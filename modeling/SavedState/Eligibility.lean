import SavedState.Diagnostic

/-!
Which fields a helper class can reach and assign. A helper stands beside the declaring type in
its package but is another class, so a field must be neither private nor protected, and it must
be a variable of each object.
-/

namespace SavedState

/-- The modifiers that a saved field must not have, in the order in which they are named. -/
def disallowedModifiers : List Modifier := [.private, .protected, .static, .final]

namespace Element

def disallowed (e : Element) : List Modifier := disallowedModifiers.filter e.modifiers.has

def isEligible (e : Element) : Bool := e.disallowed.isEmpty

/-- What is reported of an element with disallowed modifiers. -/
def rejection (severity : Severity) (e : Element) : Diagnostic :=
  ⟨severity, .ofElement e,
    "field must not be private, protected, static or final (found " ++
      ", ".intercalate (e.disallowed.map Modifier.word) ++ ")"⟩

def check (severity : Severity) (e : Element) : Option Diagnostic :=
  if e.isEligible then none else some (e.rejection severity)

end Element

def eligible (elements : List Element) : List Element := elements.filter Element.isEligible

def rejections (severity : Severity) (elements : List Element) : List Diagnostic :=
  elements.filterMap (Element.check severity)

theorem length_eligible_add_length_rejections (severity : Severity) (elements : List Element) :
    (eligible elements).length + (rejections severity elements).length = elements.length := by
  induction elements with
  | nil => rfl
  | cons e es ih =>
    by_cases h : e.isEligible = true <;>
      simp_all [eligible, rejections, Element.check] <;> omega

end SavedState
