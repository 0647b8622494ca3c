import Listeners.Ordered
/-!
What a template binds to an event: an expression with modifiers, or a list of these
with empty places in it. Modifiers keep their order; each carries a flag that only the
written form shows.
-/
namespace Listeners

abbrev Modifiers := Ordered Bool

/-- An expression bound to an event. No modifiers at all and an empty map of them are told apart. -/
structure Binding where
  value : String
  modifiers : Option Modifiers := none

namespace Binding

def withModifier (b : Binding) (name : String) : Binding :=
  { b with modifiers := some ((b.modifiers.getD .empty).insert name true) }

def withModifiers (b : Binding) (names : List String) : Binding := names.foldl withModifier b

def modifierNames (b : Binding) : List String :=
  match b.modifiers with
  | some m => m.keys
  | none => []

def hasModifiers (b : Binding) : Bool :=
  match b.modifiers with
  | some m => !m.isEmpty
  | none => false

def agrees (a b : Binding) : Bool :=
  a.value == b.value &&
    match a.modifiers, b.modifiers with
    | some m, some n => m.agrees (· == ·) n
    | none, none => true
    | _, _ => false

end Binding

theorem hasModifiers_eq (b : Binding) : b.hasModifiers = !b.modifierNames.isEmpty := by
  unfold Binding.hasModifiers Binding.modifierNames
  cases b.modifiers with
  | none => rfl
  | some m => simp [Ordered.isEmpty, Ordered.keys, Ordered.names]

theorem hasModifiers_of_mem {b : Binding} {name : String} (listed : name ∈ b.modifierNames) :
    b.hasModifiers = true := by
  have some_name : b.modifierNames ≠ [] := List.ne_nil_of_mem listed
  simpa [hasModifiers_eq] using some_name

inductive Handler where
  | single (binding : Binding)
  | several (slots : List (Option Binding))

def sameOption (same : α → α → Bool) : Option α → Option α → Bool
  | some a, some b => same a b
  | none, none => true
  | _, _ => false

def sameList (same : α → α → Bool) : List α → List α → Bool
  | a :: as, b :: bs => same a b && sameList same as bs
  | [], [] => true
  | _, _ => false

namespace Handler

def agrees : Handler → Handler → Bool
  | single a, single b => a.agrees b
  | several as, several bs => sameList (sameOption Binding.agrees) as bs
  | _, _ => false

end Handler

/-- The events of a template in order, each with its handler or, where nothing is bound, with none.
-/
abbrev Table := Ordered (Option Handler)

namespace Table

def bind (t : Table) (event : String) (handler : Handler) : Table := t.insert event (some handler)

def bindNothing (t : Table) (event : String) : Table := t.insert event none

def agrees (a b : Table) : Bool := Ordered.agrees (sameOption Handler.agrees) a b

end Table

end Listeners
