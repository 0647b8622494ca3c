import Listeners.Json.Write
import Listeners.Text.Classes
import Listeners.Text.Shown
/-!
The two names that generated code uses: the parameter of every handler and the function
that resolves key names at run time. Names that come from outside must be identifiers.
-/
namespace Listeners

structure Options where
  eventParam : String := "$event"
  keyResolver : String := "_k"
  deriving DecidableEq, Repr

namespace Options

inductive Field where
  | eventParam
  | keyResolver
  deriving DecidableEq, Repr

def Field.name : Field → String
  | eventParam => "eventParam"
  | keyResolver => "keyResolver"

structure Invalid where
  field : Field
  value : String
  deriving DecidableEq, Repr

def Invalid.text (i : Invalid) : String :=
  "option `" ++ i.field.name ++ "` must be a JavaScript identifier, got " ++ Text.shown i.value

/-- Both names must be identifiers; the event parameter is looked at first. -/
def validate (o : Options) : Except Invalid Options :=
  if !Text.isIdentifier o.eventParam then .error ⟨.eventParam, o.eventParam⟩
  else if !Text.isIdentifier o.keyResolver then .error ⟨.keyResolver, o.keyResolver⟩
  else .ok o

theorem validate_eq_ok {o p : Options} :
    o.validate = .ok p ↔ p = o ∧
      Text.isIdentifier o.eventParam = true ∧ Text.isIdentifier o.keyResolver = true := by
  unfold validate
  cases Text.isIdentifier o.eventParam <;> cases Text.isIdentifier o.keyResolver <;> simp [eq_comm]

theorem validate_eq_error {o : Options} {i : Invalid} :
    o.validate = .error i ↔
      Text.isIdentifier o.eventParam = false ∧ i = ⟨.eventParam, o.eventParam⟩ ∨
      Text.isIdentifier o.eventParam = true ∧ Text.isIdentifier o.keyResolver = false ∧
        i = ⟨.keyResolver, o.keyResolver⟩ := by
  unfold validate
  cases Text.isIdentifier o.eventParam <;> cases Text.isIdentifier o.keyResolver <;> simp [eq_comm]

def ofNames (eventParam keyResolver : String) : Except Invalid Options :=
  validate { eventParam, keyResolver }

def write (o : Options) : String :=
  Json.writeObject
    [(Field.eventParam.name, Text.quote o.eventParam), (Field.keyResolver.name, Text.quote o.keyResolver)]

end Options

end Listeners
