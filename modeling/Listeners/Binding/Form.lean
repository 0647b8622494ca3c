import Listeners.Binding
import Listeners.Json.Value
/-!
Which trees are bindings and handlers. A binding is an object, in which `value` stands
once and `modifiers` at most once, or a list of the value and perhaps the modifiers. Any
other list whose elements are bindings or `null` is a handler of several bindings.
-/
namespace Listeners
open Json

def Modifiers.flag? : String × Value → Option (String × Bool)
  | (name, .boolean b) => some (name, b)
  | _ => none

/-- A map of flags; a name that is repeated keeps its place and takes its last flag. -/
def Modifiers.ofMembers? (members : List (String × Value)) : Option Modifiers :=
  (members.mapM flag?).map Ordered.ofList

def Modifiers.ofValue? : Value → Option (Option Modifiers)
  | .null => some none
  | .object members => (Modifiers.ofMembers? members).map some
  | _ => none

namespace Binding

def ofParts? : List Value → List Value → Option Binding
  | [.string value], [] => some { value }
  | [.string value], [m] => (Modifiers.ofValue? m).map fun modifiers => { value, modifiers }
  | _, _ => none

def ofValue? : Value → Option Binding
  | .object members => ofParts? (membersNamed "value" members) (membersNamed "modifiers" members)
  | .list items => ofParts? (items.take 1) (items.drop 1)
  | _ => none

def slot? : Value → Option (Option Binding)
  | .null => some none
  | v => (ofValue? v).map some

end Binding

def Handler.ofValue? (v : Value) : Option Handler :=
  match Binding.ofValue? v, v with
  | some b, _ => some (.single b)
  | none, .list items => (items.mapM Binding.slot?).map .several
  | none, _ => none

end Listeners
