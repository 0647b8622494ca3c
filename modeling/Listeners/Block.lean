import Listeners.Binding.Read
import Listeners.Expression
import Listeners.Modifier
/-!
The code of handlers and of the whole block of listeners. It depends on the table and
the options alone.
-/
namespace Listeners

/-- The handler of an event to which nothing is bound. -/
def noop : String := "function()\x7b\x7d"

def handlerFunction (o : Options) (body : String) : String :=
  "function(" ++ o.eventParam ++ ")\x7b" ++ body ++ "\x7d"

/-- Without modifiers a callable value is the handler itself. With modifiers the guards come first,
and a path is called with the event. -/
def Binding.code (o : Options) (event : String) (b : Binding) : String :=
  if b.hasModifiers then
    let call := if Expression.isSimplePath b.value then "(" ++ o.eventParam ++ ")" else ""
    handlerFunction o ((Prologue.ofModifiers event b.modifierNames).code o ++ b.value ++ call)
  else if (Expression.kind b.value).callable then b.value
  else handlerFunction o b.value

def slotCode (o : Options) (event : String) : Option Binding → String
  | some b => b.code o event
  | none => noop

def Handler.code (o : Options) (event : String) : Handler → String
  | single b => b.code o event
  | several slots => Json.writeList (slots.map (slotCode o event))

def entryCode (o : Options) (event : String) : Option Handler → String
  | some h => h.code o event
  | none => noop

def blockLabel (native : Bool) : String := if native then "nativeOn" else "on"

def Table.code (o : Options) (native : Bool) (t : Table) : String :=
  blockLabel native ++ ":" ++
    Json.writeObject (t.entries.map fun (event, handler) => (event, entryCode o event handler))

def generate (o : Options) (native : Bool) (text : String) : Except Json.Malformed String :=
  (Table.read text).map (Table.code o native)

end Listeners
