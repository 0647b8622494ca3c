import Listeners.Binding.Form
import Listeners.Json.Kind
import Listeners.Json.Skip
import Listeners.Json.Tree
/-!
Reading tables, handlers and bindings from text. A handler inside a table is read whole
as a tree before its form is looked at; a binding that stands alone is read member by
member.
-/
namespace Listeners
open Json

namespace Table

def gather : Gather Table := fun table event =>
  .ok ((Reader.optional (Json.value (depthLimit - 1))).map fun
    | none => .ok (table.bindNothing event)
    | some v =>
      match Handler.ofValue? v with
      | some h => .ok (table.bind event h)
      | none => .error .noHandlerForm)

def reader : Reader Table := .object gather .empty

def read (text : String) : Except Malformed Table := readWhole reader.run text

end Table

def Handler.read (text : String) : Except Malformed Handler :=
  match (Json.value depthLimit).run text.toList with
  | .error fault => .error (fault.locate text.toList)
  | .ok (v, rest) =>
    match Handler.ofValue? v with
    | none => .error ⟨.noHandlerForm, none⟩
    | some h =>
      match skipSpace rest with
      | [] => .ok h
      | t => .error ((Fault.on .trailingText t).locate text.toList)

namespace Binding

def flags : Gather Modifiers := fun m name =>
  .ok (Reader.boolean.map fun b => .ok (m.insert name b))

def modifiersReader : Reader (Option Modifiers) := .optional (.object flags .empty)

structure Draft where
  value : Option String := none
  modifiers : Option (Option Modifiers) := none

/-- `value` and `modifiers` may stand once each; other members are passed over. -/
def gather : Gather Draft := fun draft name =>
  if name = "value" then
    if draft.value.isSome then .error (.repeated name)
    else .ok (Reader.string.map fun s => .ok { draft with value := some s })
  else if name = "modifiers" then
    if draft.modifiers.isSome then .error (.repeated name)
    else .ok (modifiersReader.map fun m => .ok { draft with modifiers := some m })
  else .ok (skipped.map fun _ => .ok draft)

def readMembers (s : List Char) : Except Fault (Binding × List Char) := do
  let (draft, rest) ← members gather {} s
  match draft.value with
  | some value => .ok ({ value, modifiers := draft.modifiers.join }, rest)
  | none => .error (.before (.missing "value") rest)

def readItems (s : List Char) : Except Fault (Binding × List Char) := do
  match ← firstItem s with
  | (false, r) => .error (.before .emptyRecord r)
  | (true, r) =>
    let (value, r) ← Reader.string.run r
    match ← nextItem r with
    | (false, r) => .ok ({ value }, r)
    | (true, r) =>
      let (modifiers, r) ← modifiersReader.run r
      let r ← closeRecord r
      .ok ({ value, modifiers }, r)

def scan (s : List Char) : Except Fault (Binding × List Char) :=
  match skipSpace s with
  | '{' :: r => readMembers r
  | '[' :: r => readItems r
  | t => .error (wrongKind .binding t)

def read (text : String) : Except Malformed Binding := readWhole scan text

end Binding

end Listeners
