import Listeners.Json.Kind
import Listeners.Json.Skip
import Listeners.Options
/-!
Reading options from text: an object with either name or both, or a list of at most two
names. A name that is not given has its default.
-/
namespace Listeners.Options
open Json

structure Draft where
  eventParam : Option String := none
  keyResolver : Option String := none

def Draft.finish (d : Draft) : Options where
  eventParam := d.eventParam.getD ({} : Options).eventParam
  keyResolver := d.keyResolver.getD ({} : Options).keyResolver

/-- Each name may stand once; other members are passed over. -/
def gather : Gather Draft := fun draft name =>
  if name = Field.eventParam.name then
    if draft.eventParam.isSome then .error (.repeated name)
    else .ok (Reader.string.map fun s => .ok { draft with eventParam := some s })
  else if name = Field.keyResolver.name then
    if draft.keyResolver.isSome then .error (.repeated name)
    else .ok (Reader.string.map fun s => .ok { draft with keyResolver := some s })
  else .ok (skipped.map fun _ => .ok draft)

def readItems (s : List Char) : Except Fault (Draft × List Char) := do
  match ← firstItem s with
  | (false, r) => .ok ({}, r)
  | (true, r) =>
    let (eventParam, r) ← Reader.string.run r
    match ← nextItem r with
    | (false, r) => .ok ({ eventParam }, r)
    | (true, r) =>
      let (keyResolver, r) ← Reader.string.run r
      let r ← closeRecord r
      .ok ({ eventParam, keyResolver }, r)

def scan (s : List Char) : Except Fault (Options × List Char) := do
  let (draft, rest) ←
    match skipSpace s with
    | '{' :: r => members gather {} r
    | '[' :: r => readItems r
    | t => .error (wrongKind .options t)
  .ok (draft.finish, rest)

/-- Options from text; the names are not looked at. -/
def read (text : String) : Except Malformed Options := readWhole scan text

end Listeners.Options
