import Listeners.Json.Reader
import Listeners.Store
import Mathlib.Tactic.SplitIfs
/-!
Writing a file: its path leads to it afterwards, it holds what was written, and every other file
is as it was.
-/
namespace Listeners
open Json (bind_eq_ok)

theorem decodeText_eq_ok {bytes : ByteArray} {text : String} :
    decodeText bytes = .ok text ↔ bytes = text.toUTF8 := by
  constructor
  · intro decoded
    unfold decodeText String.fromUTF8? at decoded
    split at decoded
    · rename_i valid
      split at valid
      · cases valid
        cases decoded
        rfl
      · cases valid
    · cases decoded
  · rintro rfl
    simp only [decodeText, String.fromUTF8?, String.toUTF8_eq_toByteArray, dif_pos text.isValidUTF8]
    rfl

namespace Store

/-- The file that a path leads to, or the folder in its place. -/
def leadsTo? (store : Store) (path : String) : Option (List String) :=
  match path? path with
  | .ok p =>
    match store.walk p.start p.names with
    | .ok (.inside names) => some names
    | _ => none
  | .error _ => none

theorem step_eq_ok {store : Store} {place next : Place} {name : String} :
    store.step place name = .ok next ↔ store.isFolder place = true ∧
      (name = "." ∧ next = place ∨
        name = ".." ∧ next = place.parent ∨
        (name ≠ "." ∧ name ≠ ".." ∧ name.utf8ByteSize ≤ nameLimit ∧ place.child name = some next ∧
          (store.isFolder next = true ∨ (store.content? next).isSome = true))) := by
  constructor
  · intro stepped
    unfold step at stepped
    split_ifs at stepped with outside dot dots long
    · cases stepped
      exact ⟨by simpa using outside, .inl ⟨dot, rfl⟩⟩
    · cases stepped
      exact ⟨by simpa using outside, .inr (.inl ⟨dots, rfl⟩)⟩
    · split at stepped
      · cases stepped
      · rename_i place' child
        split_ifs at stepped with taken
        cases stepped
        refine ⟨by simpa using outside, .inr (.inr ⟨dot, dots, Nat.le_of_not_lt long, child, ?_⟩)⟩
        simpa using taken
  · rintro ⟨folder, ⟨rfl, rfl⟩ | ⟨rfl, rfl⟩ | ⟨dot, dots, short, child, taken⟩⟩
    · simp [step, folder]
    · simp [step, folder]
    · simp [step, folder, dot, dots, Nat.not_lt_of_le short, child, taken]

theorem walk_cons {store : Store} {place last : Place} {name : String} {names : List String} :
    store.walk place (name :: names) = .ok last ↔
      ∃ next, store.step place name = .ok next ∧ store.walk next names = .ok last := by
  rw [walk, List.foldlM_cons, bind_eq_ok]
  rfl

theorem walk_snoc {store : Store} {place last : Place} {names : List String} {name : String} :
    store.walk place (names ++ [name]) = .ok last ↔
      ∃ next, store.walk place names = .ok next ∧ store.step next name = .ok last := by
  rw [walk, List.foldlM_append, bind_eq_ok]
  simp only [List.foldlM_cons, List.foldlM_nil, bind_pure]
  rfl

theorem lookup_putFile (files : List (List String × ByteArray)) (names other : List String)
    (bytes : ByteArray) :
    (putFile files names bytes).lookup other =
      if other = names then some bytes else files.lookup other := by
  by_cases here : other = names
  · simp [putFile, here]
  · have passed : (other == names) = false := by simpa using here
    simp only [putFile, List.lookup_cons, passed, here, if_false]
    induction files with
    | nil => rfl
    | cons file rest ih =>
      obtain ⟨first, old⟩ := file
      by_cases same : first = names
      · subst same
        simpa [List.lookup_cons, passed] using ih
      · simp only [List.filter_cons, bne_iff_ne, ne_eq, same, not_false_eq_true, if_true,
          List.lookup_cons]
        rw [ih]

theorem content?_putFile (store : Store) (names : List String) (bytes : ByteArray) (place : Place) :
    ({ store with files := putFile store.files names bytes } : Store).content? place =
      if place = .inside names then some bytes else store.content? place := by
  cases place with
  | above => rfl
  | inside other => simp [content?, lookup_putFile]

theorem writeText_eq_ok {store store' : Store} {path text : String} :
    store.writeText path text = .ok store' ↔
      ∃ names, store.target path = .ok names ∧
        store' = { store with files := putFile store.files names text.toUTF8 } := by
  unfold writeText
  cases store.target path <;> simp [bind, Except.bind, eq_comm]

structure Grows (store store' : Store) : Prop where
  folders : store'.folders = store.folders
  files : ∀ place, (store.content? place).isSome → (store'.content? place).isSome

theorem grows_putFile (store : Store) (names : List String) (bytes : ByteArray) :
    Grows store { store with files := putFile store.files names bytes } where
  folders := rfl
  files place taken := by
    rw [content?_putFile]
    split
    · rfl
    · exact taken

namespace Grows

variable {store store' : Store} (grows : Grows store store')
include grows

theorem isFolder (place : Place) : store'.isFolder place = store.isFolder place := by
  unfold Store.isFolder
  rw [grows.folders]

theorem step {place next : Place} {name : String} (stepped : store.step place name = .ok next) :
    store'.step place name = .ok next := by
  rw [step_eq_ok] at stepped ⊢
  simp only [grows.isFolder]
  obtain ⟨folder, dot | dots | ⟨notDot, notDots, short, child, taken⟩⟩ := stepped
  · exact ⟨folder, .inl dot⟩
  · exact ⟨folder, .inr (.inl dots)⟩
  · exact ⟨folder, .inr (.inr ⟨notDot, notDots, short, child, taken.imp_right (grows.files next)⟩)⟩

theorem walk {place last : Place} {names : List String} (walked : store.walk place names = .ok last) :
    store'.walk place names = .ok last := by
  induction names generalizing place with
  | nil => exact walked
  | cons name rest ih =>
    obtain ⟨next, stepped, walked⟩ := walk_cons.1 walked
    exact walk_cons.2 ⟨next, grows.step stepped, ih walked⟩

end Grows

theorem target_eq_ok {store : Store} {path : String} {names : List String}
    (aimed : store.target path = .ok names) :
    ∃ p folder name, path? path = .ok p ∧ p.names = p.names.dropLast ++ [name] ∧
      store.walk p.start p.names.dropLast = .ok folder ∧ store.isFolder folder = true ∧
      name ≠ "." ∧ name ≠ ".." ∧ name.utf8ByteSize ≤ nameLimit ∧
      folder.child name = some (.inside names) := by
  unfold target at aimed
  obtain ⟨p, parsed, aimed⟩ := bind_eq_ok.1 aimed
  obtain ⟨folder, walked, aimed⟩ := bind_eq_ok.1 aimed
  split at aimed
  · cases aimed
  · rename_i name last
    split_ifs at aimed with outside special long
    split at aimed
    · cases aimed
    · rename_i place child
      split_ifs at aimed with taken
      split at aimed
      · cases aimed
        obtain ⟨dot, special⟩ := not_or.1 special
        obtain ⟨dots, noSlash⟩ := not_or.1 special
        have parts : p.names = p.names.dropLast ++ [name] := by
          obtain ⟨front, parts⟩ := List.getLast?_eq_some_iff.1 last
          simp [parts]
        exact ⟨p, folder, name, parsed, parts, walked, by simpa using outside, dot, dots,
          Nat.le_of_not_lt long, child⟩
      · cases aimed

theorem leadsTo_written {store : Store} {path : String} {names : List String} (bytes : ByteArray)
    (aimed : store.target path = .ok names) :
    leadsTo? { store with files := putFile store.files names bytes } path = some names := by
  obtain ⟨p, folder, name, parsed, parts, walked, inFolder, dot, dots, short, child⟩ :=
    target_eq_ok aimed
  -- a step can only fail for want of a file or a folder, so what led to the folder still does
  have grows := grows_putFile store names bytes
  have stepped : Store.step { store with files := putFile store.files names bytes } folder name =
      .ok (.inside names) := by
    rw [step_eq_ok, grows.isFolder]
    refine ⟨inFolder, .inr (.inr ⟨dot, dots, short, child, .inr ?_⟩)⟩
    simp [content?_putFile]
  have arrived : Store.walk { store with files := putFile store.files names bytes } p.start p.names =
      .ok (.inside names) := by
    rw [parts]
    exact walk_snoc.2 ⟨folder, grows.walk walked, stepped⟩
  simp [leadsTo?, parsed, arrived]

theorem leadsTo_read {store : Store} {path text : String} (read : store.readText path = .ok text) :
    ∃ names, store.leadsTo? path = some names ∧
      store.content? (.inside names) = some text.toUTF8 := by
  obtain ⟨bytes, read, decoded⟩ := bind_eq_ok.1 read
  obtain ⟨p, parsed, read⟩ := bind_eq_ok.1 read
  obtain ⟨place, walked, read⟩ := bind_eq_ok.1 read
  rw [decodeText_eq_ok] at decoded
  split at read
  · rename_i held content
    split_ifs at read
    cases read
    cases place with
    | above => cases content
    | inside names => exact ⟨names, by simp [leadsTo?, parsed, walked], by rw [content, decoded]⟩
  · cases read

end Store
end Listeners
