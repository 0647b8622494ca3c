import Listeners.Json.Fault
/-!
Reading a value off the front of a text. A `Reader` uses at least one character, which
is why the loops over the elements of a list and the members of an object end.
-/
namespace Listeners.Json

abbrev Scan (α : Type) := List Char → Except Fault (α × List Char)

def Shortens (scan : Scan α) : Prop := ∀ {s a r}, scan s = .ok (a, r) → r.length < s.length

structure Reader (α : Type) where
  run : Scan α
  shortens : Shortens run

theorem bind_eq_ok {x : Except ε α} {f : α → Except ε β} {b : β} :
    (x >>= f) = .ok b ↔ ∃ a, x = .ok a ∧ f a = .ok b := by
  cases x <;> simp [bind, Except.bind]

theorem bind_eq_error {x : Except ε α} {f : α → Except ε β} {e : ε} :
    (x >>= f) = .error e ↔ x = .error e ∨ ∃ a, x = .ok a ∧ f a = .error e := by
  cases x <;> simp [bind, Except.bind]

theorem map_eq_ok {x : Except ε α} {f : α → β} {b : β} :
    x.map f = .ok b ↔ ∃ a, x = .ok a ∧ f a = b := by
  cases x <;> simp [Except.map]

theorem mapError_eq_ok {x : Except ε α} {f : ε → ε'} {a : α} :
    x.mapError f = .ok a ↔ x = .ok a := by
  cases x with
  | error d => exact ⟨nofun, nofun⟩
  | ok b => constructor <;> (rintro ⟨⟩; rfl)

theorem mapError_eq_error {x : Except ε α} {f : ε → ε'} {e : ε'} :
    x.mapError f = .error e ↔ ∃ d, x = .error d ∧ f d = e := by
  cases x with
  | error d =>
    constructor
    · rintro ⟨⟩
      exact ⟨d, rfl, rfl⟩
    · rintro ⟨_, ⟨⟩, rfl⟩
      rfl
  | ok b => exact ⟨nofun, nofun⟩

namespace Reader

def map (f : α → β) (reader : Reader α) : Reader β where
  run s := (reader.run s).map fun (a, r) => (f a, r)
  shortens h := by
    obtain ⟨⟨a, r⟩, ha, hb⟩ := map_eq_ok.1 h
    cases hb
    exact reader.shortens ha

@[simp] theorem run_map (f : α → β) (reader : Reader α) (s : List Char) :
    (reader.map f).run s = (reader.run s).map fun (a, r) => (f a, r) := rfl

end Reader

def isSpace (c : Char) : Bool := c == ' ' || c == '\n' || c == '\t' || c == '\r'

def skipSpace (s : List Char) : List Char := s.dropWhile isSpace

theorem length_skipSpace_le (s : List Char) : (skipSpace s).length ≤ s.length :=
  (List.dropWhile_sublist isSpace).length_le

theorem length_lt_of_skipSpace {s r : List Char} {c : Char} (h : skipSpace s = c :: r) :
    r.length < s.length := by
  have := length_skipSpace_le s
  rw [h, List.length_cons] at this
  omega

def word : List Char → List Char → Except Fault (List Char)
  | [], s => .ok s
  | _ :: _, [] => .error (.before .endInValue [])
  | w :: ws, c :: r => if c = w then word ws r else .error (.on .misspeltWord (c :: r))

theorem length_word_le {w s r : List Char} (h : word w s = .ok r) : r.length ≤ s.length := by
  induction w generalizing s with
  | nil => cases h; exact Nat.le_refl _
  | cons x w ih =>
    cases s with
    | nil => cases h
    | cons c t =>
      unfold word at h
      split at h
      · have := ih h
        rw [List.length_cons]
        omega
      · cases h

end Listeners.Json
