import Listeners.Text.Quoted
/-!
Compact written forms: no space anywhere, members in their order.
-/
namespace Listeners.Json

def writeBoolean (b : Bool) : String := if b then "true" else "false"

def writeList (items : List String) : String := "[" ++ ",".intercalate items ++ "]"

def writeMember (name value : String) : String := Text.quote name ++ ":" ++ value

def writeObject (members : List (String × String)) : String :=
  "\x7b" ++ ",".intercalate (members.map fun (name, value) => writeMember name value) ++ "\x7d"

theorem toList_intercalate_cons (separator first : String) (rest : List String) :
    (separator.intercalate (first :: rest)).toList =
      first.toList ++ rest.flatMap fun s => separator.toList ++ s.toList := by
  induction rest generalizing first with
  | nil => simp
  | cons second rest ih =>
    rw [String.intercalate_cons_of_ne_nil (by simp)]
    simp [ih]

theorem forall_intercalate {P : String → Prop} (empty : P "")
    (append : ∀ a b, P a → P b → P (a ++ b)) {separator : String} (between : P separator)
    {texts : List String} (all : ∀ text ∈ texts, P text) : P (separator.intercalate texts) := by
  induction texts with
  | nil => exact empty
  | cons first rest ih =>
    have head := all first List.mem_cons_self
    have tail := ih fun text member => all text (List.mem_cons_of_mem first member)
    cases rest with
    | nil => simpa using head
    | cons second others =>
      rw [String.intercalate_cons_of_ne_nil (by simp)]
      exact append _ _ (append _ _ head between) tail

end Listeners.Json
