import Listeners.Json.Write
import Listeners.Text.Classes
/-!
A scan of generated code that sees strings and brackets and nothing else, and the cutting of
a text at the commas outside both. Texts that leave the scan where it was are put together
here; which texts do is shown where they are generated.
-/
namespace Listeners

namespace Nesting

/-- Outside strings, inside a string of the given quote, or behind a backslash in one. -/
inductive Mode where
  | outside
  | inside (quote : Char)
  | skipping (quote : Char)
  deriving DecidableEq, Repr

def brackets : List (Char × Char) := [('(', ')'), ('[', ']'), ('\x7b', '\x7d')]

def isOpener (c : Char) : Bool := brackets.any (·.1 == c)

def isCloser (c : Char) : Bool := brackets.any (·.2 == c)

end Nesting

structure Nesting where
  mode : Nesting.Mode
  openers : List Char
  deriving DecidableEq, Repr

namespace Nesting

def start : Nesting := ⟨.outside, []⟩

/-- A closer that does not close the innermost bracket stops the scan. -/
def step (s : Nesting) (c : Char) : Option Nesting :=
  match s.mode with
  | .outside =>
    if Text.isQuote c then some { s with mode := .inside c }
    else if isOpener c then some { s with openers := c :: s.openers }
    else if isCloser c then
      match s.openers with
      | opener :: below => if (opener, c) ∈ brackets then some { s with openers := below } else none
      | [] => none
    else some s
  | .inside q =>
    if c = '\\' then some { s with mode := .skipping q }
    else if c = q then some { s with mode := .outside }
    else some s
  | .skipping q => some { s with mode := .inside q }

def scan (s : Nesting) (text : List Char) : Option Nesting := text.foldlM step s

/-- A step that takes no comma outside strings and brackets. -/
def within (s : Nesting) (c : Char) : Option Nesting := if c = ',' ∧ s = start then none else s.step c

/-- The pieces between the commas outside strings and brackets, if the scan ends where it started.
-/
def pieces (s : Nesting) : List Char → Option (List (List Char))
  | [] => if s = start then some [[]] else none
  | c :: r =>
    if c = ',' ∧ s = start then (pieces start r).map ([] :: ·)
    else (s.step c).bind fun t => (pieces t r).map (List.modifyHead (c :: ·))

end Nesting

open Nesting

def Balanced (text : String) : Prop := scan start text.toList = some start

instance (text : String) : Decidable (Balanced text) :=
  inferInstanceAs (Decidable (scan start text.toList = some start))

def Sealed (text : String) : Prop :=
  ∀ before behind, text.toList = before ++ ',' :: behind → scan start before ≠ some start

/-- The pieces of a text between its commas; an empty text has none. -/
def cut (text : String) : Option (List String) :=
  if text = "" then some [] else (pieces start text.toList).map (List.map String.ofList)

/-- The text takes a scan from `s` to `t`, and no comma of it stands outside strings and brackets.
-/
def Passes (s : Nesting) (text : String) (t : Nesting) : Prop := text.toList.foldlM within s = some t

instance (s : Nesting) (text : String) (t : Nesting) : Decidable (Passes s text t) :=
  inferInstanceAs (Decidable (text.toList.foldlM within s = some t))

def Steady (text : String) : Prop := ∀ openers, Passes ⟨.outside, openers⟩ text ⟨.outside, openers⟩

namespace Nesting

theorem within_some {s t : Nesting} {c : Char} (h : s.within c = some t) : s.step c = some t := by
  unfold within at h
  split at h
  · cases h
  · exact h

theorem scan_of_within {s t : Nesting} {text : List Char} (h : text.foldlM within s = some t) :
    scan s text = some t := by
  induction text generalizing s with
  | nil => exact h
  | cons c r ih =>
    rw [List.foldlM_cons] at h
    obtain ⟨u, first, later⟩ := Option.bind_eq_some_iff.1 h
    rw [scan, List.foldlM_cons, within_some first]
    exact ih later

theorem step_over {s t : Nesting} {c : Char} (below : List Char) (h : s.step c = some t) :
    step ⟨s.mode, s.openers ++ below⟩ c = some ⟨t.mode, t.openers ++ below⟩ := by
  obtain ⟨mode, openers⟩ := s
  cases mode with
  | outside =>
    simp only [step] at h ⊢
    split at h
    · next quote => cases h; simp [quote]
    · next noQuote =>
      split at h
      · next opener => cases h; simp [noQuote, opener]
      · next noOpener =>
        split at h
        · next closer =>
          cases openers with
          | nil => cases h
          | cons opener rest =>
            simp only [Option.ite_none_right_eq_some] at h
            obtain ⟨pair, same⟩ := h
            cases same
            simp [noQuote, noOpener, closer, pair]
        · next noCloser => cases h; simp [noQuote, noOpener, noCloser]
  | inside q =>
    simp only [step] at h ⊢
    split at h
    · next backslash => cases h; simp [backslash]
    · next noBackslash =>
      split at h
      · next close => cases h; simp [noBackslash, ← close]
      · next other => cases h; simp [noBackslash, other]
  | skipping q =>
    cases h
    rfl

theorem within_over {s t : Nesting} {text : List Char} (opener : Char) (below : List Char)
    (h : scan s text = some t) :
    text.foldlM within ⟨s.mode, s.openers ++ opener :: below⟩ =
      some ⟨t.mode, t.openers ++ opener :: below⟩ := by
  induction text generalizing s with
  | nil =>
    cases h
    rfl
  | cons c r ih =>
    rw [scan, List.foldlM_cons] at h
    obtain ⟨u, first, later⟩ := Option.bind_eq_some_iff.1 h
    have under : (⟨s.mode, s.openers ++ opener :: below⟩ : Nesting) ≠ start := by simp [start]
    have next_step : within ⟨s.mode, s.openers ++ opener :: below⟩ c =
        some ⟨u.mode, u.openers ++ opener :: below⟩ := by
      simp [within, under, step_over (opener :: below) first]
    rw [List.foldlM_cons, next_step]
    exact ih later

theorem within_of_scan {s t : Nesting} {text : List Char} (read : scan s text = some t)
    (no_comma : ∀ before behind, text = before ++ ',' :: behind → scan s before ≠ some start) :
    text.foldlM within s = some t := by
  induction text generalizing s with
  | nil => exact read
  | cons c r ih =>
    rw [scan, List.foldlM_cons] at read
    obtain ⟨u, first, later⟩ := Option.bind_eq_some_iff.1 read
    have inner : ¬ (c = ',' ∧ s = start) := by
      rintro ⟨rfl, rfl⟩
      exact no_comma [] r rfl rfl
    have further : ∀ before behind, r = before ++ ',' :: behind → scan u before ≠ some start := by
      intro before behind split reached
      refine no_comma (c :: before) behind (by simp [split]) ?_
      rw [scan, List.foldlM_cons, first]
      exact reached
    rw [List.foldlM_cons, within, if_neg inner, first]
    exact ih later further

theorem no_comma_of_within {s t : Nesting} {text : List Char} (h : text.foldlM within s = some t)
    (before behind : List Char) (split : text = before ++ ',' :: behind) :
    scan s before ≠ some start := by
  intro reached
  subst split
  rw [List.foldlM_append] at h
  obtain ⟨u, first, later⟩ := Option.bind_eq_some_iff.1 h
  have same : u = start := Option.some.inj ((scan_of_within first).symm.trans reached)
  subst same
  simp [within] at later

theorem pieces_append {s : Nesting} {text : List Char} (h : text.foldlM within s = some start)
    (r : List Char) :
    pieces s (text ++ r) = (pieces start r).map (List.modifyHead (text ++ ·)) := by
  induction text generalizing s with
  | nil =>
    cases h
    cases rest : pieces start r with
    | none => simp [rest]
    | some ps => cases ps <;> simp [rest]
  | cons c t ih =>
    rw [List.foldlM_cons] at h
    obtain ⟨u, first, later⟩ := Option.bind_eq_some_iff.1 h
    have inner : ¬ (c = ',' ∧ s = start) := by
      intro comma
      simp [within, comma] at first
    rw [List.cons_append, pieces, if_neg inner, within_some first, Option.bind_some, ih later,
      Option.map_map]
    congr 1
    funext ps
    cases ps <;> simp

end Nesting

theorem Passes.append {s t u : Nesting} {a b : String} (first : Passes s a t) (second : Passes t b u) :
    Passes s (a ++ b) u := by
  unfold Passes at first second ⊢
  rw [String.toList_append, List.foldlM_append, first]
  exact second

theorem Passes.balanced {text : String} (passes : Passes start text start) : Balanced text :=
  scan_of_within passes

theorem Passes.sealed {s : Nesting} {text : String} (passes : Passes start text s) : Sealed text :=
  no_comma_of_within passes

theorem Balanced.passes {text : String} (balanced : Balanced text) (sealed_text : Sealed text) :
    Passes start text start :=
  within_of_scan balanced sealed_text

theorem Balanced.inside {text : String} (balanced : Balanced text) (opener : Char)
    (below : List Char) :
    Passes ⟨.outside, opener :: below⟩ text ⟨.outside, opener :: below⟩ :=
  within_over opener below balanced

theorem Balanced.append {a b : String} (first : Balanced a) (second : Balanced b) :
    Balanced (a ++ b) := by
  unfold Balanced scan at first second ⊢
  rw [String.toList_append, List.foldlM_append, first]
  exact second

theorem balanced_intercalate {separator : String} (between : Balanced separator)
    {texts : List String} (balanced : ∀ text ∈ texts, Balanced text) :
    Balanced (separator.intercalate texts) :=
  Json.forall_intercalate (by decide) (fun _ _ => Balanced.append) between balanced

theorem Steady.append {a b : String} (first : Steady a) (second : Steady b) : Steady (a ++ b) := by
  intro openers
  exact (first openers).append (second openers)

theorem steady_empty : Steady "" := by
  intro openers
  rfl

theorem steady_join {texts : List String} (steady : ∀ text ∈ texts, Steady text) :
    Steady (String.join texts) := by
  induction texts with
  | nil => exact steady_empty
  | cons first rest ih =>
    rw [String.join_cons]
    have tail := ih fun text member => steady text (List.mem_cons_of_mem first member)
    exact (steady first List.mem_cons_self).append tail

theorem steady_intercalate {separator : String} (between : Steady separator) {texts : List String}
    (steady : ∀ text ∈ texts, Steady text) : Steady (separator.intercalate texts) :=
  Json.forall_intercalate steady_empty (fun _ _ => Steady.append) between steady

def Plain (c : Char) : Prop :=
  Text.isQuote c = false ∧ isOpener c = false ∧ isCloser c = false ∧ c ≠ ','

theorem steady_of_plain {text : String} (plain : ∀ c ∈ text.toList, Plain c) : Steady text := by
  intro openers
  unfold Passes
  generalize text.toList = characters at plain
  induction characters with
  | nil => rfl
  | cons c r ih =>
    obtain ⟨noQuote, noOpener, noCloser, noComma⟩ := plain c List.mem_cons_self
    have same : within ⟨.outside, openers⟩ c = some ⟨.outside, openers⟩ := by
      simp [within, step, noQuote, noOpener, noCloser, noComma]
    rw [List.foldlM_cons, same]
    exact ih fun d member => plain d (List.mem_cons_of_mem c member)

theorem pieces_joined {first : String} {rest : List String}
    (passes : ∀ text ∈ first :: rest, Passes start text start) :
    pieces start (first.toList ++ rest.flatMap fun text => ",".toList ++ text.toList) =
      some ((first :: rest).map String.toList) := by
  induction rest generalizing first with
  | nil =>
    rw [pieces_append (passes first List.mem_cons_self)]
    simp [pieces]
  | cons second others ih =>
    have later := ih fun text member => passes text (List.mem_cons_of_mem first member)
    have comma : ",".toList = [','] := rfl
    rw [pieces_append (passes first List.mem_cons_self)]
    simpa [pieces, comma] using later

theorem cut_intercalate {texts : List String} (passes : ∀ text ∈ texts, Passes start text start)
    (some_text : ∀ text ∈ texts, text ≠ "") : cut (",".intercalate texts) = some texts := by
  cases texts with
  | nil => rfl
  | cons first rest =>
    have joined := Json.toList_intercalate_cons "," first rest
    have not_empty : ",".intercalate (first :: rest) ≠ "" := by
      intro empty
      rw [empty] at joined
      have nothing : first.toList = [] := (List.append_eq_nil_iff.1 joined.symm).1
      exact some_text first List.mem_cons_self (String.toList_eq_nil_iff.1 nothing)
    rw [cut, if_neg not_empty, joined, pieces_joined passes]
    simp

example : cut "f(a,b),',',[c,d]" = some ["f(a,b)", "','", "[c,d]"] := by decide

end Listeners
