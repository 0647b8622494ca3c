import Listeners.Proofs.PrologueMeaning
import Mathlib.Data.List.Basic
/-!
Two prologues have the same text only where they have the same statements: the guards in their order
and the key codes in theirs. Nothing separates the parts of the text, so it is read part by part, and
what is read first settles where the rest begins. The two names of the options may be equal here.
-/
namespace Listeners
open Script Text

def Script.Operand.code (o : Options) : Operand → String
  | number n => Decimal.integer n
  | resolved name => o.keyResolver ++ "(" ++ quote name ++ ")"

/-- What a key filter for these keys compares the key code with, in order. -/
def operandsOf (keys : List String) : List Operand :=
  (keys.flatMap KeyCode.ofName).map Operand.ofCode

def guardNames (event : String) (names : List String) : List String :=
  names.filter fun name => ¬ NamesKey event name

def keyNames (event : String) (names : List String) : List String :=
  names.filter fun name => NamesKey event name

def Guard.modifier : Guard → String
  | stopPropagation => "stop"
  | preventDefault => "prevent"
  | selfTarget => "self"
  | held .ctrl => "ctrl"
  | held .shift => "shift"
  | held .alt => "alt"
  | held .metaKey => "meta"

theorem code_ofCode (o : Options) (c : KeyCode) : (Operand.ofCode c).code o = c.code o := by
  cases c <;> rfl

theorem comparison_injective (o : Options) : Function.Injective (Operand.comparison o) := by
  intro a b same
  cases a <;> cases b <;> simp_all [Operand.comparison]

theorem operandsOf_eq_nil_iff (keys : List String) : operandsOf keys = [] ↔ keys = [] := by
  constructor
  · intro none
    by_contra some_key
    obtain ⟨c, cs, codes⟩ := codes_cons some_key
    simp [operandsOf, codes] at none
  · rintro rfl
    rfl

theorem keyFilter_of_operands (o : Options) {keys others : List String}
    (same : operandsOf keys = operandsOf others) : keyFilter o keys = keyFilter o others := by
  have tests : ∀ keys, (keys.flatMap KeyCode.ofName).map (keyTest o) =
      (operandsOf keys).map fun x => o.eventParam ++ ".keyCode!==" ++ x.code o := by
    intro keys
    rw [operandsOf, List.map_map]
    refine List.map_congr_left fun c _ => ?_
    simp only [Function.comp_apply, code_ofCode, keyTest]
  rw [keyFilter, keyFilter, tests, tests, same]

theorem ofGuard_injective : Function.Injective Statement.ofGuard := by
  unfold Function.Injective
  intro g h
  rcases g with _ | _ | _ | _ | _ | _ | _ <;> rcases h with _ | _ | _ | _ | _ | _ | _ <;>
    simp [Statement.ofGuard]

theorem ofGuard_ne_key (g : Guard) (operands : List Operand) :
    Statement.ofGuard g ≠ .returnUnlessKey operands := by
  cases g with
  | stopPropagation | preventDefault | selfTarget => exact Statement.noConfusion
  | held key => cases key <;> exact Statement.noConfusion

theorem toList_code_guards (o : Options) {p : Prologue} (none : p.keys = []) :
    (p.code o).toList = p.guards.flatMap fun g => (g.code o.eventParam).toList := by
  simp [Prologue.code, none, String.toList_join, List.flatMap_map]

theorem toList_code_keyed (o : Options) {p : Prologue} (some_key : p.keys ≠ []) :
    (p.code o).toList =
      (keyFilter o p.keys).toList ++ p.guards.flatMap fun g => (g.code o.eventParam).toList := by
  simp [Prologue.code, some_key, String.toList_join, List.flatMap_map]

section Unique
variable {o : Options} (parameter : isIdentifier o.eventParam = true)
  (resolver : isIdentifier o.keyResolver = true)
include parameter

include resolver in
theorem keyTests_unique {c d : KeyCode} {cs ds : List KeyCode} {r t : List Char}
    (same : (keyTest o c).toList ++
        ((cs.flatMap fun e => "&&".toList ++ (keyTest o e).toList) ++ ')' :: r) =
      (keyTest o d).toList ++
        ((ds.flatMap fun e => "&&".toList ++ (keyTest o e).toList) ++ ')' :: t)) :
    (c :: cs).map Operand.ofCode = (d :: ds).map Operand.ofCode ∧ r = t := by
  have read := keyComparisons_keyTests parameter resolver c cs r
  rw [same, keyComparisons_keyTests parameter resolver d ds t] at read
  obtain ⟨comparisons, rest⟩ := Prod.mk.inj (Option.some.inj read)
  exact ⟨(comparison_injective o).list_map comparisons.symm, (List.cons.inj rest).2.symm⟩

include resolver in
theorem keyFilter_unique {keys others : List String} (some_key : keys ≠ [])
    (some_other : others ≠ []) {r t : List Char}
    (same : (keyFilter o keys).toList ++ r = (keyFilter o others).toList ++ t) :
    operandsOf keys = operandsOf others ∧ r = t := by
  obtain ⟨c, cs, codes⟩ := codes_cons some_key
  obtain ⟨d, ds, more⟩ := codes_cons some_other
  rw [toList_keyFilter codes, toList_keyFilter more] at same
  simp only [List.append_assoc] at same
  obtain ⟨operands, behind⟩ := keyTests_unique parameter resolver (r := "return;".toList ++ r)
    (t := "return;".toList ++ t) (List.append_cancel_left same)
  rw [operandsOf, operandsOf, codes, more]
  exact ⟨operands, List.append_cancel_left behind⟩

theorem statement_of_keyFilter {k : String} {keys : List String} (some_key : keys ≠ []) {g : Statement}
    {r t : List Char} (read : statement o.eventParam k ((keyFilter o keys).toList ++ r) = some (g, t)) :
    ∃ operands, g = .returnUnlessKey operands := by
  obtain ⟨c, cs, codes⟩ := codes_cons some_key
  rw [toList_keyFilter codes] at read
  simp only [List.append_assoc, statement, after_append, condition_keyTest parameter,
    Option.bind_eq_bind, Option.bind_eq_some_iff, Option.map_eq_some_iff] at read
  obtain ⟨_, ⟨⟨operands, _⟩, _, rfl⟩, _, _, same⟩ := read
  cases same
  exact ⟨operands, rfl⟩

theorem keyFilter_ne_guards {keys : List String} (some_key : keys ≠ []) (r : List Char)
    (gs : List Guard) :
    (keyFilter o keys).toList ++ r ≠ gs.flatMap fun g => (g.code o.eventParam).toList := by
  intro same
  cases gs with
  | nil => simp [keyFilter] at same
  | cons g gs =>
    rw [List.flatMap_cons] at same
    have read := statement_guard (k := "") parameter g
      (gs.flatMap fun g => (g.code o.eventParam).toList)
    rw [← same] at read
    obtain ⟨operands, key⟩ := statement_of_keyFilter parameter some_key read
    exact ofGuard_ne_key g operands key

theorem guards_unique {gs hs : List Guard}
    (same : (gs.flatMap fun g => (g.code o.eventParam).toList) =
      hs.flatMap fun g => (g.code o.eventParam).toList) : gs = hs := by
  have read := statements_guards (k := "") parameter gs
  rw [same, statements_guards parameter hs] at read
  exact ofGuard_injective.list_map (Option.some.inj read).symm

include resolver in
theorem code_eq_iff (p q : Prologue) :
    p.code o = q.code o ↔ p.guards = q.guards ∧ operandsOf p.keys = operandsOf q.keys := by
  constructor
  · intro same
    have text := congrArg String.toList same
    -- A key filter and a guard start alike, so the cases cannot be told by the first letter.
    by_cases none : p.keys = [] <;> by_cases no_other : q.keys = []
    · rw [toList_code_guards o none, toList_code_guards o no_other] at text
      exact ⟨guards_unique parameter text, by rw [none, no_other]⟩
    · rw [toList_code_guards o none, toList_code_keyed o no_other] at text
      exact absurd text.symm (keyFilter_ne_guards parameter no_other _ _)
    · rw [toList_code_keyed o none, toList_code_guards o no_other] at text
      exact absurd text (keyFilter_ne_guards parameter none _ _)
    · rw [toList_code_keyed o none, toList_code_keyed o no_other] at text
      obtain ⟨operands, behind⟩ := keyFilter_unique parameter resolver none no_other text
      exact ⟨guards_unique parameter behind, operands⟩
  · rintro ⟨guards, operands⟩
    have empty : p.keys.isEmpty = q.keys.isEmpty := by
      rw [Bool.eq_iff_iff, List.isEmpty_iff, List.isEmpty_iff, ← operandsOf_eq_nil_iff, operands,
        operandsOf_eq_nil_iff]
    rw [Prologue.code, Prologue.code, guards, empty, keyFilter_of_operands o operands]

end Unique

theorem lookup_modifier (g : Guard) :
    (Modifier.structural ++ Modifier.mouse).lookup g.modifier = some g := by
  cases g with
  | stopPropagation | preventDefault | selfTarget => rfl
  | held key => cases key <;> rfl

theorem modifier_injective : Function.Injective Guard.modifier := by
  intro g h same
  have found := lookup_modifier g
  rw [same, lookup_modifier h] at found
  exact (Option.some.inj found).symm

theorem modifier_of_route {mouseEvent : Bool} {name : String} {g : Guard}
    (guarded : (Modifier.route mouseEvent name).guard? = some g) : g.modifier = name := by
  have known : ∀ entry ∈ Modifier.structural ++ Modifier.mouse, entry.2.modifier = entry.1 := by
    decide
  rcases Modifier.route_cases mouseEvent name with
    ⟨h, member, routed⟩ | ⟨_, h, member, routed⟩ | ⟨_, _, routed⟩
  · rw [routed] at guarded
    cases guarded
    exact known _ (List.mem_append_left _ member)
  · rw [routed] at guarded
    cases guarded
    exact known _ (List.mem_append_right _ member)
  · rw [routed] at guarded
    cases guarded

theorem guards_ofModifiers (event : String) (names : List String) :
    (Prologue.ofModifiers event names).guards.map Guard.modifier = guardNames event names := by
  induction names with
  | nil => rfl
  | cons name names ih =>
    simp only [Prologue.ofModifiers, guardNames, List.map_cons] at ih ⊢
    rcases route_asked event name with ⟨g, guarded, _, answers⟩ | ⟨unguarded, _, named⟩
    · rw [List.filterMap_cons_some guarded, List.map_cons, ih, modifier_of_route guarded]
      simp [answers.1]
    · rw [List.filterMap_cons_none unguarded, ih]
      simp [named]

theorem guards_eq_iff (event other : String) (names others : List String) :
    (Prologue.ofModifiers event names).guards = (Prologue.ofModifiers other others).guards ↔
      guardNames event names = guardNames other others := by
  rw [← guards_ofModifiers, ← guards_ofModifiers]
  exact modifier_injective.list_map.eq_iff.symm

/-- Two lists of modifiers have prologues of one text exactly where the guards are the same and the
key codes are. So they may differ in how guards and keys are mixed and in how a code is spelled. -/
theorem prologue_code_unique {o : Options} (parameter : isIdentifier o.eventParam = true)
    (resolver : isIdentifier o.keyResolver = true) (event other : String) (names others : List String) :
    ((Prologue.ofModifiers event names).code o = (Prologue.ofModifiers other others).code o ↔
      (Prologue.ofModifiers event names).guards = (Prologue.ofModifiers other others).guards ∧
      operandsOf (Prologue.ofModifiers event names).keys =
        operandsOf (Prologue.ofModifiers other others).keys) ∧
    ((Prologue.ofModifiers event names).code o = (Prologue.ofModifiers other others).code o ↔
      guardNames event names = guardNames other others ∧
      operandsOf (keyNames event names) = operandsOf (keyNames other others)) := by
  have text := code_eq_iff parameter resolver (Prologue.ofModifiers event names)
    (Prologue.ofModifiers other others)
  refine ⟨text, text.trans ?_⟩
  rw [guards_eq_iff, keys_ofModifiers, keys_ofModifiers, keyNames, keyNames]

/-- One text for two spellings, and two texts although a name of a key holds the text of statements.
-/
theorem prologue_code_spellings :
    (Prologue.ofModifiers "click" ["enter", "ctrl", "stop"]).code ⟨"if", "if"⟩ =
      (Prologue.ofModifiers "mousedown" ["ctrl", " +013x", "stop"]).code ⟨"if", "if"⟩ ∧
    (Prologue.ofModifiers "keyup" ["a\"))return;if.stopPropagation();//"]).code ⟨"if", "if"⟩ ≠
      (Prologue.ofModifiers "keyup" ["a", "stop"]).code ⟨"if", "if"⟩ := by
  have parameter : isIdentifier "if" = true := by decide
  constructor
  · exact (prologue_code_unique (o := ⟨"if", "if"⟩) parameter parameter _ _ _ _).1.mpr
      ⟨by decide, by decide⟩
  · intro same
    have guards :=
      ((prologue_code_unique (o := ⟨"if", "if"⟩) parameter parameter _ _ _ _).2.mp same).1
    exact absurd guards (by decide)

end Listeners
