import Listeners.Modifier
import Listeners.Proofs.Script

/-!
The prologue of a handler is read back as the statements that it was written from. Each kind of
text comes with arbitrary text behind it: numbers, calls of the resolver, the comparisons of a
key filter, guards, and at last the whole prologue.
-/
namespace Listeners
open Script Text

def Script.Operand.ofCode : KeyCode → Operand
  | .number n => .number n
  | .known n => .number n
  | .custom name => .resolved name

def Script.Operand.comparison (o : Options) : Operand → KeyComparison
  | number n => ⟨o.eventParam, .number n⟩
  | resolved name => ⟨o.eventParam, .call o.keyResolver name⟩

def Script.Statement.ofGuard : Guard → Statement
  | .stopPropagation => .stopPropagation
  | .preventDefault => .preventDefault
  | .selfTarget => .returnUnlessSelf
  | .held .ctrl => .returnUnlessHeld .ctrlKey
  | .held .shift => .returnUnlessHeld .shiftKey
  | .held .alt => .returnUnlessHeld .altKey
  | .held .metaKey => .returnUnlessHeld .metaKey

def Prologue.statements (p : Prologue) : List Statement :=
  (if p.keys.isEmpty then []
    else [.returnUnlessKey ((p.keys.flatMap KeyCode.ofName).map Operand.ofCode)]) ++
    p.guards.map Statement.ofGuard

theorem toDigits_head (n : Nat) (zero : (Nat.toDigits 10 n).head? = some '0') : n = 0 := by
  induction n using Nat.strongRecOn with
  | ind n ih =>
    rw [Nat.toDigits_eq_if (by decide)] at zero
    split at zero
    · simpa using zero
    · rw [List.head?_append] at zero
      cases shape : (Nat.toDigits 10 (n / 10)).head? with
      | none => exact absurd (List.head?_eq_none_iff.mp shape) Nat.toDigits_ne_nil
      | some c =>
        rw [shape] at zero
        have := ih (n / 10) (by omega) (shape.trans zero)
        omega

theorem natural_repr (n : Nat) {r : List Char} (stop : Stops isDigit r) :
    natural (n.repr.toList ++ r) = some (n, r) := by
  have digits : ∀ c ∈ Nat.toDigits 10 n, isDigit c = true := by
    intro c hc
    exact Nat.isDigit_of_mem_toDigits (by decide) (by decide) hc
  have taken : (Nat.toDigits 10 n ++ r).takeWhile isDigit = Nat.toDigits 10 n :=
    takeWhile_append_stops digits stop
  have left : (Nat.toDigits 10 n ++ r).dropWhile isDigit = r :=
    dropWhile_append_stops digits stop
  have plain : ¬ (Nat.toDigits 10 n = [] ∨
      ((Nat.toDigits 10 n).head? = some '0' ∧ Nat.toDigits 10 n ≠ ['0'])) := by
    rintro (empty | ⟨zero, more⟩)
    · exact Nat.toDigits_ne_nil empty
    · rw [toDigits_head n zero] at more
      exact more rfl
  simp only [natural, Nat.toList_repr, taken, left]
  rw [if_neg plain, Nat.ofDigitChars_ten_toDigits]

theorem integer_of_head {c : Char} (notMinus : c ≠ '-') (r : List Char) :
    integer (c :: r) = (natural (c :: r)).map fun (n, t) => (n, t) := by
  unfold integer
  split
  · next same => cases same; exact absurd rfl notMinus
  · rfl

theorem integer_repr (n : Nat) {r : List Char} (stop : Stops isDigit r) :
    integer (n.repr.toList ++ r) = some ((n : Int), r) := by
  have read := natural_repr n stop
  rw [Nat.toList_repr] at read ⊢
  cases shape : Nat.toDigits 10 n with
  | nil => exact absurd shape Nat.toDigits_ne_nil
  | cons c t =>
    have digit : c.isDigit = true :=
      Nat.isDigit_of_mem_toDigits (by decide) (by decide) (shape ▸ List.mem_cons_self)
    have notMinus : c ≠ '-' := by rintro rfl; exact absurd digit (by decide)
    rw [shape, List.cons_append] at read
    rw [List.cons_append, integer_of_head notMinus, read]
    rfl

theorem integer_text (i : Int) {r : List Char} (stop : Stops isDigit r) :
    integer ((Decimal.integer i).toList ++ r) = some (i, r) := by
  cases i with
  | ofNat n => exact integer_repr n stop
  | negSucc n =>
    have read := natural_repr (n + 1) stop
    have text : (Decimal.integer (.negSucc n)).toList = '-' :: (n + 1).repr.toList := by
      simp [Decimal.integer]
    rw [text, List.cons_append]
    simp only [integer, read, Option.map_some]
    rfl

theorem integer_identifier {name : String} (identifier : isIdentifier name = true) (r : List Char) :
    integer (name.toList ++ r) = none := by
  obtain ⟨c, t, shape, start, _⟩ := identifier_head identifier
  have notDigit := isDigit_of_isIdentStart start
  have notMinus : c ≠ '-' := by rintro rfl; exact absurd start (by decide)
  rw [shape, List.cons_append, integer_of_head notMinus]
  simp [natural, notDigit]

theorem word_append {name : String} (identifier : isIdentifier name = true) {r : List Char}
    (stop : Stops isIdentPart r) : word (name.toList ++ r) = some (name, r) := by
  obtain ⟨c, t, shape, starts, parts⟩ := identifier_head identifier
  have all : ∀ d ∈ name.toList, isIdentPart d = true := by
    rw [shape]
    intro d member
    rcases List.mem_cons.1 member with rfl | later
    · exact isIdentPart_of_isIdentStart starts
    · exact List.all_eq_true.1 parts d later
  have some_text : name.toList ≠ [] := by simp [shape]
  simp [word, takeWhile_append_stops all stop, dropWhile_append_stops all stop, some_text]

theorem call_quote {k : String} (resolver : isIdentifier k = true) (name : String) (r : List Char) :
    call ((k ++ "(" ++ quote name ++ ")").toList ++ r) = some (.call k name, r) := by
  have stop : Stops isIdentPart ("(".toList ++ ((quote name).toList ++ (")".toList ++ r))) :=
    stops_cons (by decide) _
  simp only [String.toList_append, List.append_assoc]
  simp only [call, word_append resolver stop, Option.bind_eq_bind, Option.bind_some, after_append,
    literal_quote]

/-- A text that goes on with a member of the parameter is no conditional. -/
theorem after_if_member {p : String} (parameter : isIdentifier p = true) (r : List Char) :
    after "if(" (p.toList ++ '.' :: r) = none := by
  obtain ⟨c, t, shape, _, part⟩ := identifier_head parameter
  rw [shape]
  have text : "if(".toList = ['i', 'f', '('] := rfl
  unfold after
  rw [text]
  cases t with
  | nil => simp [isPrefixOf?_cons]
  | cons d u =>
    cases u with
    | nil => simp [isPrefixOf?_cons]
    | cons e v =>
      have notOpening : e ≠ '(' := by
        rintro rfl
        simp only [List.all_cons, Bool.and_eq_true] at part
        exact absurd part.2.1 (by decide)
      simp [isPrefixOf?_cons, Ne.symm notOpening]

theorem statement_method {p k : String} (parameter : isIdentifier p = true) (r : List Char) :
    statement p k (p.toList ++ '.' :: r) = method r := by
  have opened : after (p ++ ".") (p.toList ++ '.' :: r) = some r := by
    rw [after_append_append]
    exact after_append "." r
  simp only [statement, after_if_member parameter, opened, Option.bind_some]

theorem statement_conditional {p k : String} {g : Statement} {s : List Char}
    (r : List Char) (read : condition p k s = some (g, ")return;".toList ++ r)) :
    statement p k ("if(".toList ++ s) = some (g, r) := by
  simp only [statement, after_append, Option.bind_eq_bind, read, Option.bind_some]

theorem condition_parameter {p k : String} (parameter : isIdentifier p = true) (r : List Char) :
    condition p k (p.toList ++ r) =
      match after (".target!==" ++ p ++ ".currentTarget") r with
      | some t => some (.returnUnlessSelf, t)
      | none => (keyOperands p k (p.toList ++ r)).map fun (os, t) => (.returnUnlessKey os, t) := by
  have compared := after_append_append p (".target!==" ++ p ++ ".currentTarget") r
  obtain ⟨c, t, shape, start, _⟩ := identifier_head parameter
  have notMark : c ≠ '!' := by rintro rfl; exact absurd start (by decide)
  simp only [← String.append_assoc] at compared
  unfold condition
  split
  · next same =>
    rw [shape] at same
    cases same
    exact absurd rfl notMark
  · cases target : after (".target!==" ++ p ++ ".currentTarget") r with
    | some t => simp only [compared, target]
    | none => simp only [compared, target]

theorem condition_keyTest {o : Options} {k : String} (parameter : isIdentifier o.eventParam = true)
    (c : KeyCode) (r : List Char) :
    condition o.eventParam k ((keyTest o c).toList ++ r) =
      (keyOperands o.eventParam k ((keyTest o c).toList ++ r)).map
        fun (os, t) => (.returnUnlessKey os, t) := by
  have member : (keyTest o c).toList ++ r =
      o.eventParam.toList ++ (".keyCode!==".toList ++ ((c.code o).toList ++ r)) := by
    simp [keyTest]
  have noTarget : after (".target!==" ++ o.eventParam ++ ".currentTarget")
      (".keyCode!==".toList ++ ((c.code o).toList ++ r)) = none := by
    rw [String.append_assoc]
    unfold after
    rw [String.toList_append]
    rfl
  rw [member, condition_parameter parameter, noTarget]

theorem flag_text (f : HeldKey) (r : List Char) :
    flag (f.flag.toList ++ r) = some (match f with
      | .ctrl => .ctrlKey
      | .shift => .shiftKey
      | .alt => .altKey
      | .metaKey => .metaKey, r) := by
  cases f <;> rfl

theorem statement_guard {p k : String} (parameter : isIdentifier p = true) (g : Guard)
    (r : List Char) :
    statement p k ((g.code p).toList ++ r) = some (.ofGuard g, r) := by
  cases g with
  | stopPropagation =>
    rw [Guard.code, String.toList_append, List.append_assoc]
    exact statement_method parameter _
  | preventDefault =>
    rw [Guard.code, String.toList_append, List.append_assoc]
    exact statement_method parameter _
  | selfTarget =>
    have compared := after_append (".target!==" ++ p ++ ".currentTarget") (")return;".toList ++ r)
    have read := condition_parameter (k := k) parameter
      ((".target!==" ++ p ++ ".currentTarget").toList ++ (")return;".toList ++ r))
    rw [compared] at read
    have whole := statement_conditional r read
    rw [Statement.ofGuard]
    simpa [Guard.code] using whole
  | held key =>
    have named : after (p ++ ".") ((p ++ ".").toList ++ (key.flag.toList ++ (")return;".toList ++ r))) =
        some (key.flag.toList ++ (")return;".toList ++ r)) := after_append _ _
    have read : condition p k ('!' ::
        ((p ++ ".").toList ++ (key.flag.toList ++ (")return;".toList ++ r)))) =
          some (.ofGuard (.held key), ")return;".toList ++ r) := by
      simp only [condition, named, Option.bind_some, flag_text, Option.map_some]
      cases key <;> rfl
    have whole := statement_conditional r read
    simpa [Guard.code] using whole

theorem toList_keyFilter {o : Options} {keys : List String} {c : KeyCode} {cs : List KeyCode}
    (codes : keys.flatMap KeyCode.ofName = c :: cs) :
    (keyFilter o keys).toList = "if(".toList ++ ((keyTest o c).toList ++
      ((cs.flatMap fun d => "&&".toList ++ (keyTest o d).toList) ++ ")return;".toList)) := by
  simp only [keyFilter, codes, List.map_cons, String.toList_append, Json.toList_intercalate_cons,
    List.flatMap_map, List.append_assoc]

theorem operand?_comparison {o : Options} (distinct : o.eventParam ≠ o.keyResolver) (x : Operand) :
    (x.comparison o).operand? o.eventParam o.keyResolver = some x := by
  cases x with
  | number n => simp [Operand.comparison, KeyComparison.operand?]
  | resolved name => simp [Operand.comparison, KeyComparison.operand?, distinct.symm]

theorem mapM_operand?_comparison {o : Options} (distinct : o.eventParam ≠ o.keyResolver)
    (xs : List Operand) :
    (xs.map (Operand.comparison o)).mapM (KeyComparison.operand? o.eventParam o.keyResolver) =
      some xs := by
  induction xs with
  | nil => rfl
  | cons x xs ih => simp [operand?_comparison distinct, ih]

section Reading
variable {o : Options} (parameter : isIdentifier o.eventParam = true)
  (resolver : isIdentifier o.keyResolver = true)
include resolver

theorem comparand_code (c : KeyCode) {r : List Char} (stop : Stops isDigit r) :
    comparand ((c.code o).toList ++ r) = some (((Operand.ofCode c).comparison o).comparand, r) := by
  cases c with
  | number n =>
    simp only [comparand, KeyCode.code, integer_text n stop]
    rfl
  | known n =>
    simp only [comparand, KeyCode.code, integer_repr n stop]
    rfl
  | custom name =>
    have noNumber : integer ((KeyCode.code o (.custom name)).toList ++ r) = none := by
      simp only [KeyCode.code, String.toList_append, List.append_assoc]
      exact integer_identifier resolver _
    rw [comparand, noNumber]
    exact call_quote resolver name r

include parameter

theorem keyComparison_keyTest (c : KeyCode) {r : List Char} (stop : Stops isDigit r) :
    keyComparison ((keyTest o c).toList ++ r) = some ((Operand.ofCode c).comparison o, r) := by
  have behind : Stops isIdentPart (".keyCode!==".toList ++ ((c.code o).toList ++ r)) :=
    stops_cons (by decide) _
  simp only [keyTest, String.toList_append, List.append_assoc]
  simp only [keyComparison, word_append parameter behind, Option.bind_eq_bind, Option.bind_some,
    after_append, comparand_code resolver c stop]
  cases c <;> rfl

theorem keyComparisons_keyTests (c : KeyCode) (cs : List KeyCode) (r : List Char) :
    keyComparisons ((keyTest o c).toList ++
      ((cs.flatMap fun d => "&&".toList ++ (keyTest o d).toList) ++ ')' :: r)) =
        some (((c :: cs).map Operand.ofCode).map (Operand.comparison o), ')' :: r) := by
  induction cs generalizing c with
  | nil =>
    have read := keyComparison_keyTest parameter resolver c (stops_cons (c := ')') rfl r)
    rw [keyComparisons]
    simp only [List.flatMap_nil, List.nil_append, read]
    rfl
  | cons d cs ih =>
    rw [List.flatMap_cons, List.append_assoc, List.append_assoc, keyComparisons]
    have more := ih d
    generalize (keyTest o d).toList ++ _ = text at more ⊢
    have read := keyComparison_keyTest parameter resolver c (stops_cons (c := '&') rfl ('&' :: text))
    have joined : "&&".toList ++ text = '&' :: '&' :: text := rfl
    have shorter : text.length < ((keyTest o c).toList ++ '&' :: '&' :: text).length := by
      simp only [List.length_append, List.length_cons]
      omega
    have next : after "&&" ('&' :: '&' :: text) = some text := after_append "&&" text
    simp only [joined, read, next, shorter, if_true, more]
    rfl

theorem keyOperands_keyTests (distinct : o.eventParam ≠ o.keyResolver) (c : KeyCode)
    (cs : List KeyCode) (r : List Char) :
    keyOperands o.eventParam o.keyResolver ((keyTest o c).toList ++
      ((cs.flatMap fun d => "&&".toList ++ (keyTest o d).toList) ++ ')' :: r)) =
        some ((c :: cs).map Operand.ofCode, ')' :: r) := by
  have operands := mapM_operand?_comparison distinct ((c :: cs).map Operand.ofCode)
  simp only [keyOperands, keyComparisons_keyTests parameter resolver, operands, Option.bind_eq_bind,
    Option.bind_some]

theorem statement_keyFilter (distinct : o.eventParam ≠ o.keyResolver) {keys : List String}
    (c : KeyCode) (cs : List KeyCode) (codes : keys.flatMap KeyCode.ofName = c :: cs)
    (r : List Char) :
    statement o.eventParam o.keyResolver ((keyFilter o keys).toList ++ r) =
      some (.returnUnlessKey ((c :: cs).map Operand.ofCode), r) := by
  have read := keyOperands_keyTests parameter resolver distinct c cs ("return;".toList ++ r)
  have guarded := condition_keyTest (k := o.keyResolver) parameter c
    ((cs.flatMap fun d => "&&".toList ++ (keyTest o d).toList) ++ ')' :: ("return;".toList ++ r))
  rw [read] at guarded
  have whole := statement_conditional r guarded
  rw [toList_keyFilter codes]
  simp only [List.append_assoc]
  exact whole

end Reading

theorem statements_append {p k : String} {g : Statement} {text : String} {r : List Char}
    (filled : text ≠ "") (read : statement p k (text.toList ++ r) = some (g, r)) :
    statements p k (text.toList ++ r) = (statements p k r).map (g :: ·) := by
  have longer : 0 < text.toList.length := by
    rw [List.length_pos_iff]
    exact fun empty => filled (String.toList_inj.mp empty)
  have some_text : text.toList ++ r ≠ [] := by
    intro empty
    rw [(List.append_eq_nil_iff.mp empty).1] at longer
    exact Nat.lt_irrefl 0 longer
  have shorter : r.length < (text.toList ++ r).length := by
    rw [List.length_append]
    omega
  rw [statements, if_neg some_text, read]
  simp only [shorter, if_true]

theorem statements_guards {p k : String} (parameter : isIdentifier p = true) (gs : List Guard) :
    statements p k (gs.flatMap fun g => (g.code p).toList) = some (gs.map Statement.ofGuard) := by
  induction gs with
  | nil => rw [statements]; rfl
  | cons g gs ih =>
    have filled : g.code p ≠ "" := by
      intro empty
      have := congrArg String.toList empty
      cases g <;> simp [Guard.code] at this
    rw [List.flatMap_cons, statements_append filled (statement_guard parameter g _), ih]
    rfl

theorem ofName_cons (key : String) : ∃ c cs, KeyCode.ofName key = c :: cs := by
  unfold KeyCode.ofName
  simp only
  split
  · exact ⟨_, _, rfl⟩
  · split
    · next codes found =>
      have known : ∀ pair ∈ KeyCode.aliases, pair.2 ≠ [] := by decide
      obtain ⟨before, later, split, _⟩ := List.lookup_eq_some_iff.mp found
      have member : (key, codes) ∈ KeyCode.aliases := by simp [split]
      cases codes with
      | nil => exact absurd rfl (known _ member)
      | cons n ns => exact ⟨_, _, rfl⟩
    · exact ⟨_, _, rfl⟩

theorem codes_cons {keys : List String} (some_key : keys ≠ []) :
    ∃ c cs, keys.flatMap KeyCode.ofName = c :: cs := by
  obtain ⟨key, rest, rfl⟩ := List.exists_cons_of_ne_nil some_key
  obtain ⟨c, cs, first⟩ := ofName_cons key
  exact ⟨c, cs ++ rest.flatMap KeyCode.ofName, by simp [first]⟩

/-- The whole prologue is read, and nothing of it is left over. -/
theorem statements_prologue {o : Options} (parameter : isIdentifier o.eventParam = true)
    (resolver : isIdentifier o.keyResolver = true) (distinct : o.eventParam ≠ o.keyResolver)
    (p : Prologue) :
    statements o.eventParam o.keyResolver (p.code o).toList = some p.statements := by
  have guards := statements_guards (k := o.keyResolver) parameter p.guards
  unfold Prologue.code Prologue.statements
  cases keys : p.keys with
  | nil => simpa [List.flatMap_map] using guards
  | cons key rest =>
    obtain ⟨c, cs, codes⟩ := codes_cons (List.cons_ne_nil key rest)
    have filled : keyFilter o (key :: rest) ≠ "" := by
      intro empty
      have := congrArg String.toList empty
      simp [keyFilter] at this
    simp only [List.isEmpty_cons, Bool.false_eq_true, if_false, String.toList_append,
      String.toList_join, List.flatMap_map]
    rw [statements_append filled (statement_keyFilter parameter resolver distinct c _ codes _),
      guards, codes]
    rfl

end Listeners
