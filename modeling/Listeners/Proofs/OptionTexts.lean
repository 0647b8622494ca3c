import Listeners.Proofs.Delivery
import Listeners.Proofs.Path
import Listeners.Proofs.Spelling
import Mathlib.Data.List.Permutation
/-!
Options given by their two names, by a text that carries these and by a file that holds such a text:
they are the same options, or the same name is refused. A text may leave a name out, give the two in
either order or only list them, and spell all of it in any way.
-/
namespace Listeners.Options
open Json Text Command

def given (eventParam keyResolver : Option String) : List (String × String) :=
  eventParam.toList.map (fun name => (Field.eventParam.name, name)) ++
    keyResolver.toList.map fun name => (Field.keyResolver.name, name)

/-- The text is an object with the names that are given, or a list of these. In a list no name is
given behind one that is missing. -/
inductive Carries (eventParam keyResolver : Option String) (text : String) : Prop where
  | object {members : List (String × String)} (order : members.Perm (given eventParam keyResolver))
      (spelled : text.toList ∈ ObjectText members)
  | list (noGap : eventParam = none → keyResolver = none)
      (spelled : text.toList ∈ ListText (eventParam.toList ++ keyResolver.toList))

def IsName (s : String) : Prop := ∃ i : Expression.Identifier, s.toList = i.text

theorem isIdentifier_iff (s : String) : isIdentifier s = true ↔ IsName s := by
  constructor
  · intro identifier
    obtain ⟨c, r, shape, start, parts⟩ := identifier_head identifier
    have follows : ∀ d ∈ r, Expression.Letter d ∨ Expression.Digit d := by
      intro d member
      exact (Expression.isIdentPart_iff d).1 (List.all_eq_true.1 parts d member)
    exact ⟨⟨c, r, (Expression.isIdentStart_iff c).1 start, follows⟩, shape⟩
  · intro name
    obtain ⟨⟨c, r, starts, follows⟩, shape⟩ := name
    have parts : r.all isIdentPart = true := by
      rw [List.all_eq_true]
      intro d member
      exact (Expression.isIdentPart_iff d).2 (follows d member)
    have start := (Expression.isIdentStart_iff c).2 starts
    simp only [isIdentifier, shape, Expression.Identifier.text, start, parts, Bool.and_self]

theorem gathered_given {eventParam keyResolver : Option String} {members : List (String × String)}
    (order : members.Perm (given eventParam keyResolver)) :
    Gathered gather {} members { eventParam, keyResolver } := by
  cases eventParam with
  | none =>
    cases keyResolver with
    | none =>
      rw [List.perm_nil.1 order]
      exact .nil
    | some k =>
      rw [List.perm_singleton.1 order]
      exact .cons rfl rfl .nil
  | some e =>
    cases keyResolver with
    | none =>
      rw [List.perm_singleton.1 order]
      exact .cons rfl rfl .nil
    | some k =>
      rcases List.perm_pair.1 order with first | second
      · rw [first]
        exact .cons rfl rfl (.cons rfl rfl .nil)
      · rw [second]
        exact .cons rfl rfl (.cons rfl rfl .nil)

theorem readItems_spelled {eventParam keyResolver : Option String}
    (noGap : eventParam = none → keyResolver = none) {text closing : List Char}
    (spelled : text ∈ Joined ((eventParam.toList ++ keyResolver.toList).map StringText))
    (closes : closing ∈ Mark ']') (rest : List Char) :
    readItems (text ++ (closing ++ rest)) = .ok ({ eventParam, keyResolver }, rest) := by
  cases eventParam with
  | none =>
    cases noGap rfl
    cases spelled
    simp only [readItems, List.nil_append, firstItem_closing closes, bind, Except.bind]
  | some e =>
    obtain ⟨first, firstSpelled, more, behind, rfl⟩ := Language.mem_mul.1 spelled
    cases keyResolver with
    | none =>
      cases behind
      obtain ⟨r, item, read⟩ := firstItem_string firstSpelled (closing ++ rest)
      simp only [List.append_nil, readItems, item, read, nextItem_closing closes, bind, Except.bind]
    | some k =>
      obtain ⟨_, front, _, nothing, rfl⟩ := Language.mem_mul.1 behind
      cases nothing
      obtain ⟨comma, separates, second, secondSpelled, rfl⟩ := Language.mem_mul.1 front
      obtain ⟨r, item, read⟩ := firstItem_string firstSpelled (comma ++ (second ++ (closing ++ rest)))
      obtain ⟨t, item', read'⟩ := nextItem_string separates secondSpelled (closing ++ rest)
      simp only [List.append_nil, List.append_assoc, readItems, item, read, item', read',
        closeRecord_closing closes, bind, Except.bind]

theorem read_carries {eventParam keyResolver : Option String} {text : String}
    (carries : Carries eventParam keyResolver text) :
    read text = .ok (Draft.finish { eventParam, keyResolver }) := by
  have scanned : ∃ rest ∈ Space,
      scan text.toList = .ok (Draft.finish { eventParam, keyResolver }, rest) := by
    cases carries with
    | @object members order spelled =>
      obtain ⟨_, closed, rest, blank, whole⟩ := Language.mem_mul.1 spelled
      obtain ⟨_, opened, closing, closes, rfl⟩ := Language.mem_mul.1 closed
      obtain ⟨opening, opens, inside, joined, rfl⟩ := Language.mem_mul.1 opened
      refine ⟨rest, blank, ?_⟩
      rw [← whole, List.append_assoc, List.append_assoc, scan, skipSpace_mark rfl opens]
      simp only [members_spelled (gathered_given order) joined closes, bind, Except.bind]
    | list noGap spelled =>
      obtain ⟨_, closed, rest, blank, whole⟩ := Language.mem_mul.1 spelled
      obtain ⟨_, opened, closing, closes, rfl⟩ := Language.mem_mul.1 closed
      obtain ⟨opening, opens, inside, joined, rfl⟩ := Language.mem_mul.1 opened
      refine ⟨rest, blank, ?_⟩
      rw [← whole, List.append_assoc, List.append_assoc, scan, skipSpace_mark rfl opens]
      simp only [readItems_spelled noGap joined closes, bind, Except.bind]
  obtain ⟨rest, blank, scanned⟩ := scanned
  simp only [read, readWhole, scanned, skipSpace_all blank]

theorem ofText_carries {eventParam keyResolver : Option String} {text : String}
    (carries : Carries eventParam keyResolver text) : ofText text =
      (ofNames (eventParam.getD "$event") (keyResolver.getD "_k")).mapError .invalid := by
  simp only [ofText, read_carries carries]
  rfl

theorem carries_write (o : Options) : Carries (some o.eventParam) (some o.keyResolver) o.write :=
  .object (.refl _) (writeObject_spelled (given (some o.eventParam) (some o.keyResolver)))

theorem readText_of_bytes {store : Store} {path text : String}
    (holds : store.readBytes path = .ok text.toUTF8) : store.readText path = .ok text := by
  have decoded := decodeText_eq_ok.2 (rfl : text.toUTF8 = text.toUTF8)
  simp only [Store.readText, holds, decoded, bind, Except.bind]

theorem loadOptions_text {machine : Machine} {path text : String}
    (read : machine.store.readText path = .ok text) :
    (loadOptions Machine.host (some path)).run.run machine =
      ((ofText text).mapError (.config path), machine) := by
  rw [← Machine.system_host, Machine.system.loadOptions_run]
  simp only [System.options, Machine.system, read, ofFile]

theorem mapError_mapError (x : Except ε α) (f : ε → ε') (g : ε' → ε'') :
    (x.mapError f).mapError g = x.mapError (g ∘ f) := by
  cases x <;> rfl

theorem ofNames_eq_ok {eventParam keyResolver : String} {o : Options} :
    ofNames eventParam keyResolver = .ok o ↔
      o = ⟨eventParam, keyResolver⟩ ∧ IsName eventParam ∧ IsName keyResolver := by
  rw [ofNames, validate_eq_ok, isIdentifier_iff, isIdentifier_iff]

theorem ofNames_eq_error {eventParam keyResolver : String} {i : Invalid} :
    ofNames eventParam keyResolver = .error i ↔
      ¬ IsName eventParam ∧ i = ⟨.eventParam, eventParam⟩ ∨
      IsName eventParam ∧ ¬ IsName keyResolver ∧ i = ⟨.keyResolver, keyResolver⟩ := by
  rw [ofNames, validate_eq_error, ← isIdentifier_iff, ← isIdentifier_iff, Bool.not_eq_true,
    Bool.not_eq_true]

/-- However the names of options are given, with the names left out having their defaults, the
options are these two names if both are names, and else the first that is none is refused as it is;
in a run the refusal also says from which file it came. What is written of options is read back as
them. -/
theorem options_agree :
    (∀ (givenParam givenResolver : Option String) (text : String), Carries givenParam givenResolver text →
      let eventParam := givenParam.getD "$event"
      let keyResolver := givenResolver.getD "_k"
      let outcome := ofNames eventParam keyResolver
      (∀ o, outcome = .ok o ↔
        o = ⟨eventParam, keyResolver⟩ ∧ IsName eventParam ∧ IsName keyResolver) ∧
      (∀ i, outcome = .error i ↔
        ¬ IsName eventParam ∧ i = ⟨.eventParam, eventParam⟩ ∨
        IsName eventParam ∧ ¬ IsName keyResolver ∧ i = ⟨.keyResolver, keyResolver⟩) ∧
      ofText text = outcome.mapError .invalid ∧
      ∀ (machine : Machine) (path : String), machine.store.readBytes path = .ok text.toUTF8 →
        ofFile path (machine.store.readText path) = outcome.mapError .invalid ∧
        (loadOptions Machine.host (some path)).run.run machine =
          (outcome.mapError (Failure.config path ∘ .invalid), machine)) ∧
    (∀ o : Options, read o.write = .ok o) ∧
    ∀ o : Options, o.Accepted → ofText o.write = .ok o := by
  refine ⟨?_, fun o => read_carries (carries_write o), ?_⟩
  · intro givenParam givenResolver text carries
    have same := ofText_carries carries
    refine ⟨fun o => ofNames_eq_ok, fun i => ofNames_eq_error, same, fun machine path holds => ?_⟩
    have read := readText_of_bytes holds
    refine ⟨by rw [read, ofFile, same], ?_⟩
    rw [loadOptions_text read, same, mapError_mapError]
  · intro o accepted
    have valid : ofNames o.eventParam o.keyResolver = .ok o :=
      validate_eq_ok.2 ⟨rfl, accepted_identifiers accepted⟩
    have same := ofText_carries (carries_write o)
    rw [same]
    exact congrArg (Except.mapError Refusal.invalid) valid

def listedNames : String := "[\"\\u0065\" ,\"\"]"

theorem listedNames_carries : Carries (some "e") (some "") listedNames := by
  have code : FourDigits 'e'.toNat ['0', '0', '6', '5'] :=
    .digits (i := 0) (j := 0) (k := 6) (l := 5) (by decide) (by decide) (by decide) (by decide)
  have letter : ['\\', 'u', '0', '0', '6', '5'] ∈ ("e".toList.map CharacterText).prod :=
    Language.append_mem_mul (Spells.number code) rfl
  have first : ['"'] ++ ['\\', 'u', '0', '0', '6', '5'] ++ ['"'] ∈ StringText "e" :=
    Language.append_mem_mul (Language.append_mem_mul (mark_alone '"') letter) rfl
  have space : [' '] ∈ Space := by
    intro c member
    rw [List.mem_singleton.1 member]
    rfl
  have comma : [' ', ','] ∈ Mark ',' := ⟨[' '], space, rfl⟩
  have second : [' ', ','] ++ (Text.quote "").toList ∈ Mark ',' * StringText "" :=
    Language.append_mem_mul comma (quote_spelled "")
  have joined := Language.append_mem_mul first (Language.append_mem_mul second (Set.mem_singleton []))
  have shape : listedNames.toList =
      ['['] ++ (['"'] ++ ['\\', 'u', '0', '0', '6', '5'] ++ ['"'] ++
        ([' ', ','] ++ (Text.quote "").toList ++ [])) ++ [']'] ++ [] := by
    decide
  refine .list nofun ?_
  rw [shape]
  exact Language.append_mem_mul (Language.append_mem_mul
    (Language.append_mem_mul (mark_alone '[') joined) (mark_alone ']')) no_space

def listedNamesMachine : Machine where
  store := { files := [(["c.json"], listedNames.toUTF8)] }

/-- The second name of the list is refused, and so it is where a file holds the list. -/
theorem listedNames_refused :
    Carries (some "e") (some "") listedNames ∧
    listedNamesMachine.store.readBytes "c.json" = .ok listedNames.toUTF8 ∧
    ofText listedNames = .error (.invalid ⟨.keyResolver, ""⟩) ∧
    (loadOptions Machine.host (some "c.json")).run.run listedNamesMachine =
      (.error (.config "c.json" (.invalid ⟨.keyResolver, ""⟩)), listedNamesMachine) ∧
    Accepted {} ∧ ofText (write {}) = .ok {} := by
  obtain ⟨agree, _, again⟩ := options_agree
  obtain ⟨_, _, text, file⟩ := agree (some "e") (some "") listedNames listedNames_carries
  have holds : listedNamesMachine.store.readBytes "c.json" = .ok listedNames.toUTF8 := rfl
  have accepted : Accepted {} := Or.inl ⟨"$event", "_k", rfl⟩
  exact ⟨listedNames_carries, holds, text, (file listedNamesMachine "c.json" holds).2, accepted,
    again {} accepted⟩

end Listeners.Options
