import Listeners.Proofs.Delivery
import Mathlib.Data.List.Forall2
/-!
Arrangements of a command line. Whatever a request asks for is written once, in any order and in any
of its spellings. Each spelling is read as its item, whatever follows it, and items are gathered into
the request in every order of them; so the program performs the request, and does the same for all
its arrangements.
-/
namespace Listeners.Command

def Request.Asks (r : Request) : Item → Prop
  | .input text => r.input = some text
  | .config path => r.config = some path
  | .output path => r.output = some path
  | .native => r.native = true
  | .help | .version | .misuse => False

/-- An argument that stands alone starts with no dash, unless it is the dash itself. -/
def StandsAlone (argument : String) : Prop := argument.toList.head? = some '-' → argument = "-"

def PathOption.long : PathOption → String
  | config => "--config"
  | output => "--output"

def PathOption.short : PathOption → String
  | config => "-c"
  | output => "-o"

inductive Spelled : Item → List String → Prop where
  | longApart (option : PathOption) {path : String} (alone : StandsAlone path) :
      Spelled (option.item path) [option.long, path]
  | longEquals (option : PathOption) (path : String) :
      Spelled (option.item path) [option.long ++ "=" ++ path]
  | shortApart (option : PathOption) {path : String} (alone : StandsAlone path) :
      Spelled (option.item path) [option.short, path]
  | shortEquals (option : PathOption) (path : String) :
      Spelled (option.item path) [option.short ++ "=" ++ path]
  | attached (option : PathOption) {path : String} (some_path : path ≠ "")
      (no_sign : path.toList.head? ≠ some '=') : Spelled (option.item path) [option.short ++ path]
  | native : Spelled .native ["--native"]
  | input {text : String} (alone : StandsAlone text) : Spelled (.input text) [text]

/-- Arguments that mention each item of a request once, in some order. -/
def Mentions (r : Request) (arguments : List String) : Prop :=
  ∃ order pieces, order.Nodup ∧ (∀ item, item ∈ order ↔ r.Asks item) ∧
    List.Forall₂ Spelled order pieces ∧ arguments = pieces.flatten

/-- The input may also stand behind two dashes, and then it comes last. -/
inductive Arrangement (r : Request) : List String → Prop where
  | bare {arguments : List String} (mentions : Mentions r arguments) : Arrangement r arguments
  | behindDashes {arguments : List String} {text : String} (input : r.input = some text)
      (mentions : Mentions { r with input := none } arguments) :
      Arrangement r (arguments ++ ["--", text])

def Ending.ofOutcome : Except Failure Unit → Ending
  | .ok () => { exit := 0 }
  | .error failure => { exit := 1, stderr := "Error: " ++ failure.text ++ "\n" }

theorem not_isOption {argument : String} (alone : StandsAlone argument) : isOption argument = false := by
  unfold isOption
  split
  · next shape =>
    rw [alone (by rw [shape]; rfl)] at shape
    cases shape
  · rfl

theorem spelling_input {text : String} (alone : StandsAlone text) :
    spelling text = .items [.input text] := by
  have plain := not_isOption alone
  unfold isOption at plain
  unfold spelling
  split
  · next shape => simp [shape] at plain
  · next shape => simp [shape] at plain
  · rfl

theorem spelling_long (option : PathOption) : spelling option.long = .waiting [] option := by
  cases option <;> rfl

theorem spelling_short (option : PathOption) : spelling option.short = .waiting [] option := by
  cases option <;> rfl

theorem spelling_longEquals (option : PathOption) (path : String) :
    spelling (option.long ++ "=" ++ path) = .items [option.item path] := by
  have whole : (option.long ++ "=" ++ path).toList = option.long.toList ++ '=' :: path.toList := by simp
  unfold spelling
  rw [whole]
  cases option with
  | config => exact congrArg (fun v => Spelling.items [.config v]) String.ofList_toList
  | output => exact congrArg (fun v => Spelling.items [.output v]) String.ofList_toList

theorem spelling_attached (option : PathOption) {text : String} (some_text : text ≠ "") :
    spelling (option.short ++ text) = .items [option.item (attached text.toList)] := by
  obtain ⟨c, r, shape⟩ := List.exists_cons_of_ne_nil (mt String.toList_eq_nil_iff.1 some_text)
  have whole : (option.short ++ text).toList = option.short.toList ++ c :: r := by simp [shape]
  unfold spelling
  rw [whole, shape]
  cases option <;> rfl

theorem attached_equals (path : String) : attached ("=" ++ path).toList = path := by
  simp [attached]

theorem attached_bare {path : String} (no_sign : path.toList.head? ≠ some '=') :
    attached path.toList = path := by
  unfold attached
  split
  · next shape => simp [shape] at no_sign
  · exact String.ofList_toList

theorem items_waiting {argument value : String} {option : PathOption}
    (waits : spelling argument = .waiting [] option) (alone : StandsAlone value)
    (rest : List String) : items (argument :: value :: rest) = option.item value :: items rest := by
  have other : argument ≠ "--" := by
    intro dashes
    subst argument
    cases waits
  simp only [items, other, if_false, waits, not_isOption alone, Bool.false_eq_true, List.nil_append]

theorem items_whole {argument : String} {item : Item} (whole : spelling argument = .items [item])
    (sound : item ≠ .misuse) (rest : List String) : items (argument :: rest) = item :: items rest := by
  have other : argument ≠ "--" := by
    intro dashes
    subst argument
    cases whole
    exact sound rfl
  simp only [items, other, if_false, whole, List.singleton_append]

theorem item_sound (option : PathOption) (path : String) : option.item path ≠ .misuse := by
  cases option <;> nofun

/-- A spelling is read as its item and nothing more, whatever follows. -/
theorem items_spelled {item : Item} {piece : List String} (spelled : Spelled item piece)
    (rest : List String) : items (piece ++ rest) = item :: items rest := by
  cases spelled with
  | longApart option alone => exact items_waiting (spelling_long option) alone rest
  | longEquals option path =>
    exact items_whole (spelling_longEquals option path) (item_sound option path) rest
  | shortApart option alone => exact items_waiting (spelling_short option) alone rest
  | shortEquals option path =>
    have some_text : "=" ++ path ≠ "" := by simp
    have whole := spelling_attached option some_text
    rw [attached_equals, ← String.append_assoc] at whole
    exact items_whole whole (item_sound option path) rest
  | @attached option path some_path no_sign =>
    have whole := spelling_attached option some_path
    rw [attached_bare no_sign] at whole
    exact items_whole whole (item_sound option path) rest
  | native =>
    have whole : spelling "--native" = .items [.native] := rfl
    exact items_whole whole nofun rest
  | input alone => exact items_whole (spelling_input alone) nofun rest

theorem items_pieces {order : List Item} {pieces : List (List String)}
    (spelled : List.Forall₂ Spelled order pieces) (rest : List String) :
    items (pieces.flatten ++ rest) = order ++ items rest := by
  induction spelled with
  | nil => rfl
  | cons first others ih =>
    rw [List.flatten_cons, List.append_assoc, items_spelled first, ih, List.cons_append]

theorem request_ext {r q : Request} (same : ∀ item, r.Asks item ↔ q.Asks item) : r = q := by
  obtain ⟨input, config, output, native⟩ := r
  obtain ⟨input', config', output', native'⟩ := q
  have inputs : input = input' := Option.ext fun text => same (.input text)
  have configs : config = config' := Option.ext fun path => same (.config path)
  have outputs : output = output' := Option.ext fun path => same (.output path)
  have natives : native = native' := Bool.eq_iff_iff.2 (same .native)
  rw [inputs, configs, outputs, natives]

theorem part_unset {part whole : Option String} {value : String} (final : whole = some value)
    (grows : ∀ v, part = some v → whole = some v) (fresh : part ≠ some value) : part = none := by
  cases part with
  | none => rfl
  | some v =>
    have set := grows v rfl
    rw [final] at set
    exact absurd set.symm fresh

theorem gather_item {r q : Request} {item : Item} (asked : q.Asks item)
    (grows : ∀ i, r.Asks i → q.Asks i) (fresh : ¬ r.Asks item) :
    ∃ next : Request, (∀ i, next.Asks i ↔ r.Asks i ∨ i = item) ∧
      ∀ rest, gather r (item :: rest) = gather next rest := by
  cases item with
  | input text =>
    have free : r.input = none := part_unset asked (fun v => grows (.input v)) fresh
    refine ⟨{ r with input := some text }, ?_, ?_⟩
    · intro i
      cases i <;> simp [Request.Asks, free, @eq_comm _ text]
    · intro rest
      simp [gather, free]
  | config path =>
    have free : r.config = none := part_unset asked (fun v => grows (.config v)) fresh
    refine ⟨{ r with config := some path }, ?_, ?_⟩
    · intro i
      cases i <;> simp [Request.Asks, free, @eq_comm _ path]
    · intro rest
      simp [gather, free]
  | output path =>
    have free : r.output = none := part_unset asked (fun v => grows (.output v)) fresh
    refine ⟨{ r with output := some path }, ?_, ?_⟩
    · intro i
      cases i <;> simp [Request.Asks, free, @eq_comm _ path]
    · intro rest
      simp [gather, free]
  | native =>
    have free : r.native = false := Bool.eq_false_iff.2 fresh
    refine ⟨{ r with native := true }, ?_, ?_⟩
    · intro i
      cases i <;> simp [Request.Asks, free]
    · intro rest
      simp [gather, free]
  | help => cases asked
  | version => cases asked
  | misuse => cases asked

theorem gather_order {order : List Item} {r q : Request} (distinct : order.Nodup)
    (fresh : ∀ item ∈ order, ¬ r.Asks item)
    (asked : ∀ item, q.Asks item ↔ r.Asks item ∨ item ∈ order) : gather r order = .run q := by
  induction order generalizing r with
  | nil =>
    have same : r = q := by
      apply request_ext
      intro item
      simp [asked]
    rw [same]
    rfl
  | cons item order ih =>
    obtain ⟨new, distinct⟩ := List.nodup_cons.1 distinct
    obtain ⟨next, grown, gathers⟩ := gather_item ((asked item).2 (Or.inr List.mem_cons_self))
      (fun i already => (asked i).2 (Or.inl already)) (fresh item List.mem_cons_self)
    rw [gathers]
    apply ih distinct
    · intro other member
      rw [grown, not_or]
      refine ⟨fresh other (List.mem_cons_of_mem item member), ?_⟩
      intro same
      exact new (same ▸ member)
    · intro other
      rw [asked, grown, List.mem_cons, or_assoc]

theorem gather_order_eq {order : List Item} {r : Request} (distinct : order.Nodup)
    (asked : ∀ item, item ∈ order ↔ r.Asks item) : gather {} order = .run r := by
  have nothing : ∀ item, ¬ Request.Asks {} item := by
    intro item
    cases item <;> simp [Request.Asks]
  apply gather_order distinct
  · exact fun item _ => nothing item
  · intro item
    simp [nothing, asked]

theorem readArguments_arrangement {r : Request} {arguments : List String}
    (arrangement : Arrangement r arguments) : readArguments arguments = .run r := by
  cases arrangement with
  | bare mentions =>
    obtain ⟨order, pieces, distinct, asked, spelled, rfl⟩ := mentions
    have read := items_pieces spelled []
    rw [List.append_nil] at read
    rw [readArguments, read, items, List.append_nil]
    exact gather_order_eq distinct asked
  | @behindDashes arguments text input mentions =>
    obtain ⟨order, pieces, distinct, asked, spelled, rfl⟩ := mentions
    have read := items_pieces spelled ["--", text]
    have last : items ["--", text] = [.input text] := rfl
    rw [readArguments, read, last]
    -- behind the dashes stands the one item that the other arguments do not mention
    have others : ∀ item ∈ order, item ≠ .input text := by
      intro item member same
      subst item
      simp [asked, Request.Asks] at member
    apply gather_order_eq
    · simpa [List.nodup_append] using ⟨distinct, others⟩
    · intro item
      rw [List.mem_append, asked, List.mem_singleton]
      cases item <;> simp [Request.Asks, input, @eq_comm _ text]

/-- To execute an arrangement of a request is to perform the request, on every machine. The exit code is
zero where this succeeds, and else it is one and a line says what failed. -/
theorem execute_arrangement {m : Type → Type} [Monad m] (host : Host m) {r : Request}
    {arguments : List String} (arranged : Arrangement r arguments) :
    execute host arguments = do return .ofOutcome (← (perform host r).run) := by
  unfold execute
  rw [readArguments_arrangement arranged]
  refine congrArg ((perform host r).run >>= ·) (funext fun outcome => ?_)
  cases outcome <;> rfl

/-- Where all stages of the request succeed the program ends with zero and without a word; else the
machine is as it was and the line names the first stage that failed. -/
theorem execute_system (w : System σ) (s : σ) {r : Request} {arguments : List String}
    (arranged : Arrangement r arguments) :
    (∃ code s', w.Succeeds s r code s' ∧ (execute w.host arguments).run s = ({ exit := 0 }, s')) ∨
    ∃ f, w.FirstFailure s r f ∧ (execute w.host arguments).run s =
      ({ exit := 1, stderr := "Error: " ++ f.text ++ "\n" }, s) := by
  have performed : (execute w.host arguments).run s = (.ofOutcome (w.run s r).1, (w.run s r).2) := by
    rw [execute_arrangement w.host arranged]
    rfl
  rw [performed]
  rcases outcome : w.run s r with ⟨f | done, s'⟩
  · obtain ⟨first, rfl⟩ := System.run_eq_error.1 outcome
    exact Or.inr ⟨f, first, rfl⟩
  · obtain ⟨code, succeeds⟩ := System.run_eq_ok.1 outcome
    exact Or.inl ⟨code, s', succeeds, rfl⟩

/-- However a request is arranged on the command line, it is what the arguments come to; so the
program does the same on every machine and ends the same way for all arrangements of a request. -/
theorem arrangements_agree :
    (∀ (r : Request) (arguments : List String), Arrangement r arguments →
      readArguments arguments = .run r) ∧
    ∀ {m : Type → Type} [Monad m] (host : Host m) (r : Request) (first second : List String),
      Arrangement r first → Arrangement r second → execute host first = execute host second := by
  refine ⟨fun r arguments => readArguments_arrangement, ?_⟩
  intro m _ host r first second arranged rearranged
  rw [execute_arrangement host arranged, execute_arrangement host rearranged]

def disguisedRequest : Request where
  input := some "--native"
  config := some "=c"
  output := some "-"
  native := true

/-- Two arrangements of one request, in different orders and spellings. -/
theorem disguisedRequest_arrangements :
    Arrangement disguisedRequest ["-o", "-", "--native", "--config==c", "--", "--native"] ∧
    Arrangement disguisedRequest ["-c==c", "--native", "-o-", "--", "--native"] ∧
    readArguments ["-o", "-", "--native", "--config==c", "--", "--native"] = .run disguisedRequest ∧
    execute Machine.host ["-o", "-", "--native", "--config==c", "--", "--native"] =
      execute Machine.host ["-c==c", "--native", "-o-", "--", "--native"] := by
  have asked {order : List Item} (all : ∀ item, item ∈ order ↔
      item = .output "-" ∨ item = .native ∨ item = .config "=c") (item : Item) :
      item ∈ order ↔ Request.Asks { disguisedRequest with input := none } item := by
    rw [all]
    cases item <;> simp [Request.Asks, disguisedRequest, eq_comm]
  have first : Arrangement disguisedRequest
      ["-o", "-", "--native", "--config==c", "--", "--native"] := by
    apply @Arrangement.behindDashes _ ["-o", "-", "--native", "--config==c"] "--native" rfl
    refine ⟨[.output "-", .native, .config "=c"], [["-o", "-"], ["--native"], ["--config==c"]],
      by decide, asked (by simp), ?_, rfl⟩
    have apart : Spelled (.output "-") ["-o", "-"] := .shortApart .output fun _ => rfl
    exact .cons apart (.cons .native (.cons (.longEquals .config "=c") .nil))
  have second : Arrangement disguisedRequest ["-c==c", "--native", "-o-", "--", "--native"] := by
    apply @Arrangement.behindDashes _ ["-c==c", "--native", "-o-"] "--native" rfl
    refine ⟨[.config "=c", .native, .output "-"], [["-c==c"], ["--native"], ["-o-"]],
      by decide, asked (by simp; grind), ?_, rfl⟩
    have attached : Spelled (.output "-") ["-o-"] := .attached .output (by decide) (by decide)
    exact .cons (.shortEquals .config "=c") (.cons .native (.cons attached .nil))
  exact ⟨first, second, arrangements_agree.1 _ _ first,
    arrangements_agree.2 Machine.host _ _ _ first second⟩

end Listeners.Command
