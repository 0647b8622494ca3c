import Listeners.Command.Machine
import Listeners.Proofs.FileWrite
/-!
A run delivers all of its code or nothing. This holds on every machine whose files behave as files
do: what is written replaces a file whole, and a refused write leaves all as it was. Of the two
sources of a run and its output, any may be the same file.
-/
namespace Listeners.Command
open Json (bind_eq_ok bind_eq_error mapError_eq_ok mapError_eq_error)

/-- A machine as a run meets it. A path leads to one place at most, several may lead to the same.
What the system refuses, and why, is left open. -/
structure System (σ : Type) where
  Place : Type
  content : σ → Place → Option ByteArray
  leadsTo? : σ → String → Option Place
  printed : σ → String
  readText : σ → String → Except FileFault String
  readInput : σ → Except FileFault String
  writeText : σ → String → String → Except FileFault σ
  print : σ → String → σ
  read_holds : ∀ {s path text}, readText s path = .ok text →
    ∃ place, leadsTo? s path = some place ∧ content s place = some text.toUTF8
  write_replaces : ∀ {s s' path text}, writeText s path text = .ok s' →
    printed s' = printed s ∧ ∃ place, leadsTo? s' path = some place ∧
      content s' place = some text.toUTF8 ∧
      ∀ other, other ≠ place → content s' other = content s other
  print_appends : ∀ s text,
    printed (print s text) = printed s ++ text ∧ content (print s text) = content s

namespace System

def host (w : System σ) : Host (StateM σ) where
  readFile path := fun s => (w.readText s path, s)
  readInput := fun s => (w.readInput s, s)
  writeFile path text := fun s =>
    match w.writeText s path text with
    | .ok s' => (.ok (), s')
    | .error fault => (.error fault, s)
  print text := fun s => ((), w.print s text)

variable (w : System σ)

def run (s : σ) (r : Request) : Except Failure Unit × σ := (perform w.host r).run.run s

def options (s : σ) : Option String → Except Failure Options
  | none => .ok {}
  | some path => (Options.ofFile path (w.readText s path)).mapError (.config path)

def tableText (s : σ) : Option String → Except Failure String
  | none => (w.readInput s).mapError .input
  | some path => (w.readText s path).mapError (.file path)

def written (s : σ) (text : String) : Option String → Except Failure σ
  | none => .ok (w.print s text)
  | some path => (w.writeText s path text).mapError (.output path)

inductive Succeeds (s : σ) (r : Request) (code : String) (s' : σ) : Prop
  | intro (o : Options) (text : String) (options : w.options s r.config = .ok o)
      (input : w.tableText s r.input = .ok text) (table : generate o r.native text = .ok code)
      (write : w.written s (code ++ "\n") r.output = .ok s')

inductive FirstFailure (s : σ) (r : Request) : Failure → Prop
  | options {f} (fails : w.options s r.config = .error f) : FirstFailure s r f
  | input {o f} (options : w.options s r.config = .ok o)
      (fails : w.tableText s r.input = .error f) : FirstFailure s r f
  | table {o text m} (options : w.options s r.config = .ok o)
      (input : w.tableText s r.input = .ok text)
      (fails : generate o r.native text = .error m) : FirstFailure s r (.table m)
  | write {o text code f} (options : w.options s r.config = .ok o)
      (input : w.tableText s r.input = .ok text) (table : generate o r.native text = .ok code)
      (fails : w.written s (code ++ "\n") r.output = .error f) : FirstFailure s r f

/-- The text is in the output and nothing else differs. A file that is the output holds this text
and no other, standard output has it behind what was printed before. -/
def Delivered (s s' : σ) (text : String) : Option String → Prop
  | none => w.printed s' = w.printed s ++ text ∧ w.content s' = w.content s
  | some path => w.printed s' = w.printed s ∧ (∃ place, w.leadsTo? s' path = some place ∧
      w.content s' place = some text.toUTF8 ∧
      ∀ other, other ≠ place → w.content s' other = w.content s other) ∧
      ∀ found, w.readText s' path = .ok found → found = text

variable {w}

theorem delivered_of_written {s s' : σ} {text : String} {output : Option String}
    (write : w.written s text output = .ok s') : w.Delivered s s' text output := by
  cases output with
  | none =>
    cases write
    exact w.print_appends s text
  | some path =>
    obtain ⟨printed, place, leads, holds, others⟩ := w.write_replaces (mapError_eq_ok.1 write)
    refine ⟨printed, ⟨place, leads, holds, others⟩, fun found read => ?_⟩
    obtain ⟨place', leads', holds'⟩ := w.read_holds read
    cases leads.symm.trans leads'
    exact String.toByteArray_inj.1 (Option.some.inj (holds'.symm.trans holds))

variable (w)

def ending (s : σ) : Except Failure σ → Except Failure Unit × σ
  | .ok s' => (.ok (), s')
  | .error f => (.error f, s)

theorem run_bind (x : ExceptT Failure (StateM σ) α) (next : α → ExceptT Failure (StateM σ) β)
    (s : σ) :
    (x >>= next).run.run s = match x.run.run s with
      | (.ok a, s') => (next a).run.run s'
      | (.error f, s') => (.error f, s') := by
  simp only [ExceptT.run_bind, StateT.run_bind]
  change (fun p => _) (x.run.run s) = _
  rcases x.run.run s with ⟨_ | _, _⟩ <;> rfl

theorem run_lift (x : StateM σ α) (s : σ) :
    (liftM x : ExceptT Failure (StateM σ) α).run.run s = (.ok (x s).1, (x s).2) := rfl

theorem loadOptions_run (s : σ) (config : Option String) :
    (loadOptions w.host config).run.run s = (w.options s config, s) := by
  cases config with
  | none => rfl
  | some path =>
    simp only [loadOptions, run_bind, run_lift, host, options]
    cases Options.ofFile path (w.readText s path) <;> rfl

theorem readTable_run (s : σ) (input : Option String) :
    (readTable w.host input).run.run s = (w.tableText s input, s) := by
  cases input with
  | none =>
    simp only [readTable, run_bind, run_lift, host, tableText]
    cases w.readInput s <;> rfl
  | some path =>
    simp only [readTable, run_bind, run_lift, host, tableText]
    cases w.readText s path <;> rfl

theorem render_run (s : σ) (o : Options) (native : Bool) (text : String) :
    (ExceptT.mk (m := StateM σ) (pure (render o native text))).run.run s =
      ((generate o native text).mapError .table, s) := by
  rw [← render_eq_generate]
  rfl

theorem deliver_run (s : σ) (code : String) (output : Option String) :
    (deliver w.host code output).run.run s = ending s (w.written s (code ++ "\n") output) := by
  cases output with
  | none => rfl
  | some path =>
    simp only [deliver, run_bind, run_lift, host, written]
    cases w.writeText s path (code ++ "\n") <;> rfl

theorem ending_bind (s : σ) (outcome : Except Failure α) (next : α → Except Failure σ) :
    ending s (outcome >>= next) = match outcome with
      | .ok a => ending s (next a)
      | .error f => (.error f, s) := by
  cases outcome <;> rfl

def stages (s : σ) (r : Request) : Except Failure σ := do
  let o ← w.options s r.config
  let text ← w.tableText s r.input
  let code ← (generate o r.native text).mapError .table
  w.written s (code ++ "\n") r.output

theorem run_eq_stages (s : σ) (r : Request) : w.run s r = ending s (w.stages s r) := by
  unfold run perform stages
  -- up to the last stage the machine is as it was, so each stage is met where the run began
  rw [run_bind, loadOptions_run, ending_bind]
  cases w.options s r.config with
  | error f => rfl
  | ok o =>
    simp only
    rw [run_bind, readTable_run, ending_bind]
    cases w.tableText s r.input with
    | error f => rfl
    | ok text =>
      simp only
      rw [run_bind, render_run, ending_bind]
      cases (generate o r.native text).mapError Failure.table with
      | error f => rfl
      | ok code => exact w.deliver_run s code r.output

variable {w}

theorem stages_eq_ok {s s' : σ} {r : Request} :
    w.stages s r = .ok s' ↔ ∃ code, w.Succeeds s r code s' := by
  simp only [stages, bind_eq_ok, mapError_eq_ok]
  constructor
  · rintro ⟨o, options, text, input, code, table, write⟩
    exact ⟨code, o, text, options, input, table, write⟩
  · rintro ⟨code, o, text, options, input, table, write⟩
    exact ⟨o, options, text, input, code, table, write⟩

theorem stages_eq_error {s : σ} {r : Request} {f : Failure} :
    w.stages s r = .error f ↔ w.FirstFailure s r f := by
  simp only [stages, bind_eq_error, mapError_eq_ok, mapError_eq_error]
  constructor
  · rintro (fails | ⟨o, options, fails | ⟨text, input, ⟨m, fails, rfl⟩ | ⟨code, table, fails⟩⟩⟩)
    · exact .options fails
    · exact .input options fails
    · exact .table options input fails
    · exact .write options input table fails
  · rintro (fails | ⟨options, fails⟩ | ⟨options, input, fails⟩ | ⟨options, input, table, fails⟩)
    · exact .inl fails
    · exact .inr ⟨_, options, .inl fails⟩
    · exact .inr ⟨_, options, .inr ⟨_, input, .inl ⟨_, fails, rfl⟩⟩⟩
    · exact .inr ⟨_, options, .inr ⟨_, input, .inr ⟨_, table, fails⟩⟩⟩

theorem run_eq_ok {s s' : σ} {r : Request} :
    w.run s r = (.ok (), s') ↔ ∃ code, w.Succeeds s r code s' := by
  rw [run_eq_stages, ← stages_eq_ok]
  cases w.stages s r <;> simp [ending]

theorem run_eq_error {s s' : σ} {r : Request} {f : Failure} :
    w.run s r = (.error f, s') ↔ w.FirstFailure s r f ∧ s' = s := by
  rw [run_eq_stages, ← stages_eq_error]
  cases w.stages s r <;> simp [ending, eq_comm]

theorem Succeeds.delivered {s s' : σ} {r : Request} {code : String}
    (succeeds : w.Succeeds s r code s') :
    w.Delivered s s' (code ++ "\n") r.output := by
  obtain ⟨o, text, options, input, table, write⟩ := succeeds
  exact delivered_of_written write

theorem Succeeds.code_eq {s s' : σ} {r : Request} {code : String} (succeeds : w.Succeeds s r code s')
    {o : Options} {text : String} (options : w.options s r.config = .ok o)
    (input : w.tableText s r.input = .ok text) : generate o r.native text = .ok code := by
  obtain ⟨o', text', options', input', table, write⟩ := succeeds
  cases options.symm.trans options'
  cases input.symm.trans input'
  exact table

theorem Succeeds.same_code {v : System τ} {s s' : σ} {t t' : τ} {r q : Request} {code other : String}
    (first : w.Succeeds s r code s') (second : v.Succeeds t q other t')
    (options : w.options s r.config = v.options t q.config)
    (input : w.tableText s r.input = v.tableText t q.input) (native : r.native = q.native) :
    code = other := by
  obtain ⟨o, text, hasOptions, hasInput, table, write⟩ := second
  have table' := first.code_eq (options.trans hasOptions) (input.trans hasInput)
  rw [native, table] at table'
  exact (Except.ok.inj table').symm

/-- A run succeeds exactly when all its stages do, and then the code for its table stands in its
output with a line end and nothing else differs. Otherwise the failure is that of the first stage
that fails, and nothing differs at all. What is delivered depends on the options, the text of the
table and the kind of listeners alone. -/
theorem run_delivers_all_or_nothing (w : System σ) (s : σ) (r : Request) :
    (∀ s', w.run s r = (.ok (), s') ↔ ∃ code, w.Succeeds s r code s') ∧
    (∀ code s', w.Succeeds s r code s' → w.Delivered s s' (code ++ "\n") r.output) ∧
    (∀ f s', w.run s r = (.error f, s') ↔ w.FirstFailure s r f ∧ s' = s) ∧
    (∀ {τ : Type} (v : System τ) (t : τ) (q : Request) (s' : σ) (t' : τ),
      w.options s r.config = v.options t q.config → w.tableText s r.input = v.tableText t q.input →
      r.native = q.native → w.run s r = (.ok (), s') → v.run t q = (.ok (), t') →
      ∃ text, w.Delivered s s' text r.output ∧ v.Delivered t t' text q.output) := by
  refine ⟨fun s' => run_eq_ok, fun code s' => Succeeds.delivered, fun f s' => run_eq_error, ?_⟩
  intro τ v t q s' t' options input native first second
  obtain ⟨code, first⟩ := run_eq_ok.1 first
  obtain ⟨other, second⟩ := run_eq_ok.1 second
  obtain rfl := first.same_code second options input native
  exact ⟨code ++ "\n", first.delivered, second.delivered⟩

end System

def Machine.system : System Machine where
  Place := List String
  content machine names := machine.store.content? (.inside names)
  leadsTo? machine path := machine.store.leadsTo? path
  printed := Machine.stdout
  readText machine path := machine.store.readText path
  readInput machine := decodeText machine.stdin
  writeText machine path text :=
    (machine.store.writeText path text).map fun store => { machine with store }
  print machine text := { machine with stdout := machine.stdout ++ text }
  read_holds read := Store.leadsTo_read read
  write_replaces := by
    intro machine machine' path text write
    obtain ⟨store, wrote, rfl⟩ := Json.map_eq_ok.1 write
    obtain ⟨names, aimed, rfl⟩ := Store.writeText_eq_ok.1 wrote
    refine ⟨rfl, names, Store.leadsTo_written _ aimed, ?_, fun other elsewhere => ?_⟩
    · simp [Store.content?_putFile]
    · simp [Store.content?_putFile, elsewhere]
  print_appends _ _ := ⟨rfl, rfl⟩

theorem get_bind (next : σ → StateM σ α) (s : σ) : (get >>= next) s = next s s := rfl

theorem Machine.system_host : Machine.system.host = Machine.host := by
  have writes : Machine.system.host.writeFile = Machine.host.writeFile := by
    funext path text machine
    simp only [System.host, system, host, get_bind]
    cases machine.store.writeText path text <;> rfl
  calc Machine.system.host
      = { Machine.system.host with writeFile := Machine.host.writeFile } := by rw [← writes]
    _ = Machine.host := rfl

/-- A table is replaced by its code where the file that holds it is the output as well. -/
theorem code_replaces_its_table :
    (perform Machine.host { input := some "t.json", output := some "t.json" }).run.run
        { store := { files := [(["t.json"], "\x7b\x7d".toUTF8)] } } =
      (.ok (), { store := { files := [(["t.json"], "on:\x7b\x7d\n".toUTF8)] } }) := by
  rw [← Machine.system_host]
  exact ((System.run_delivers_all_or_nothing Machine.system _ _).1 _).2
    ⟨"on:\x7b\x7d", {}, "\x7b\x7d", rfl, rfl, rfl, rfl⟩

end Listeners.Command
