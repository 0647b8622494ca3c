import Listeners.Options.Read
import Listeners.Store
/-!
Options that come from outside are read and then checked, whether they come as a text or
in a file.
-/
namespace Listeners.Options

inductive Refusal where
  | malformed (m : Json.Malformed)
  | unreadable (path : String) (fault : FileFault)
  | invalid (i : Invalid)

def Refusal.text : Refusal → String
  | malformed m => "malformed JSON input: " ++ m.text
  | unreadable path fault => "failed to read " ++ path ++ ": " ++ fault.text
  | invalid i => i.text

def Refusal.cause? : Refusal → Option String
  | malformed m => some m.text
  | unreadable _ fault => some fault.text
  | invalid _ => none

def ofText (text : String) : Except Refusal Options :=
  match read text with
  | .error m => .error (.malformed m)
  | .ok o => (validate o).mapError .invalid

def ofFile (path : String) : Except FileFault String → Except Refusal Options
  | .error fault => .error (.unreadable path fault)
  | .ok text => ofText text

/-- Options that come from outside and are accepted: as two names, as a text or in a file. -/
def Accepted (o : Options) : Prop :=
  (∃ eventParam keyResolver, ofNames eventParam keyResolver = .ok o) ∨
    (∃ text, ofText text = .ok o) ∨
    ∃ path outcome, ofFile path outcome = .ok o

theorem ofText_ok {text : String} {o : Options} (read : ofText text = .ok o) :
    ∃ p : Options, p.validate = .ok o := by
  unfold ofText at read
  split at read
  · cases read
  · next p _ => exact ⟨p, Json.mapError_eq_ok.1 read⟩

theorem accepted_identifiers {o : Options} (accepted : o.Accepted) :
    Text.isIdentifier o.eventParam = true ∧ Text.isIdentifier o.keyResolver = true := by
  have validated : ∃ p : Options, p.validate = .ok o := by
    rcases accepted with ⟨eventParam, keyResolver, named⟩ | ⟨text, read⟩ | ⟨path, outcome, read⟩
    · exact ⟨_, named⟩
    · exact ofText_ok read
    · cases outcome with
      | error fault => cases read
      | ok text => exact ofText_ok read
  obtain ⟨p, valid⟩ := validated
  obtain ⟨rfl, names⟩ := validate_eq_ok.1 valid
  exact names

end Listeners.Options
