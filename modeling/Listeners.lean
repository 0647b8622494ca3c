import Listeners.Main
import Listeners.Binding.Write
import Listeners.Proofs.TableRoundTrip
import Listeners.Proofs.ScriptLiteral
import Listeners.Proofs.PrologueText
import Listeners.Proofs.PrologueMeaning
import Listeners.Proofs.Balance
import Listeners.Proofs.Path
import Listeners.Proofs.BlockStructure
import Listeners.Proofs.TableLog
import Listeners.Proofs.Chain
import Listeners.Proofs.Capture
import Listeners.Proofs.FileWrite
import Listeners.Proofs.Delivery
import Listeners.Proofs.FunctionHead
import Listeners.Proofs.KeyNumber
import Listeners.Proofs.HandlerForm
import Listeners.Proofs.PrologueUnique
import Listeners.Proofs.Callable
import Listeners.Proofs.EventName
import Listeners.Proofs.Template
import Listeners.Proofs.Rearrangement
import Listeners.Proofs.Accumulation
import Listeners.Proofs.Arrangement
import Listeners.Proofs.CharacterSpelling
import Listeners.Proofs.Spelling
import Listeners.Proofs.OptionTexts
import Listeners.Proofs.QuotedName
