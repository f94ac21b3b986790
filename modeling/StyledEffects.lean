import StyledEffects.Cli.World
import StyledEffects.Json.Printer
import StyledEffects.Main
import StyledEffects.Stream.Recorder
import StyledEffects.Stream.Trace
import StyledEffects.Style.History
import StyledEffects.Style.Strip
import StyledEffects.Style.Terminal
import StyledEffects.Writer.Gate
import StyledEffects.Proofs.Transcript
import StyledEffects.Proofs.Rendering
import StyledEffects.Proofs.Chunks
import StyledEffects.Proofs.Rendition
import StyledEffects.Proofs.Display
import StyledEffects.Proofs.Reassembly
import StyledEffects.Proofs.Buffering
import StyledEffects.Proofs.Erasing
import StyledEffects.Proofs.Colour
import StyledEffects.Proofs.Sent
import StyledEffects.Proofs.Agreement
import StyledEffects.Proofs.Arrival
import StyledEffects.Proofs.Isolation
import StyledEffects.Proofs.OneThread
import StyledEffects.Proofs.Interleaving
import StyledEffects.Proofs.SharedLine
import StyledEffects.Proofs.Barrier
import StyledEffects.Proofs.Grammar
import StyledEffects.Proofs.Canonical
import StyledEffects.Proofs.Bursts
import StyledEffects.Proofs.Rechunking
import StyledEffects.Proofs.Atomicity
import StyledEffects.Proofs.Rounds
import StyledEffects.Proofs.Balance
import StyledEffects.Proofs.Supply
import StyledEffects.Proofs.Threading
import StyledEffects.Proofs.Precedence
import StyledEffects.Proofs.Switching
import StyledEffects.Proofs.Accounting
import StyledEffects.Proofs.Retrying
import StyledEffects.Proofs.Pacing
import StyledEffects.Proofs.Resting
import StyledEffects.Proofs.Refusal
import StyledEffects.Proofs.Merging
import StyledEffects.Proofs.Versions
import StyledEffects.Proofs.Laziness
import StyledEffects.Proofs.JsonLines
import StyledEffects.Proofs.Warnings
import StyledEffects.Proofs.Selectors
