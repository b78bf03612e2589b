import Sequencer.Main
import Sequencer.TicTacToe.Demo
import Sequencer.Proofs.ShapeFault
import Sequencer.Proofs.Execution
import Sequencer.Proofs.Blocks
import Sequencer.Proofs.RoundTrip
import Sequencer.Proofs.Drawing
import Sequencer.Proofs.TargetCheck
import Sequencer.Proofs.Reload
import Sequencer.Proofs.CodeReading
import Sequencer.Proofs.DotReading
import Sequencer.Proofs.Recovery
import Sequencer.Proofs.Delivery
import Sequencer.Proofs.Alike
import Sequencer.Proofs.Respelling
import Sequencer.Proofs.Truncation
import Sequencer.Proofs.WrittenOut
import Sequencer.Proofs.Feeding
import Sequencer.Proofs.Growth
import Sequencer.Proofs.LocalTimes
import Sequencer.Proofs.ManifestTexts
import Sequencer.Proofs.LastWrites
import Sequencer.Proofs.InverseLabels
