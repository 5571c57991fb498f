import ZMachine.Host.Journal
import ZMachine.Main
import ZMachine.Proofs.Arithmetic
import ZMachine.Proofs.Console.Pieces
import ZMachine.Proofs.Dictionary.Lookup
import ZMachine.Proofs.Dictionary.Scan
import ZMachine.Proofs.Instruction.Extent
import ZMachine.Proofs.Instruction.InlineText
import ZMachine.Proofs.Instruction.Layout
import ZMachine.Proofs.Machine.Routines
import ZMachine.Proofs.Object.Attributes
import ZMachine.Proofs.Object.FailedMoves
import ZMachine.Proofs.Object.Moving
import ZMachine.Proofs.Object.Outline
import ZMachine.Proofs.Session.Entries
import ZMachine.Proofs.Session.InPlace
import ZMachine.Proofs.Session.LineBuffers
import ZMachine.Proofs.Session.Restart
import ZMachine.Proofs.Session.Restore
import ZMachine.Proofs.Session.Silence
import ZMachine.Proofs.Session.TableSearch
import ZMachine.Proofs.Session.Tokenise
import ZMachine.Proofs.Session.Waiting
import ZMachine.Proofs.Snapshot.Compression
import ZMachine.Proofs.Snapshot.Document
import ZMachine.Proofs.Text.Joining
import ZMachine.Proofs.Text.OnePass
import ZMachine.Proofs.Text.Translation
