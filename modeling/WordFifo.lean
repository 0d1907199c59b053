import WordFifo.Main
import WordFifo.Router
import WordFifo.Proofs.RoundTrip
import WordFifo.Proofs.Reencoding
import WordFifo.Proofs.ExitOnce
import WordFifo.Proofs.ResetHandshake
import WordFifo.Proofs.HandshakeRuns
import WordFifo.Proofs.Alignment
import WordFifo.Proofs.LoopbackRuns
import WordFifo.Proofs.Directions
import WordFifo.Proofs.WholeMessages
import WordFifo.Proofs.MessageRuns
import WordFifo.Proofs.WriterRuns
import WordFifo.Proofs.Interruptions
import WordFifo.Proofs.ByteStreams
import WordFifo.Proofs.DecodedTapes
import WordFifo.Proofs.EncodedRecords
import WordFifo.Proofs.Intake
import WordFifo.Proofs.Routing
import WordFifo.Proofs.Listening
import WordFifo.Proofs.SocketPaths
import WordFifo.Proofs.SocketOwners
import WordFifo.Proofs.CheckedHeaders
import WordFifo.Proofs.CanonicalHeaders
import WordFifo.Proofs.MovedMessages
import WordFifo.Proofs.AgreedCommands
import WordFifo.Proofs.PrintedCounts
import WordFifo.Proofs.TimedReceives
import WordFifo.Proofs.Literals
import WordFifo.Proofs.BytePlaces
import WordFifo.Proofs.Durations
import WordFifo.Proofs.ShownMessages
