import PulseSequencer.ChannelLibrary.Archive
import PulseSequencer.ChannelLibrary.Edit
import PulseSequencer.Clifford.TwoQubit
import PulseSequencer.Clifford.Word
import PulseSequencer.Program.Json
import PulseSequencer.Wiring
import PulseSequencer.Proofs.Arithmetic
import PulseSequencer.Proofs.Content
import PulseSequencer.Proofs.Growth
import PulseSequencer.Proofs.Score
import PulseSequencer.Proofs.Turning
import PulseSequencer.Proofs.Programs
import PulseSequencer.Proofs.Upkeep
import PulseSequencer.Proofs.Completion
import PulseSequencer.Proofs.Playback
import PulseSequencer.Proofs.Signal
import PulseSequencer.Proofs.Synchrony
import PulseSequencer.Proofs.Failures
import PulseSequencer.Proofs.Inventory
import PulseSequencer.Proofs.LibraryHistory
import PulseSequencer.Proofs.Edits
import PulseSequencer.Proofs.WiredLibrary
import PulseSequencer.Proofs.ChannelHistory
import PulseSequencer.Proofs.ArchiveHistory
import PulseSequencer.Proofs.Moving
import PulseSequencer.Proofs.Solo
import PulseSequencer.Proofs.Likeness
import PulseSequencer.Proofs.Wording
import PulseSequencer.Proofs.Places
import PulseSequencer.Proofs.Encoding
import PulseSequencer.Proofs.PauliMatrices
import PulseSequencer.Proofs.ShortestWords
import PulseSequencer.Proofs.FramePass
import PulseSequencer.Proofs.ReadBack
import PulseSequencer.Proofs.Numerals
import PulseSequencer.Proofs.JsonReading
import PulseSequencer.Proofs.ProgramText
import PulseSequencer.Proofs.Appending
import PulseSequencer.Proofs.Placing
import PulseSequencer.Proofs.Ensemble
import PulseSequencer.Proofs.Elision
import PulseSequencer.Proofs.FrameChanges
import PulseSequencer.Proofs.Causality
import PulseSequencer.Proofs.ChannelSets
import PulseSequencer.Proofs.WholeChanges
import PulseSequencer.Proofs.EitherOrder
import PulseSequencer.Proofs.Listings
