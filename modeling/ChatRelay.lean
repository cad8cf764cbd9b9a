import ChatRelay.Client
import ChatRelay.CommandLine
import ChatRelay.Main
import ChatRelay.Proofs.DatagramCodec
import ChatRelay.Proofs.RunKnowledge
import ChatRelay.Proofs.Relaying
import ChatRelay.Proofs.Site
import ChatRelay.Proofs.ClientCalls
import ChatRelay.Proofs.Attendance
import ChatRelay.Proofs.LocalTargets
import ChatRelay.Proofs.Syncing
import ChatRelay.Proofs.LocalDelivery
import ChatRelay.Proofs.TopologyFaults
import ChatRelay.Proofs.WholeChain
import ChatRelay.Proofs.ForwardTrails
import ChatRelay.Proofs.OneHop
import ChatRelay.Proofs.Schedule
import ChatRelay.Proofs.Interleaving
import ChatRelay.Proofs.Bookkeeping
import ChatRelay.Proofs.Ledger
import ChatRelay.Proofs.RosterPushes
import ChatRelay.Proofs.SettledChain
import ChatRelay.Proofs.SpelledMessage
import ChatRelay.Proofs.Relayable
import ChatRelay.Proofs.NeighborSlots
import ChatRelay.Proofs.FailureIsolation
import ChatRelay.Proofs.Fidelity
import ChatRelay.Proofs.OvertTurns
import ChatRelay.Proofs.Whispers
import ChatRelay.Proofs.ClientCourses
import ChatRelay.Proofs.EntireValue
import ChatRelay.Proofs.WrittenTopology
import ChatRelay.Proofs.TopologyFiles
import ChatRelay.Proofs.Framing
import ChatRelay.Proofs.Leaving
import ChatRelay.Proofs.DamagedDatagrams
