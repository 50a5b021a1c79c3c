import Switchboard.Address.Key
import Switchboard.Address.Reader
import Switchboard.Address.Writer
import Switchboard.Board.Duties
import Switchboard.CommandLine.Reply
import Switchboard.Main
import Switchboard.Proofs.Address.RoundTrip
import Switchboard.Proofs.Conversation
import Switchboard.Proofs.Registry.CacheMirror
import Switchboard.Proofs.Registry.Freshness
import Switchboard.Proofs.Registry.Holding
import Switchboard.Proofs.Registry.Recovery
import Switchboard.Quic.Endpoint
import Switchboard.Quic.Fault
import Switchboard.Proofs.Properties.Plain
import Switchboard.Proofs.Registry.Discovery
import Switchboard.Proofs.Resolver.Invokers
import Switchboard.Proofs.Resolver.Lives
import Switchboard.Proofs.Exchange.Parts
import Switchboard.Proofs.Client.Scene
import Switchboard.Proofs.Client.Sound
import Switchboard.Proofs.Client.Closing
import Switchboard.Proofs.Client.Kept
import Switchboard.Proofs.Registry.Inquiries
import Switchboard.Proofs.Registry.Saved
import Switchboard.Proofs.Registry.Announcements
import Switchboard.Proofs.Registry.Survivors
import Switchboard.Proofs.Registry.Tidings
import Switchboard.Proofs.Calls.Lineup
import Switchboard.Proofs.Registry.Ancestry
import Switchboard.Proofs.Registry.Withdrawal
import Switchboard.Proofs.Text.Marks
import Switchboard.Proofs.Command.Descriptors
import Switchboard.Proofs.Command.Lookup
import Switchboard.Proofs.Link.Scene
import Switchboard.Proofs.Link.Acknowledged
import Switchboard.Proofs.Calls.Waiting
import Switchboard.Proofs.Board.FailedCalls
import Switchboard.Proofs.Registry.Listeners
import Switchboard.Proofs.Registry.Resynced
import Switchboard.Proofs.Exporter
import Switchboard.Proofs.Registry.NodeChanges
import Switchboard.Proofs.Registry.Refreshes
import Switchboard.Proofs.Work.Solitude
import Switchboard.Proofs.Client.Losses
import Switchboard.Proofs.Client.Dials
import Switchboard.Proofs.Client.Loopback
import Switchboard.Proofs.Client.Reconnect
import Switchboard.Proofs.Address.Colons
import Switchboard.Proofs.Calls.Turns
import Switchboard.Proofs.Properties.Layouts
import Switchboard.Proofs.Properties.Spellings
import Switchboard.Proofs.Address.Hashes
import Switchboard.Proofs.Channel.Entries
import Switchboard.Proofs.Exchange.Growth
import Switchboard.Proofs.Calls.Agreement
