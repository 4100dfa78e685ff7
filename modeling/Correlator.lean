import Correlator.Client
import Correlator.Event.Mailbox
import Correlator.Main
import Correlator.Pool.Shift
import Correlator.StopSignal
import Correlator.Proofs.Exchange.Replies
import Correlator.Proofs.Switchboard.Network
import Correlator.Proofs.Switchboard.Teardown
import Correlator.Proofs.Pipeline.Plant
import Correlator.Proofs.Pipeline.Addressee
import Correlator.Proofs.Pool.Shift
import Correlator.Proofs.Registry.Registrar
import Correlator.Proofs.Bridge.Deadlines
import Correlator.Proofs.Service.Start
import Correlator.Proofs.Send.Views
import Correlator.Proofs.Bridge.Keeping
import Correlator.Proofs.Exchange.Served
import Correlator.Proofs.Bridge.Shutdown
import Correlator.Proofs.Element.Accepted
import Correlator.Proofs.Header.Listing
import Correlator.Proofs.Pipeline.Sinks
import Correlator.Proofs.Exchange.HungUp
import Correlator.Proofs.Service.Ending
import Correlator.Proofs.Service.Limits
import Correlator.Proofs.Pool.Gauge
import Correlator.Proofs.Payload
import Correlator.Proofs.Client.Relay
import Correlator.Proofs.Header.RoundTrip
import Correlator.Proofs.Header.Block
import Correlator.Proofs.Template.Parts
import Correlator.Proofs.Bridge.Dispatches
import Correlator.Proofs.Config.Diagnosis
import Correlator.Proofs.Event.Edits
import Correlator.Proofs.Bridge.Replying
import Correlator.Proofs.Bridge.Counts
import Correlator.Proofs.Download
import Correlator.Proofs.StopSignal
import Correlator.Proofs.Event.WrittenForm
