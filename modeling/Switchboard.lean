import Switchboard.Json.Forms
import Switchboard.Proofs.Hub.Cancelling
import Switchboard.Proofs.Hub.Results
import Switchboard.Proofs.Packet.Catalogs
import Switchboard.Proofs.Packet.Components
import Switchboard.Proofs.Queue.Shutting
import Switchboard.Proofs.Queue.Transparency
import Switchboard.Proofs.Session.Coherence
import Switchboard.Proofs.Session.Disclosure
import Switchboard.Proofs.Session.Faults
import Switchboard.Proofs.Session.Letters
import Switchboard.Proofs.Session.Observers
import Switchboard.Proofs.Session.Sources
import Switchboard.Proofs.Session.Winners
import Switchboard.Proofs.Settings.Variables
import Switchboard.Telemetry.Logger
