import Rekey.Dispatch.Turns
import Rekey.Main
import Rekey.Migration.Single
import Rekey.Migration.Turns
import Rekey.Proofs.CommandLine.Exit
import Rekey.Proofs.Counter.History
import Rekey.Proofs.Dispatch.Repeats
import Rekey.Proofs.Migration.Breaking
import Rekey.Proofs.Migration.Limit
import Rekey.Proofs.Retry.Cap
import Rekey.Proofs.Retry.Course
import Rekey.Proofs.Retry.Envelope
import Rekey.Proofs.Retry.Overflow
import Rekey.Proofs.Run.DryRun
import Rekey.Proofs.Run.Independence
import Rekey.Proofs.Run.Labels
import Rekey.Proofs.Run.Locality
import Rekey.Proofs.Run.Rerun
import Rekey.Proofs.Run.ScanFailure
import Rekey.Proofs.Run.Secrecy
import Rekey.Proofs.Run.Tables
import Rekey.Proofs.Run.Unacknowledged
import Rekey.Proofs.Scan.Merge
import Rekey.Proofs.Scan.Waiting
import Rekey.Proofs.Service.Calls
import Rekey.Proofs.Service.Names
import Rekey.Proofs.Service.Openings
import Rekey.Proofs.Service.Outages
import Rekey.Proofs.Service.Pages
import Rekey.Proofs.Service.RoundTrip
import Rekey.Proofs.Window.Demand
import Rekey.Scan.Turns
import Rekey.Scripted.ListStore
