import Netsieve.Endpoint.Codec
import Netsieve.Message.Codec
import Netsieve.Proofs.Delivery.Decision
import Netsieve.Proofs.Delivery.Direct
import Netsieve.Proofs.Delivery.Latency
import Netsieve.Proofs.Endpoint.Order
import Netsieve.Proofs.Evaluation.Refinement
import Netsieve.Proofs.Evaluation.Skip
import Netsieve.Proofs.Failure
import Netsieve.Proofs.Inspection
import Netsieve.Proofs.Journal
import Netsieve.Proofs.Message.Setters
import Netsieve.Proofs.Mirror
import Netsieve.Proofs.Partition
import Netsieve.Proofs.Record.Duration
import Netsieve.Proofs.Registration
import Netsieve.Proofs.Replay
import Netsieve.Proofs.Restoration
import Netsieve.Proofs.Rule.Draft
import Netsieve.Proofs.Scenario.Composition
import Netsieve.Proofs.Schedule
import Netsieve.Scenario.Session
