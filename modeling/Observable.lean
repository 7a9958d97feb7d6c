import Observable.Session
import Observable.Value.Show
import Observable.Proofs.Registrations
import Observable.Proofs.FirstObserver
import Observable.Proofs.Walk
import Observable.Proofs.Coherence
import Observable.Proofs.Waiting
import Observable.Proofs.Rebinding
import Observable.Proofs.Failures
import Observable.Proofs.Lifecycle
import Observable.Proofs.Writers
import Observable.Proofs.Frozen
import Observable.Proofs.Visits
import Observable.Proofs.Rounds
import Observable.Proofs.Validation
import Observable.Proofs.Holders
import Observable.Proofs.Lifetimes
import Observable.Proofs.Interference
import Observable.Proofs.Updates
import Observable.Proofs.ChangeGate
import Observable.Proofs.Unwinding
import Observable.Proofs.Relaying
import Observable.Proofs.Reporting
import Observable.Proofs.Commuting
import Observable.Proofs.Locality
import Observable.Proofs.Repetition
import Observable.Proofs.Cancelling
import Observable.Proofs.Ledger
import Observable.Proofs.Conversions
import Observable.Proofs.Handles
import Observable.Proofs.Interchange
