import AppAdmission.ApiServer.Client
import AppAdmission.Main
import AppAdmission.Server.Identity
import AppAdmission.Proofs.Admission.Conduct
import AppAdmission.Proofs.Admission.Discretion
import AppAdmission.Proofs.Admission.Evaluation
import AppAdmission.Proofs.Admission.Gate
import AppAdmission.Proofs.Admission.Hearing
import AppAdmission.Proofs.Admission.Refresh
import AppAdmission.Proofs.Admission.ReleaseRecord
import AppAdmission.Proofs.Admission.Rehearsal
import AppAdmission.Proofs.Admission.Rereading
import AppAdmission.Proofs.Admission.Teardown
import AppAdmission.Proofs.Admission.Verdict
import AppAdmission.Proofs.Admission.Writes
import AppAdmission.Proofs.Answer
import AppAdmission.Proofs.ApiServer.Lookup
import AppAdmission.Proofs.Metrics.Accounting
import AppAdmission.Proofs.Metrics.Scrape
import AppAdmission.Proofs.Patch.Address
import AppAdmission.Proofs.Patch.InPlace
import AppAdmission.Proofs.Patch.Inverse
import AppAdmission.Proofs.Policy.Lists
import AppAdmission.Proofs.Server.Timeout.Grammar
import AppAdmission.Proofs.Store.FiniteMap
import AppAdmission.Proofs.Store.Typed
import AppAdmission.Proofs.Wire.Format
