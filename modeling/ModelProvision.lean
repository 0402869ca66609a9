import ModelProvision.Controller.Command
import ModelProvision.Json.Key
import ModelProvision.Json.Writer
import ModelProvision.Metrics.Exposition
import ModelProvision.Pod.Manifest
import ModelProvision.Proofs.Injection.Contract
import ModelProvision.Proofs.Source
import ModelProvision.Proofs.Injection.Course
import ModelProvision.Proofs.Injection.Effect
import ModelProvision.Proofs.Injection.Repetition
import ModelProvision.Proofs.Injection.Names
import ModelProvision.Proofs.Injection.Volumes
import ModelProvision.Proofs.Injection.Mounts
import ModelProvision.Proofs.Injection.Convergence
import ModelProvision.Proofs.Json.Grammar
import ModelProvision.Proofs.Json.Scanning
import ModelProvision.Proofs.Json.Step
import ModelProvision.Proofs.Json.Reading
import ModelProvision.Proofs.Credentials.Document
import ModelProvision.Proofs.Credentials.Secrecy
import ModelProvision.Proofs.Logging.Configuration
import ModelProvision.Proofs.Injection.Startup
import ModelProvision.Proofs.Merge.Laws
import ModelProvision.Proofs.Merge.Lookup
import ModelProvision.Proofs.Settings.Decision
import ModelProvision.Proofs.Settings.Scanning
import ModelProvision.Proofs.Settings.Sheet
import ModelProvision.Proofs.Metrics.Counting
import ModelProvision.Proofs.Injection.Tally
import ModelProvision.Proofs.Settings.Precedence
import ModelProvision.Proofs.Settings.ReadBack
import ModelProvision.Proofs.Plan.EffectiveUri
import ModelProvision.Proofs.Plan.Containment
import ModelProvision.Proofs.Metrics.Buckets
import ModelProvision.Proofs.Metrics.Recording
