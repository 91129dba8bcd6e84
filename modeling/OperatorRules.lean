import OperatorRules.Disk.Launch
import OperatorRules.Lint
import OperatorRules.Main
import OperatorRules.Manifest.Definition
import OperatorRules.Manifest.Yaml
import OperatorRules.Promql.Literal
import OperatorRules.Registry.History
import OperatorRules.Rule.Data
import OperatorRules.Text.Lossy
import OperatorRules.Yaml.Reading
import OperatorRules.Proofs.Registry.Setup
import OperatorRules.Proofs.Registry.Enrichment
import OperatorRules.Proofs.Registry.Events
import OperatorRules.Proofs.Registry.Order
import OperatorRules.Proofs.Registry.Relisting
import OperatorRules.Proofs.Registry.Namespace
import OperatorRules.Proofs.Lint.Enrichment
import OperatorRules.Proofs.Runbook.Environment
import OperatorRules.Proofs.Text.Digits
import OperatorRules.Proofs.Yaml.Reading
import OperatorRules.Proofs.Yaml.Layout
import OperatorRules.Proofs.Yaml.Entry
import OperatorRules.Proofs.Yaml.Node
import OperatorRules.Proofs.Yaml.Printable
import OperatorRules.Proofs.Manifest.Scalars
import OperatorRules.Proofs.Manifest.Yaml
import OperatorRules.Proofs.Manifest.Lines
import OperatorRules.Proofs.Json.Layout
import OperatorRules.Proofs.Json.Decoder
import OperatorRules.Proofs.Manifest.Agreement
import OperatorRules.Proofs.Manifest.Groups
import OperatorRules.Proofs.Disk.StaleFile
import OperatorRules.Proofs.Promtool.Processes
import OperatorRules.Proofs.Promtool.Volumes
import OperatorRules.Proofs.Verification.Stages
import OperatorRules.Proofs.MetricsDoc
import OperatorRules.Proofs.Promtool.TimeLimit
import OperatorRules.Proofs.Quotation
import OperatorRules.Proofs.Rule.Settings
