import Provenance.Main
import Provenance.Tool.Encoding
import Provenance.Transfer.Encoding
import Provenance.Proofs.Outcomes
import Provenance.Proofs.MapEntries
import Provenance.Proofs.ListSplits
import Provenance.Proofs.SchemaChecks
import Provenance.Proofs.SchemaAcceptance
import Provenance.Proofs.SchemaOrder
import Provenance.Proofs.DocumentChecks
import Provenance.Proofs.DocumentGrowth
import Provenance.Proofs.DraftEmission
import Provenance.Proofs.BuiltDrafts
import Provenance.Proofs.DocumentValidity
import Provenance.Proofs.PlanReading
import Provenance.Proofs.PlanSteps
import Provenance.Proofs.TransferHops
import Provenance.Proofs.DocumentFlow
import Provenance.Proofs.InferredTransfers
import Provenance.Proofs.TransferRoutes
import Provenance.Proofs.SequenceOrder
import Provenance.Proofs.SequenceReading
import Provenance.Proofs.RegistryFiles
import Provenance.Proofs.ToolConnections
import Provenance.Proofs.DocumentPorts
import Provenance.Proofs.PlannedTransfers
import Provenance.Proofs.StateNames
import Provenance.Proofs.ConnectionPlaces
import Provenance.Proofs.ComparisonChecks
import Provenance.Proofs.ScopedContainment
import Provenance.Proofs.FlowPorts
import Provenance.Proofs.DocumentNodes
import Provenance.Proofs.StoreIndex
import Provenance.Proofs.DraftEntities
import Provenance.Proofs.EntityIds
import Provenance.Proofs.SkippedTransfers
import Provenance.Proofs.SequenceWeaving
import Provenance.Proofs.ComparedItems
import Provenance.Proofs.NarrowScopes
import Provenance.Proofs.SelfComparison
import Provenance.Proofs.HiddenContent
import Provenance.Proofs.RegistrySteps
import Provenance.Proofs.ReturnedFiles
import Provenance.Proofs.WrittenIds
import Provenance.Proofs.ManifestEntries
import Provenance.Proofs.ParameterSources
import Provenance.Proofs.JsonValues
import Provenance.Proofs.SchemaFaults
import Provenance.Proofs.PatchedDocuments
import Provenance.Proofs.FilteredSteps
import Provenance.Proofs.WrittenPlans
import Provenance.Proofs.ReorderedTools
import Provenance.Proofs.WalkedStates
import Provenance.Proofs.DocumentCategories
import Provenance.Proofs.ListedUses
import Provenance.Proofs.TextPieces
import Provenance.Proofs.ComposedPaths
import Provenance.Proofs.OptionOrder
import Provenance.Proofs.LocalizedPaths
