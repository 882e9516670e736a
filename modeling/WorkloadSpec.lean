import WorkloadSpec.Json.Reader
import WorkloadSpec.Main
import WorkloadSpec.Proofs.Layers
import WorkloadSpec.Proofs.Stages
import WorkloadSpec.Proofs.Patch
import WorkloadSpec.Proofs.History
import WorkloadSpec.Proofs.Expansion
import WorkloadSpec.Proofs.OperatorFree
import WorkloadSpec.Proofs.RoundTrip
import WorkloadSpec.Proofs.SectionRoundTrip
import WorkloadSpec.Proofs.MinimalForm
import WorkloadSpec.Proofs.LossRoundTrip
import WorkloadSpec.Proofs.OptimizerRoundTrip
import WorkloadSpec.Proofs.SettingsRoundTrip
import WorkloadSpec.Proofs.SourceReading
import WorkloadSpec.Proofs.Mentions
import WorkloadSpec.Proofs.LoopBindings
import WorkloadSpec.Proofs.RequiredSections
import WorkloadSpec.Proofs.BuildExtraction
import WorkloadSpec.Proofs.EntryOrder
import WorkloadSpec.Proofs.GridEnumeration
import WorkloadSpec.Proofs.Relevance
import WorkloadSpec.Proofs.NormalForm
import WorkloadSpec.Proofs.TypedSelections
import WorkloadSpec.Proofs.BuildForms
import WorkloadSpec.Proofs.TypedRoundTrip
import WorkloadSpec.Proofs.ExperimentCount
import WorkloadSpec.Proofs.LayerOrder
import WorkloadSpec.Proofs.SectionOrder
import WorkloadSpec.Proofs.TakenBranch
import WorkloadSpec.Proofs.ShapeVerdict
import WorkloadSpec.Proofs.Buildable
import WorkloadSpec.Proofs.TemplateLanguage
import WorkloadSpec.Proofs.OperatorForms
import WorkloadSpec.Proofs.FixedPoints
import WorkloadSpec.Proofs.IndexedReferences
import WorkloadSpec.Proofs.SelectionGrammar
import WorkloadSpec.Proofs.GridLimit
import WorkloadSpec.Proofs.Registration
import WorkloadSpec.Proofs.DefaultIntegers
