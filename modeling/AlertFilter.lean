import AlertFilter.Main
import AlertFilter.Pipeline.Edit
import AlertFilter.Store.Memory
import AlertFilter.Proofs.Unfolding
import AlertFilter.Proofs.Links
import AlertFilter.Proofs.DroppedSteps
import AlertFilter.Proofs.Termination
import AlertFilter.Proofs.Cycles
import AlertFilter.Proofs.CanonicalForm
import AlertFilter.Proofs.Locality
import AlertFilter.Proofs.RecordFields
import AlertFilter.Proofs.StepRecord
import AlertFilter.Proofs.FilterRecord
import AlertFilter.Proofs.SavedReference
import AlertFilter.Proofs.Occurrences
import AlertFilter.Proofs.DecodedSteps
import AlertFilter.Proofs.WireRoundTrip
import AlertFilter.Proofs.ExpressionJson
import AlertFilter.Proofs.LocalForms
import AlertFilter.Proofs.CompiledExpressions
import AlertFilter.Proofs.DollarTexts
import AlertFilter.Proofs.QueryJson
import AlertFilter.Proofs.LeftToRight
import AlertFilter.Proofs.CompleteSteps
import AlertFilter.Proofs.BooleanResults
import AlertFilter.Proofs.EditRuns
import AlertFilter.Proofs.StoreRuns
import AlertFilter.Proofs.UnreachedFilters
import AlertFilter.Proofs.RetryRuns
import AlertFilter.Proofs.LetterCase
import AlertFilter.Proofs.ClientCalls
import AlertFilter.Proofs.LostReplies
import AlertFilter.Proofs.PatchRuns
import AlertFilter.Proofs.ReferenceComparisons
import AlertFilter.Proofs.ReplacedValues
import AlertFilter.Proofs.AbsoluteValues
import AlertFilter.Proofs.CatalogShapes
import AlertFilter.Proofs.ExpressionParts
import AlertFilter.Proofs.Scopes
import AlertFilter.Proofs.LogicalNodes
import AlertFilter.Proofs.BlankOperands
import AlertFilter.Proofs.WellFormedNames
import AlertFilter.Proofs.NamedReferences
import AlertFilter.Proofs.FittedConnectors
import AlertFilter.Proofs.Neighbours
import AlertFilter.Proofs.PatchParts
import AlertFilter.Proofs.IntegerCoercion
import AlertFilter.Proofs.TypedNumbers
import AlertFilter.Proofs.MemberOrder
import AlertFilter.Proofs.KindFields
import AlertFilter.Proofs.OlderForms
import AlertFilter.Proofs.LabelSearch
import AlertFilter.Proofs.RetryWaits
import AlertFilter.Proofs.ExpressionText
import AlertFilter.Proofs.PercentEscapes
import AlertFilter.Proofs.AddressTargets
import AlertFilter.Proofs.FilterAddresses
import AlertFilter.Proofs.LiteralJson
