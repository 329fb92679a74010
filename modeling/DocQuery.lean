import DocQuery.Number.Decimal
import DocQuery.Scalar
import DocQuery.Model
import DocQuery.Query
import DocQuery.Parameters
import DocQuery.Config
import DocQuery.Codec.Query
import DocQuery.Digest
import DocQuery.Codec.Plan
import DocQuery.Command
import DocQuery.Evaluation
import DocQuery.Store
import DocQuery.Materialize
import DocQuery.Codec.Row
import DocQuery.Database
import DocQuery.Session
import DocQuery.Definition.Build
import DocQuery.Main
import DocQuery.Proofs.PlanCache
import DocQuery.Proofs.Inlining
import DocQuery.Proofs.CommandParameters
import DocQuery.Proofs.PlanSafety
import DocQuery.Proofs.LookupRoundTrip
import DocQuery.Proofs.RowLayouts
import DocQuery.Proofs.IdentityShaping
import DocQuery.Proofs.IdentityResolution
import DocQuery.Proofs.BareSelects
import DocQuery.Proofs.ExpressionText
import DocQuery.Proofs.CommandText
import DocQuery.Proofs.UnambiguousCommands
import DocQuery.Proofs.SharedCache
import DocQuery.Proofs.LastWrites
import DocQuery.Proofs.DocumentIds
import DocQuery.Proofs.OwnLookups
import DocQuery.Proofs.KeyedSelects
import DocQuery.Proofs.PartitionIsolation
import DocQuery.Proofs.InlinedForms
import DocQuery.Proofs.DistinctRows
import DocQuery.Proofs.Paging
import DocQuery.Proofs.TrackingModes
import DocQuery.Proofs.EnumerationRuns
import DocQuery.Proofs.UntrackedRuns
import DocQuery.Proofs.DefinitionCompiling
import DocQuery.Proofs.SerializedPlans
import DocQuery.Proofs.ComparisonOutcomes
import DocQuery.Proofs.MembershipChains
import DocQuery.Proofs.RankedOrder
import DocQuery.Proofs.StableSorting
import DocQuery.Proofs.EntityData
import DocQuery.Proofs.RowConformity
import DocQuery.Proofs.ColumnReads
import DocQuery.Proofs.OwnershipChains
import DocQuery.Proofs.LiftedRuns
import DocQuery.Proofs.ReachedPlaceholders
import DocQuery.Proofs.FilterOrder
import DocQuery.Proofs.FloatConstants
import DocQuery.Proofs.IntegerArithmetic
import DocQuery.Proofs.TypedReads
import DocQuery.Proofs.EqualShapes
import DocQuery.Proofs.TableCells
