import RecordFilter.Main
import RecordFilter.Proofs.FieldCache
import RecordFilter.Proofs.Hierarchy
import RecordFilter.Proofs.CacheHistory
import RecordFilter.Proofs.Keeping
import RecordFilter.Proofs.ValueTypes
import RecordFilter.Proofs.Resolution
import RecordFilter.Proofs.Derivation
import RecordFilter.Proofs.Printing
import RecordFilter.Proofs.Reduction
import RecordFilter.Proofs.Forest
import RecordFilter.Proofs.Meaning
import RecordFilter.Proofs.Sessions
import RecordFilter.Proofs.Typing
import RecordFilter.Proofs.JoinCalls
import RecordFilter.Proofs.Interpretation
import RecordFilter.Proofs.Identity
import RecordFilter.Proofs.TokenStream
import RecordFilter.Proofs.Concatenation
import RecordFilter.Proofs.Alone
import RecordFilter.Proofs.Composition
import RecordFilter.Proofs.Faults
import RecordFilter.Proofs.Search
import RecordFilter.Proofs.Viability
import RecordFilter.Proofs.Inheritance
import RecordFilter.Proofs.OnePredicate
import RecordFilter.Proofs.IntegerOrder
import RecordFilter.Proofs.StoredText
import RecordFilter.Proofs.Renderings
import RecordFilter.Proofs.Commands
import RecordFilter.Proofs.PathSequence
import RecordFilter.Proofs.ConditionText
import RecordFilter.Proofs.Wildcards
import RecordFilter.Proofs.Collections
import RecordFilter.Proofs.OperatorLaws
import RecordFilter.Proofs.SingleValues
import RecordFilter.Proofs.WallClock
import RecordFilter.Proofs.Descriptions
import RecordFilter.Proofs.WrongWord
import RecordFilter.Proofs.ZonedTypes
import RecordFilter.Proofs.NullEntries
import RecordFilter.Proofs.EvaluatorCalls
import RecordFilter.Proofs.MappedPaths
import RecordFilter.Proofs.Readers
import RecordFilter.Proofs.SearchOrder
import RecordFilter.Proofs.Lineage
import RecordFilter.Proofs.CursorCalls
import RecordFilter.Proofs.SeparatedTexts
import RecordFilter.Proofs.Renaming
