import LifePath.Condition.Cache
import LifePath.Proofs.Catalog.References
import LifePath.Proofs.Condition.Comparison
import LifePath.Proofs.Condition.Reading
import LifePath.Proofs.Condition.RoundTrip
import LifePath.Proofs.Condition.Runs
import LifePath.Proofs.Condition.Words
import LifePath.Proofs.Condition.Writing
import LifePath.Proofs.Session.Calls
import LifePath.Proofs.Session.LifeCycle
import LifePath.Proofs.Story.Faults
import LifePath.Proofs.Story.Guards
import LifePath.Proofs.Story.Record
import LifePath.Service
import LifePath.Session.Interleaving
import LifePath.Proofs.Chance.Uniform
import LifePath.Proofs.Condition.Mention
import LifePath.Proofs.Story.Ceiling
import LifePath.Proofs.Story.Unmentioned
import LifePath.Proofs.Attribute.Agreement
import LifePath.Proofs.Condition.Composition
import LifePath.Proofs.Condition.Sharing
import LifePath.Proofs.Session.Callers
import LifePath.Proofs.Session.Eviction
import LifePath.Proofs.Story.Chain
import LifePath.Proofs.Attribute.Budget
import LifePath.Proofs.Story.Draw
import LifePath.Proofs.Condition.Broken
import LifePath.Proofs.Catalog.NumericId
import LifePath.Proofs.Catalog.Construction
import LifePath.Proofs.Attribute.Typed
import LifePath.Proofs.Json.Members
import LifePath.Proofs.Catalog.Reference
import LifePath.Proofs.Catalog.TextualId
import LifePath.Proofs.Tables.Eligibility
import LifePath.Proofs.Chance.Proportion
import LifePath.Proofs.Condition.Classification
import LifePath.Proofs.Condition.Flattening
import LifePath.Proofs.Decimal.Rounding
import LifePath.Proofs.Decimal.Value
import LifePath.Proofs.Decimal.Literal
import LifePath.Proofs.Catalog.Spelling
