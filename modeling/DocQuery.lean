import DocQuery.Proofs.Collection.History
import DocQuery.Proofs.Properties.RoundTrip
import DocQuery.Proofs.Query.Shapes
import DocQuery.Proofs.Registry.Transparency
import DocQuery.Proofs.Scope.Equality
import DocQuery.Proofs.Scope.Lookups
import DocQuery.Proofs.Scope.Pages
import DocQuery.Proofs.Session.Calls
import DocQuery.Proofs.Session.Isolation
import DocQuery.Proofs.Session.Memo
import DocQuery.Registry.Mapping
import DocQuery.Proofs.Text.Words
import DocQuery.Proofs.Query.OrderReading
import DocQuery.Proofs.Double.Integers
import DocQuery.Proofs.StoreValue.SortOrder
import DocQuery.Proofs.Collection.SortedSearch
import DocQuery.Proofs.Selector.Comparators
import DocQuery.Proofs.Scope.Merging
import DocQuery.Proofs.Scope.Chains
import DocQuery.Proofs.Query.Chronology
import DocQuery.Proofs.Query.Width
import DocQuery.Proofs.Query.ConditionSets
import DocQuery.Proofs.Collection.Projection
import DocQuery.Proofs.Properties.Erasure
import DocQuery.Proofs.Properties.Resaving
import DocQuery.Proofs.Query.Tokens
import DocQuery.Proofs.Converter.Normalization
import DocQuery.Proofs.Converter.IntegerTexts
import DocQuery.Proofs.Selector.Remainders
