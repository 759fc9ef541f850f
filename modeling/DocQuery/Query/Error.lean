/-!
# Queries that cannot be compiled
-/

namespace DocQuery

/-- Why a query cannot be compiled. Each reason quotes the clause at fault. -/
inductive CompileError where
  /-- A sort term without a field, or one that does not read as a field and a direction. -/
  | invalidOrder (clause : String)
  /-- A comparator that the store does not know. -/
  | invalidOperator (clause : String)
deriving DecidableEq

def CompileError.message : CompileError → String
  | .invalidOrder clause => "Invalid order spec: " ++ clause
  | .invalidOperator clause => "Invalid operator: " ++ clause

end DocQuery
