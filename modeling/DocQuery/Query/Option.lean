/-!
# Query options

The parts of a query besides its selector, under the names that the options document of a request gives
them.
-/

namespace DocQuery

/-- A part of a query besides its selector. -/
inductive QueryOption where
  /-- The number of documents to leave out at the start. -/
  | skip
  /-- The greatest number of documents to give. -/
  | limit
  /-- The fields to give of each document. -/
  | fields
  /-- The fields to sort by. -/
  | sort
deriving DecidableEq

namespace QueryOption

def all : List QueryOption := [skip, limit, fields, sort]

def name : QueryOption → String
  | skip => "skip"
  | limit => "limit"
  | fields => "fields"
  | sort => "sort"

def ofName? (name : String) : Option QueryOption := all.find? (·.name = name)

@[simp] theorem ofName?_name (o : QueryOption) : ofName? o.name = some o := by cases o <;> decide +kernel

end QueryOption

end DocQuery
