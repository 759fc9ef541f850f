/-!
# Object ids

An object id is given with its twelve bytes, or it is one of those that are known by the turn in which they
were made alone. An id of the second kind differs from every given one, whatever bytes stand for it. All
object ids stand in one order, and no two of them in one place of it.
-/

namespace DocQuery

inductive ObjectId where
  /-- An id with its twelve bytes, the most significant first. -/
  | given (bytes : BitVec 96)
  /-- An id that was made in its turn, with its serial number. -/
  | issued (serial : Nat)
deriving DecidableEq, Inhabited

namespace ObjectId

/-- The number that the first issued id is shown by. Its bytes are a time stamp, the last of the numbers
that tell stores apart, and serial number zero. -/
def firstIssued : Nat := 0x6afe0000ffffffffff000000

def number : ObjectId → Nat
  | given bytes => bytes.toNat
  | issued serial => firstIssued + serial

/-- The place of an object id in the order of all: ids are ordered by their numbers, and an issued id
comes after the given one of its number. -/
def place : ObjectId → Nat
  | given bytes => 2 * bytes.toNat
  | issued serial => 2 * (firstIssued + serial) + 1

end ObjectId

end DocQuery
