import DocQuery.StoreValue.Order

/-!
# Comparing store values the other way round

Comparing two values in the other order gives the opposite answer, for the order of comparable values
and for the sort order alike. Nothing here asks the values to be of one type or the numbers to be numbers.
-/

namespace DocQuery

theorem Double.compare?_swap (x y : Double) : y.compare? x = (x.compare? y).map Ordering.swap := by
  rw [compare?, compare?, Bool.or_comm]
  split
  · rfl
  · rw [Option.map_some, Std.OrientedOrd.eq_swap]

namespace StoreValue

theorem compare?_swap (a b : StoreValue) : b.compare? a = (a.compare? b).map Ordering.swap := by
  cases a <;> cases b <;> try rfl
  case string.string | boolean.boolean | dateTime.dateTime | objectId.objectId |
      int32.int32 | int32.int64 | int64.int32 | int64.int64 =>
    exact congrArg some Std.OrientedOrd.eq_swap
  case int32.double | int64.double | double.int32 | double.int64 | double.double =>
    exact Double.compare?_swap _ _

theorem tieBreak_swap (a b : Option StoreValue) : tieBreak b a = (tieBreak a b).swap := by
  cases a with
  | none => cases b <;> rfl
  | some a =>
    cases b with
    | none => rfl
    | some b =>
      rw [tieBreak, tieBreak, compare?_swap]
      cases a.compare? b <;> rfl

theorem sortOrder_swap (a b : Option StoreValue) : sortOrder b a = (sortOrder a b).swap := by
  rw [sortOrder, sortOrder, Ordering.swap_then, ← tieBreak_swap, Std.OrientedOrd.eq_swap]

end StoreValue

end DocQuery
