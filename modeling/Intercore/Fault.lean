/-!
# Faults

The ways in which an operation can be cut short.
-/

namespace Intercore

/-- Why an operation was abandoned. What it had done before that stays done. -/
inductive Fault
  /-- An array of `len` elements was accessed at `index`. -/
  | outOfBounds (len index : Nat)
  /-- An exclusive borrow was demanded while another one is live. -/
  | alreadyBorrowed
  /-- An index did not fit its word after adding one. -/
  | addOverflow
  deriving DecidableEq, Repr

namespace Fault

def message : Fault → String
  | outOfBounds len index =>
    "index out of bounds: the len is " ++ toString len ++ " but the index is " ++ toString index
  | alreadyBorrowed => "explicit panic"
  | addOverflow => "attempt to add with overflow"

end Fault

end Intercore
