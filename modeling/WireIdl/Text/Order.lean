/-!
Texts in ascending order, by code points.
-/

namespace WireIdl.Text

def ascending (texts : List String) : List String :=
  (texts.mergeSort fun a b => decide (a ≤ b)).eraseReps

end WireIdl.Text
