set_option autoImplicit false

/-!
The marker at the front of a text that tells a failed test from an answer. There is no other sign:
whoever sorts test results looks for it.

Main statement: what reports a reason carries the marker (`isFailure_failureText`).
-/

namespace EndpointHealth

def failureMarker : String := "Model Test Failed"

/-- Whether a text starts with the marker. -/
def isFailure (text : String) : Bool := failureMarker.toList.isPrefixOf text.toList

def failureText (reason : String) : String := failureMarker ++ ": " ++ reason

theorem isFailure_failureText (reason : String) : isFailure (failureText reason) = true := by
  simp [isFailure, failureText]

end EndpointHealth
