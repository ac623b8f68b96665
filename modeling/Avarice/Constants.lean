import Mathlib.Logic.Basic

/-!
# Constants of the ICE protocols

The values of `jtag_constants.h` and of the enumerations in `jtag2.h` and
`jtag_device_desc.h` that the model uses, under the names they have there.
-/

namespace Avarice

/-- The type of a breakpoint.  The source adds a flag bit to the enumeration
and casts script arguments to it, so every 32-bit value can occur. -/
abbrev BpType := UInt32

namespace BpType

abbrev none : BpType := 0
abbrev code : BpType := 1
abbrev softcode : BpType := 2
abbrev writeData : BpType := 3
abbrev readData : BpType := 4
abbrev accessData : BpType := 5
abbrev dataMask : BpType := 6
/-- A data breakpoint has an associated mask in the next slot. -/
abbrev hasMask : BpType := 0x80000000

end BpType

/-! ## Breakpoint limits of the mkII -/

abbrev maxBreakpoints2 : Nat := 4
abbrev breakpoint2FirstData : Nat := 2
abbrev breakpoint2DataMask : Nat := 3
abbrev maxTotalBreakpoints2 : Nat := 32

/-! ## Device flags -/

abbrev devflNoSoftbp : UInt32 := 0x000001

end Avarice
