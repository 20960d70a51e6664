/-!
Serial number arithmetic: 32-bit serials on a circle, each newer than those less than half the
circle behind it.
-/

namespace ZonePropagation.Serial

def distance (base serial : UInt32) : UInt32 :=
  serial - base

def isNewer (left right : UInt32) : Bool :=
  left != right && distance right left < 0x80000000

def isAtLeast (left right : UInt32) : Bool :=
  left == right || isNewer left right

/-- Sorts serials by their distance ahead of `base`, the farthest first; equals keep their
order. -/
def newestFirst (base : UInt32) (serials : List UInt32) : List UInt32 :=
  serials.mergeSort fun left right => distance base right ≤ distance base left

end ZonePropagation.Serial
