import Simulcast.Vp8.Descriptor

/-!
# Picture ids counted on

Picture ids take seven or fifteen bits and wrap. `PictureClock` remembers the
newest picture by its number counted on from the first one, and `unwrap` finds the
number nearest to it that an id can stand for. A sender may change the width of
its ids; how far one cycle reaches is told by the width of the newest one.

The numbers are signed words of 32 bits. Behind the last one, 2³¹ - 1, they go on
below zero, and the clock stays where it is.
-/

namespace Simulcast.Vp8

/-- The newest picture: its number, and the width of its id. -/
structure PictureClock where
  newest : Int32 := 0
  long : Bool := false
  deriving DecidableEq, Repr

namespace PictureClock

/-- The number of ids of a width. -/
def cycle (long : Bool) : Int := if long then 0x8000 else 0x80

/-- The bits of an id that count. -/
def idValue (id : UInt16) (long : Bool) : Int := (id.toNat : Int) % cycle long

/-- The clock just before a first picture. -/
def before (d : Descriptor) : PictureClock :=
  { newest := Int32.ofInt d.pictureId.toNat - 1, long := d.longPictureId }

/-- The number of a picture near the newest one. -/
def unwrap (c : PictureClock) (id : UInt16) (long : Bool) : Int32 :=
  let m := cycle c.long
  let value := idValue id long
  let n := c.newest - Int32.ofInt (c.newest.toInt % m) + Int32.ofInt value
  let lead := (n - c.newest).toInt
  if lead < -(m / 2) then n + Int32.ofInt m
  else if m / 2 < lead ∧ value < m then n - Int32.ofInt m
  else n

/-- The clock after a picture that is not older than the newest one. -/
def advance (c : PictureClock) (number : Int32) (long : Bool) : PictureClock :=
  if c.newest ≤ number then { newest := number, long } else c

end PictureClock
end Simulcast.Vp8
