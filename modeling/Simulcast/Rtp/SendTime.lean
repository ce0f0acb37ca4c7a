import Simulcast.Rtp.Packet

/-!
# The absolute send time

The moment a packet leaves is stamped into a header extension of three octets:
24 bits out of the middle of an NTP timestamp, 6 of them whole seconds.
-/

namespace Simulcast.Rtp

/-- Nanoseconds in a second. -/
def nanosPerSecond : Nat := 1000000000

/-- Seconds from the start of the NTP era to that of Unix time. -/
def ntpEpochOffset : Nat := 2208988800

/-- The NTP timestamp, in units of `2^-32` seconds, of a Unix time in
nanoseconds. A time before the Unix epoch counts as the epoch. -/
def ntpOfUnix (unixNanos : Int) : UInt64 :=
  let t := unixNanos.toNat
  UInt64.ofNat ((t / nanosPerSecond + ntpEpochOffset) * 0x100000000 +
    t % nanosPerSecond * 0x100000000 / nanosPerSecond)

/-- The three octets that stand for a send time. -/
def sendTimeData (ntp : UInt64) : Octets :=
  let t := (ntp >>> 14).toNat
  [UInt8.ofNat (t / 0x10000), UInt8.ofNat (t / 0x100), UInt8.ofNat t]

namespace Header

/-- The zero octets to be counted after the elements took `grown` octets more, so
that they still fill words together. -/
def paddingAfter (padding : Nat) (grown : Int) : Nat :=
  if grown < 0 then ((padding : Int) - grown).toNat % 4
  else
    let k := grown.toNat % 4
    if padding < k then padding + 4 - k else padding - k

/-- Replaces the data of the first element with the identifier of `e`. -/
def replaceElement (e : Extension) (es : List Extension) : List Extension :=
  match es with
  | [] => []
  | x :: xs => if x.id = e.id then e :: xs else x :: replaceElement e xs

/-- Sets an element in an area whose elements are led by `lead` octets: its data
is replaced if it is there, and it is put at the end if not. -/
def putElement (h : Header) (lead : Nat) (e : Extension) : Header :=
  match h.extensions.find? fun x => x.id == e.id with
  | some old =>
    { h with
      extensions := replaceElement e h.extensions
      extensionPadding :=
        paddingAfter h.extensionPadding ((e.data.length : Int) - old.data.length) }
  | none =>
    { h with
      extensions := h.extensions ++ [e]
      extensionPadding := paddingAfter h.extensionPadding (e.data.length + lead) }

/-- Sets an element. A header without an extension area gets one; otherwise the
layout has to admit the identifier, and a header that does not is left alone. -/
def setElement (h : Header) (e : Extension) : Header :=
  if h.extended then
    match h.layout with
    | .oneOctet => if 1 ≤ e.id ∧ e.id ≤ 14 then h.putElement 1 e else h
    | .twoOctet => if 1 ≤ e.id then h.putElement 2 e else h
    | .opaqueBlock => if e.id = 0 then { h with extensions := [e] } else h
  else
    { h with
      extended := true
      profile := Layout.oneOctetProfile
      extensions := h.extensions ++ [e]
      extensionPadding := paddingAfter h.extensionPadding (e.data.length + 1) }

/-- Stamps the time of sending under an identifier; the identifier zero asks for
no stamp. -/
def stampSendTime (h : Header) (id : UInt8) (unixNanos : Int) : Header :=
  if id = 0 then h else h.setElement ⟨id, sendTimeData (ntpOfUnix unixNanos)⟩

end Header
end Simulcast.Rtp
