/-!
# Octets

What travels on the wire is a list of octets. This module writes the two word
sizes of the media protocols in network order and reads them back:

* `word16_ofWord16`, `word32_ofWord32`: a word is read back from the octets it
  is written as;
* `word16?_append`, `word32?_append`: so it is in front of any other octets.
-/

namespace Simulcast

/-- A message, or a part of one, as it stands on the wire. -/
abbrev Octets := List UInt8

namespace Octets

/-- The two octets of a word, the high one first. -/
def ofWord16 (w : UInt16) : Octets :=
  [UInt8.ofNat (w.toNat / 0x100), UInt8.ofNat w.toNat]

/-- The four octets of a word, the high one first. -/
def ofWord32 (w : UInt32) : Octets :=
  [UInt8.ofNat (w.toNat / 0x1000000), UInt8.ofNat (w.toNat / 0x10000),
    UInt8.ofNat (w.toNat / 0x100), UInt8.ofNat w.toNat]

/-- The word whose high octet is `a` and whose low octet is `b`. -/
def word16 (a b : UInt8) : UInt16 :=
  UInt16.ofNat (a.toNat * 0x100 + b.toNat)

/-- The word whose octets are `a`, `b`, `c` and `d`, from the high one down. -/
def word32 (a b c d : UInt8) : UInt32 :=
  UInt32.ofNat (a.toNat * 0x1000000 + b.toNat * 0x10000 + c.toNat * 0x100 + d.toNat)

/-- Takes a word of 16 bits from the front. -/
def word16? : Octets → Option (UInt16 × Octets)
  | a :: b :: rest => some (word16 a b, rest)
  | _ => none

/-- Takes a word of 32 bits from the front. -/
def word32? : Octets → Option (UInt32 × Octets)
  | a :: b :: c :: d :: rest => some (word32 a b c d, rest)
  | _ => none

/-- Takes `n` words of 32 bits from the front. -/
def words32? : Nat → Octets → Option (List UInt32 × Octets)
  | 0, bs => some ([], bs)
  | n + 1, bs => do
    let (w, bs) ← word32? bs
    let (ws, bs) ← words32? n bs
    return (w :: ws, bs)

/-- Takes `n` octets from the front. -/
def take? (n : Nat) (bs : Octets) : Option (Octets × Octets) :=
  if n ≤ bs.length then some (bs.take n, bs.drop n) else none

/-- As many zeros as asked for. -/
def zeros (n : Nat) : Octets :=
  List.replicate n 0

theorem word16_ofWord16 (w : UInt16) :
    word16 (UInt8.ofNat (w.toNat / 0x100)) (UInt8.ofNat w.toNat) = w := by
  apply UInt16.toNat_inj.mp
  have := w.toNat_lt
  simp only [word16, UInt16.toNat_ofNat', UInt8.toNat_ofNat']
  omega

theorem word32_ofWord32 (w : UInt32) :
    word32 (UInt8.ofNat (w.toNat / 0x1000000)) (UInt8.ofNat (w.toNat / 0x10000))
      (UInt8.ofNat (w.toNat / 0x100)) (UInt8.ofNat w.toNat) = w := by
  apply UInt32.toNat_inj.mp
  have := w.toNat_lt
  simp only [word32, UInt32.toNat_ofNat', UInt8.toNat_ofNat']
  omega

theorem word16?_append (w : UInt16) (rest : Octets) :
    word16? (ofWord16 w ++ rest) = some (w, rest) :=
  congrArg (fun v => some (v, rest)) (word16_ofWord16 w)

theorem word32?_append (w : UInt32) (rest : Octets) :
    word32? (ofWord32 w ++ rest) = some (w, rest) :=
  congrArg (fun v => some (v, rest)) (word32_ofWord32 w)

end Octets
end Simulcast
