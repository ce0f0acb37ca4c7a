import Simulcast.Proofs.Vp8.FilteredPackets

/-!
# Pictures numbered in ids of two widths

A source counts its pictures in fifteen bits, and writes the ids up to 127 in seven
(`PicturePacket`). Its packets come in order or late, none farther than 63 pictures from the
newest one (`Follow`). The clock of a `PictureNumbering` tells by the width of the newest id how
far a cycle reaches. That does wherever an id changes its width, forwards and backwards, except
behind a wrap of the source: there the newest ids are short, and a late packet from before the
wrap, with a long one, is found a cycle of fifteen bits too far on (`unwrap_ofNewest`).

`findings_eq` says so of every packet of a run, over any number of wraps up to picture 2³¹. So
all pictures are found by their own numbers if and only if no late packet comes from before the
last wrap (`found_true_iff`). In `lateNumber_ahead` one does.
-/

namespace Simulcast

open Vp8 Renumbering

/-- A packet of a source that counts its pictures in fifteen bits, and writes an id in seven if
they do. -/
structure PicturePacket where
  arrival : Arrival
  descriptor : Descriptor
  /-- The picture of the packet, counted on without wrapping. -/
  picture : Int
  vp8 : arrival.vp8 = some descriptor
  writes : IdWidth.asNeeded.Writes descriptor
  pictureId : (descriptor.pictureId.toNat : Int) = picture % 0x8000
  /-- How the packet stands to the ones before it. -/
  standing : Standing
  /-- The highest temporal layer that is wanted when it comes. -/
  maxTemporal : Int

/-- The clock that has seen a picture as the newest one. -/
def Vp8.PictureClock.ofNewest (newest : Int) : PictureClock :=
  { newest := Int32.ofInt newest, long := decide (0x7f < newest % 0x8000) }

namespace PicturePacket

variable {p : PicturePacket} {newest : Int}

/-- The newest picture, once the packet has come. -/
def newestAfter (p : PicturePacket) (newest : Int) : Int :=
  if p.standing = .late then newest else max newest p.picture

/-- The packet is at most 63 pictures away from the newest one, and not behind it unless it is
late. It comes before picture 2³¹. -/
structure Near (p : PicturePacket) (newest : Int) : Prop where
  behind : newest ≤ p.picture + 63
  ahead : p.picture ≤ newest + 63
  inOrder : p.standing ≠ .late → newest ≤ p.picture
  counted : p.picture < 0x80000000

instance (p : PicturePacket) (newest : Int) : Decidable (p.Near newest) :=
  decidable_of_iff ((newest ≤ p.picture + 63 ∧ p.picture ≤ newest + 63 ∧
        p.picture < 0x80000000) ∧ (p.standing ≠ .late → newest ≤ p.picture))
    ⟨fun h => ⟨h.1.1, h.1.2.1, h.2, h.1.2.2⟩,
      fun h => ⟨⟨h.behind, h.ahead, h.counted⟩, h.inOrder⟩⟩

/-- The picture is from before the last wrap of the newest one's id. -/
def BeforeWrap (p : PicturePacket) (newest : Int) : Prop := p.picture / 0x8000 < newest / 0x8000

instance (p : PicturePacket) (newest : Int) : Decidable (p.BeforeWrap newest) :=
  inferInstanceAs (Decidable (_ < _))

theorem long_eq (p : PicturePacket) :
    p.descriptor.longPictureId = decide (0x7f < p.picture % 0x8000) := by
  rw [p.writes.longPictureId, IdWidth.isLong, ← p.pictureId]
  exact decide_eq_decide.2 (by omega)

/-- What the clock makes of an id, wherever the width changes. -/
theorem unwrap_ofNewest (h : p.Near newest) :
    (PictureClock.ofNewest newest).unwrap p.descriptor.pictureId p.descriptor.longPictureId =
      Int32.ofInt (p.picture + if p.BeforeWrap newest then 0x8000 else 0) := by
  obtain ⟨behind, ahead, -, -⟩ := h
  refine (PictureClock.unwrap_ofInt _ _ _ _).trans (congrArg Int32.ofInt ?_)
  simp only [PictureClock.nearest, PictureClock.idValue, PictureClock.cycle, BeforeWrap, p.long_eq,
    p.pictureId, decide_eq_true_eq]
  -- The width of the newest id, the width of this one, and the wrap.
  split <;> split <;> split <;> omega

/-- The number that is found does not wrap: what a picture from before the last wrap of the ids
is taken for still comes before picture 2³¹. -/
theorem toInt_unwrap_ofNewest (h : p.Near newest) (hn : 0 ≤ newest)
    (hc : newest < 0x80000000) :
    ((PictureClock.ofNewest newest).unwrap p.descriptor.pictureId
        p.descriptor.longPictureId).toInt =
      p.picture + if p.BeforeWrap newest then 0x8000 else 0 := by
  obtain ⟨behind, ahead, -, counted⟩ := id h
  rw [unwrap_ofNewest h]
  by_cases before : p.BeforeWrap newest
  · rw [if_pos before]
    unfold BeforeWrap at before
    exact Int32.toInt_ofInt_of_le (by omega) (by omega)
  · rw [if_neg before]
    exact Int32.toInt_ofInt_of_le (by omega) (by omega)

/-- A packet that is not late is found in its picture, which is the newest from then on. -/
theorem advance_ofNewest (h : p.Near newest) (hn : 0 ≤ newest) (hs : p.standing ≠ .late) :
    (PictureClock.ofNewest newest).advance
        ((PictureClock.ofNewest newest).unwrap p.descriptor.pictureId p.descriptor.longPictureId)
        p.descriptor.longPictureId =
      PictureClock.ofNewest (p.newestAfter newest) := by
  have inOrder := h.inOrder hs
  have sameCycle : ¬p.BeforeWrap newest := by
    rw [BeforeWrap]
    omega
  rw [unwrap_ofNewest h, if_neg sameCycle, Int.add_zero, newestAfter, if_neg hs,
    Int.max_eq_right inOrder, p.long_eq]
  exact if_pos (ofInt_le (by omega) inOrder h.counted)

theorem newestAfter_counted (h : p.Near newest) (hn : 0 ≤ newest) (hc : newest < 0x80000000) :
    0 ≤ p.newestAfter newest ∧ p.newestAfter newest < 0x80000000 := by
  have counted := h.counted
  unfold newestAfter
  split <;> omega

/-- Packets come in one after the other. -/
def Follow : Int → List PicturePacket → Prop
  | _, [] => True
  | newest, p :: ps => p.Near newest ∧ Follow (p.newestAfter newest) ps

instance decidableFollow : (newest : Int) → (ps : List PicturePacket) → Decidable (Follow newest ps)
  | _, [] => .isTrue trivial
  | newest, p :: ps =>
    have := decidableFollow (p.newestAfter newest) ps
    inferInstanceAs (Decidable (_ ∧ _))

end PicturePacket

/-- What becomes of the picture of a packet. -/
structure Finding where
  packet : PicturePacket
  /-- The newest picture before the packet came. -/
  newest : Int
  /-- The number by which the picture is found. -/
  number : Int

namespace Finding

/-- The packet is late, and from before the last wrap of the newest picture's id. -/
def Lags (f : Finding) : Prop := f.packet.standing = .late ∧ f.packet.BeforeWrap f.newest

instance (f : Finding) : Decidable f.Lags := inferInstanceAs (Decidable (_ ∧ _))

/-- The picture is found in its place, or if the packet lags, a cycle of fifteen bits behind
it. -/
def Shifted (f : Finding) : Prop := f.number = f.packet.picture + if f.Lags then 0x8000 else 0

theorem Shifted.true_iff {f : Finding} (h : f.Shifted) : f.number = f.packet.picture ↔ ¬f.Lags := by
  rw [h]
  split <;> rename_i lags
  · exact iff_of_false (by omega) (not_not_intro lags)
  · exact iff_of_true (Int.add_zero _) lags

end Finding

namespace Vp8.PictureNumbering

open PicturePacket

variable {n : PictureNumbering} {newest : Int} {p : PicturePacket} {ps : List PicturePacket}

/-- The state once a packet is described. -/
def afterPacket (n : PictureNumbering) (p : PicturePacket) : PictureNumbering :=
  (n.describe p.arrival p.standing p.maxTemporal).1

/-- How the pictures of packets that come one after the other are found. -/
def findings (n : PictureNumbering) (newest : Int) : List PicturePacket → List Finding
  | [] => []
  | p :: ps =>
    { packet := p, newest, number := (numberOf n p.arrival).toInt } ::
      (n.afterPacket p).findings (p.newestAfter newest) ps

theorem shifted_ofNewest (hc : n.clock = .ofNewest newest) (h : p.Near newest)
    (hn : 0 ≤ newest ∧ newest < 0x80000000) :
    { packet := p, newest, number := (numberOf n p.arrival).toInt : Finding }.Shifted := by
  rw [Finding.Shifted, numberOf_eq p.vp8, hc, toInt_unwrap_ofNewest h hn.1 hn.2]
  refine congrArg (p.picture + ·) (if_congr ⟨fun before => ⟨?_, before⟩, And.right⟩ rfl rfl)
  by_contra hs
  have inOrder := h.inOrder hs
  rw [BeforeWrap] at before
  omega

/-- The clock goes by the newest picture all along. -/
theorem clock_afterPacket (hc : n.clock = .ofNewest newest) (h : p.Near newest)
    (hn : 0 ≤ newest) : (n.afterPacket p).clock = .ofNewest (p.newestAfter newest) := by
  have some : p.arrival.vp8 ≠ none := fun hnone => by cases p.vp8.symm.trans hnone
  rw [afterPacket, clock_describe, numberOf_eq p.vp8, p.vp8, Option.getD_some, hc]
  split <;> rename_i late
  · have late := late.resolve_left (by rintro ⟨⟩)
    rw [newestAfter, if_pos late]
  · exact advance_ofNewest h hn fun hs => late (.inr hs)

theorem findings_eq (hc : n.clock = .ofNewest newest) (hn : 0 ≤ newest ∧ newest < 0x80000000)
    (follow : Follow newest ps) : ∀ f ∈ n.findings newest ps, f.Shifted := by
  induction ps generalizing n newest with
  | nil => exact fun f hf => absurd hf List.not_mem_nil
  | cons p ps ih =>
    obtain ⟨near, follow⟩ := follow
    exact List.forall_mem_cons.2 ⟨shifted_ofNewest hc near hn,
      ih (clock_afterPacket hc near hn.1) (newestAfter_counted near hn.1 hn.2) follow⟩

/-! ## From the first packet on -/

/-- How the pictures are found from a first packet on, with which the numbering starts. -/
def found (n : PictureNumbering) (first : PicturePacket) (rest : List PicturePacket) :
    List Finding :=
  (n.start first.arrival).findings first.picture (first :: rest)

variable {first : PicturePacket}

theorem clock_start (n : PictureNumbering) (first : PicturePacket) :
    (n.start first.arrival).clock = PictureClock.before first.descriptor := by
  simp only [start, first.vp8, first.writes.hasPictureId, if_true]

/-- The first picture is found in the place of its id. -/
theorem numberOf_start (n : PictureNumbering)
    (starts : first.picture = first.descriptor.pictureId.toNat) :
    numberOf (n.start first.arrival) first.arrival = Int32.ofInt first.picture := by
  rw [numberOf_eq first.vp8, clock_start, PictureClock.unwrap_before first.writes, starts]
  exact Int32.sub_add_cancel _ _

/-- Its id is small, so that there is a word for it. -/
theorem counted_first (starts : first.picture = first.descriptor.pictureId.toNat) :
    0 ≤ first.picture ∧ first.picture < 0x80000000 := by
  have small := first.descriptor.pictureId.toNat_lt
  omega

theorem clock_afterFirst (n : PictureNumbering)
    (starts : first.picture = first.descriptor.pictureId.toNat) (head : first.standing ≠ .late) :
    ((n.start first.arrival).afterPacket first).clock = .ofNewest first.picture := by
  have known : ¬(first.arrival.vp8 = none ∨ first.standing = .late) := by
    rintro (unknown | late)
    · cases first.vp8.symm.trans unknown
    · exact head late
  obtain ⟨least, most⟩ := counted_first starts
  rw [afterPacket, clock_describe, if_neg known, numberOf_start n starts, first.vp8,
    Option.getD_some, clock_start, first.long_eq, PictureClock.advance, PictureClock.newest_before,
    ← starts]
  exact if_pos (ofInt_le (by omega) (by omega) most)

theorem newestAfter_self (p : PicturePacket) : p.newestAfter p.picture = p.picture := by
  rw [newestAfter, Int.max_self, ite_self]

theorem found_eq (n : PictureNumbering) {rest : List PicturePacket}
    (starts : first.picture = first.descriptor.pictureId.toNat) (head : first.standing ≠ .late)
    (follow : Follow first.picture rest) : ∀ f ∈ n.found first rest, f.Shifted := by
  refine List.forall_mem_cons.2 ⟨?_, ?_⟩
  · obtain ⟨least, most⟩ := counted_first starts
    rw [Finding.Shifted, numberOf_start n starts, if_neg fun lags : Finding.Lags _ => head lags.1,
      Int.add_zero]
    exact Int32.toInt_ofInt_of_le (by omega) most
  · rw [newestAfter_self]
    exact findings_eq (clock_afterFirst n starts head) (counted_first starts) follow

/-- Over any number of wraps, every picture is found by its own number, or a cycle behind it if
its packet lags. So all of them are found rightly if and only if none lags. -/
theorem found_true_iff (n : PictureNumbering) {rest : List PicturePacket}
    (starts : first.picture = first.descriptor.pictureId.toNat) (head : first.standing ≠ .late)
    (follow : Follow first.picture rest) :
    (∀ f ∈ n.found first rest,
      f.number = f.packet.picture + if f.Lags then 0x8000 else 0) ∧
    ((∀ f ∈ n.found first rest, f.number = f.packet.picture) ↔
      ∀ f ∈ n.found first rest, ¬f.Lags) := by
  have shifted := found_eq n starts head follow
  exact ⟨shifted, forall₂_congr fun f hf => (shifted f hf).true_iff⟩

end Vp8.PictureNumbering

/-! ## A late packet behind a wrap -/

namespace PicturePacket

/-- A packet with nothing but a picture id. -/
def bare (picture : Int) (standing : Standing) : PicturePacket :=
  let id := PictureNumbering.idOf picture
  let descriptor : Descriptor :=
    { firstOctet := 0x90, hasPictureId := true, pictureId := id
      longPictureId := decide (127 < id.toNat), size := 3 }
  { arrival :=
      { head := true
        time := 0
        packet :=
          { header := { payloadType := 96, number := 100, ssrc := 1111 }
            payload := descriptor.encode ++ [1] }
        vp8 := some descriptor }
    descriptor
    picture
    vp8 := rfl
    writes := ⟨rfl,
      (PictureNumbering.toNat_idOf picture).trans_lt (Int.emod_lt_of_pos _ (by decide)),
      rfl⟩
    pictureId := PictureNumbering.toNat_idOf picture
    standing
    maxTemporal := 0 }

/-- Two pictures on either side of a wrap, and a late packet of the one between them. -/
def acrossWrap : List PicturePacket := [bare 32768 .gap, bare 32767 .late]

end PicturePacket

namespace Vp8.PictureNumbering

open PicturePacket

/-- The packet of picture 32767 is taken for one of picture 65535. -/
theorem lateNumber_ahead :
    Follow 32766 acrossWrap ∧
    (({} : PictureNumbering).found (bare 32766 .contiguous) acrossWrap).map
        (fun f => (f.packet.picture, f.number)) =
      [(32766, 32766), (32768, 32768), (32767, 65535)] := by
  decide

/-- The condition missed by that run. -/
theorem found_true_iff_acrossWrap :
    (bare 32766 .contiguous).picture = (bare 32766 .contiguous).descriptor.pictureId.toNat ∧
    (bare 32766 .contiguous).standing ≠ .late ∧
    Follow (bare 32766 .contiguous).picture acrossWrap ∧
    ¬∀ f ∈ ({} : PictureNumbering).found (bare 32766 .contiguous) acrossWrap,
      f.number = f.packet.picture := by
  refine ⟨by decide, by decide, by decide, fun right => ?_⟩
  have steady := (found_true_iff {} (by decide) (by decide) (by decide)).2.1 right
  exact absurd steady (by decide)

end Vp8.PictureNumbering
end Simulcast
