import Mathlib.Data.Int.Interval
import Simulcast.Proofs.Serial
import Simulcast.Proofs.Vp8.PictureRun
import Simulcast.Proofs.Vp8.Renumbering

/-!
# Sources that number their pictures

The packets of a `PictureSource` carry picture ids, and belong to pictures that follow each
other. Whatever is lost, the clock of a `PictureNumbering` finds a packet in its picture as long
as fewer pictures are lost in one piece than half a cycle of ids (`unwrap_ahead`). A packet that
comes late is found as well, or taken for one of a picture that has not come yet
(`unwrap_late`).

A picture is out (`outPictures`) once a packet of it that follows directly was in a higher
temporal layer than is wanted. The `level` of a picture is its place in the subscriber's count
if the pictures that are out before it are left out: it is the same for two pictures if and only
if the first one and all that lie between them are out (`level_eq_iff`).
-/

namespace Simulcast

open Vp8 Renumbering

/-- The packets of a source, with the pictures that they belong to. Before the first position
that is read, and behind the last one, it may be taken to go on in any way. -/
structure PictureSource (w : IdWidth) where
  /-- The position of the first packet that is read. -/
  first : Int
  packet : Int → Arrival
  descriptor : Int → Descriptor
  /-- The picture of a packet, counted on from the id of the first one. -/
  picture : Int → Int
  vp8 : ∀ p, (packet p).vp8 = some (descriptor p)
  media : ∀ p, (packet p).carriesMedia = true
  number : ∀ p, (packet p).number = UInt16.ofInt p
  writes : ∀ p, w.Writes (descriptor p)
  pictureId : ∀ p, ((descriptor p).pictureId.toNat : Int) = picture p % w.cycle
  next : ∀ p, picture (p + 1) = picture p ∨ picture (p + 1) = picture p + 1
  starts : picture first = (descriptor first).pictureId.toNat
  /-- The packets of a picture are in one temporal layer. -/
  layers : ∀ p q, picture p = picture q →
    (descriptor p).hasTid = (descriptor q).hasTid ∧ (descriptor p).tid = (descriptor q).tid

namespace PictureSource

variable {w : IdWidth} (src : PictureSource w) {p q newest position : Int} {maxTemporal : Int}

theorem picture_mono (h : p ≤ q) :
    src.picture p ≤ src.picture q ∧ src.picture q ≤ src.picture p + (q - p) := by
  induction q, h using Int.leInduction with
  | base => omega
  | succ q _ ih =>
    rcases src.next q with same | next <;> omega

theorem exceeds_congr (h : src.picture p = src.picture q) :
    (src.descriptor p).Exceeds maxTemporal ↔ (src.descriptor q).Exceeds maxTemporal := by
  obtain ⟨hasTid, tid⟩ := src.layers p q h
  rw [Descriptor.Exceeds, Descriptor.Exceeds, hasTid, tid]

/-! ## The clock -/

/-- The clock with the packet at a position as the newest one. -/
def clockAt (position : Int) : PictureClock :=
  { newest := Int32.ofInt (src.picture position)
    long := (src.descriptor position).longPictureId }

/-- The packet at a position can come in when another one is the newest: it is near enough by
its number and, if it is newer, by its picture, which comes before picture 2³¹ of the source. -/
structure InReach (newest position : Int) : Prop where
  behind : newest ≤ position + 0x8000
  ahead : position < newest + 0x8000
  pictures : newest < position →
    2 * (src.picture position - src.picture newest) <
      PictureClock.cycle
        ((src.descriptor newest).longPictureId || (src.descriptor position).longPictureId)
  counted : src.picture position < 0x80000000

instance (newest position : Int) : Decidable (src.InReach newest position) :=
  decidable_of_iff ((newest ≤ position + 0x8000 ∧ position < newest + 0x8000 ∧
        src.picture position < 0x80000000) ∧
      (newest < position → 2 * (src.picture position - src.picture newest) <
        PictureClock.cycle ((src.descriptor newest).longPictureId ||
          (src.descriptor position).longPictureId)))
    ⟨fun h => ⟨h.1.1, h.1.2.1, h.2, h.1.2.2⟩,
      fun h => ⟨⟨h.behind, h.ahead, h.counted⟩, h.pictures⟩⟩

/-- Packets come in one after the other behind a newest one. -/
def Comes : Int → List Int → Prop
  | _, [] => True
  | newest, p :: ps => src.InReach newest p ∧ Comes (max newest p) ps

instance decidableComes : (newest : Int) → (ps : List Int) → Decidable (src.Comes newest ps)
  | _, [] => .isTrue trivial
  | newest, p :: ps =>
    have := decidableComes (max newest p) ps
    inferInstanceAs (Decidable (_ ∧ _))

/-- A newer packet is found in its picture. -/
theorem unwrap_ahead (h : newest ≤ position)
    (hr : 2 * (src.picture position - src.picture newest) < PictureClock.cycle
      ((src.descriptor newest).longPictureId || (src.descriptor position).longPictureId)) :
    (src.clockAt newest).unwrap (src.descriptor position).pictureId
      (src.descriptor position).longPictureId = Int32.ofInt (src.picture position) := by
  have mono := (src.picture_mono h).1
  have id := src.pictureId newest
  have id' := src.pictureId position
  have width := (src.writes newest).longPictureId
  have width' := (src.writes position).longPictureId
  rw [width, width'] at hr
  refine (PictureClock.unwrap_ofInt _ _ _ _).trans (congrArg Int32.ofInt ?_)
  simp only [PictureClock.nearest, PictureClock.idValue, width, width', id']
  cases w with
  | short | long =>
    simp only [IdWidth.isLong, IdWidth.cycle, PictureClock.cycle, Bool.or_self, Bool.false_eq_true,
      if_true, if_false] at id' hr ⊢
    omega
  | asNeeded =>
    simp only [IdWidth.isLong, IdWidth.cycle, PictureClock.cycle, Bool.or_eq_true,
      decide_eq_true_eq] at id id' hr ⊢
    split <;> split <;> simp_all only [if_true, if_false, or_true, true_or, or_self] <;> omega

/-- A late packet is found in its picture, or taken for one that is newer than all. -/
theorem unwrap_late (h : position ≤ newest) (near : newest ≤ position + 100) :
    ∃ number, (src.clockAt newest).unwrap (src.descriptor position).pictureId
        (src.descriptor position).longPictureId = Int32.ofInt number ∧
      (src.picture newest ≤ number + 0x8000 ∧ number ≤ src.picture newest + 0x8000) ∧
      (number = src.picture position ∨ src.picture newest < number) := by
  have mono := src.picture_mono h
  have id := src.pictureId newest
  have id' := src.pictureId position
  have width := (src.writes newest).longPictureId
  have width' := (src.writes position).longPictureId
  refine ⟨_, PictureClock.unwrap_ofInt _ _ _ _, PictureClock.nearest_near _ _ _ _, ?_⟩
  simp only [PictureClock.nearest, PictureClock.idValue, width, width', id']
  cases w with
  | short | long =>
    simp only [IdWidth.isLong, IdWidth.cycle, PictureClock.cycle, Bool.false_eq_true, if_true,
      if_false] at id' ⊢
    omega
  | asNeeded =>
    simp only [IdWidth.isLong, IdWidth.cycle, PictureClock.cycle, decide_eq_true_eq] at id id' ⊢
    split <;> split <;> omega

/-- The first packet is found by the clock just before it. -/
theorem unwrap_first :
    (PictureClock.before (src.descriptor src.first)).unwrap (src.descriptor src.first).pictureId
      (src.descriptor src.first).longPictureId = Int32.ofInt (src.picture src.first) := by
  rw [PictureClock.unwrap_before (src.writes _), src.starts]
  exact Int32.sub_add_cancel _ _

/-- A source that counts its pictures in seven bits, from one of them on. -/
def short (first : Int) (picture : Int → Int) (tid : Int → UInt8)
    (next : ∀ p, picture (p + 1) = picture p ∨ picture (p + 1) = picture p + 1)
    (starts : picture first % 0x80 = picture first) : PictureSource .short :=
  let descriptor (p : Int) : Descriptor :=
    { firstOctet := 0x90, hasPictureId := true, pictureId := UInt16.ofInt (picture p % 0x80)
      hasTid := true, tid := tid (picture p), size := 4 }
  have pictureId : ∀ p, ((descriptor p).pictureId.toNat : Int) = picture p % 0x80 := fun p => by
    rw [Serial.toNat_ofInt]
    omega
  { first
    packet := fun p =>
      { head := true
        time := 0
        packet :=
          { header := { payloadType := 96, number := UInt16.ofInt p, ssrc := 1111 }
            payload := [0x90, 0xa0, (descriptor p).pictureId.toUInt8, tid (picture p) <<< 6, 1] }
        vp8 := some (descriptor p) }
    descriptor
    picture
    vp8 := fun _ => rfl
    media := fun _ => rfl
    number := fun _ => rfl
    writes := fun p => ⟨rfl, (pictureId p).trans_lt (Int.emod_lt_of_pos _ (by decide)), rfl⟩
    pictureId
    next
    starts := starts.symm.trans (pictureId first).symm
    layers := fun p q h => ⟨rfl, congrArg tid h⟩ }

/-- A base layer picture of one packet, a picture of a higher layer in three and another one of
the base layer. -/
def threePictures : PictureSource .short :=
  short 100 (fun p => if p ≤ 100 then 10 else if p ≤ 103 then 11 else 12)
    (fun k => if k = 11 then 1 else 0) (fun p => by split <;> split <;> omega) rfl

/-! ## The pictures that are out -/

/-- The pictures of which a packet followed directly in a higher temporal layer than is
wanted. -/
def outPictures (maxTemporal : Int) (es : List Passage) : Finset Int :=
  ((es.filter fun e => e.IsOut maxTemporal).map fun e => src.picture e.position).toFinset

theorem mem_outPictures {es : List Passage} {k : Int} :
    k ∈ src.outPictures maxTemporal es ↔
      ∃ e ∈ es, e.IsOut maxTemporal ∧ src.picture e.position = k := by
  simp only [outPictures, List.mem_toFinset, List.mem_map, List.mem_filter, decide_eq_true_eq,
    and_assoc]

theorem outPictures_cons (maxTemporal : Int) (e : Passage) (es : List Passage) :
    src.outPictures maxTemporal (e :: es) =
      if e.IsOut maxTemporal then insert (src.picture e.position) (src.outPictures maxTemporal es)
      else src.outPictures maxTemporal es := by
  by_cases out : e.IsOut maxTemporal
  · simp only [outPictures, List.filter_cons, out, decide_true, if_true, List.map_cons,
      List.toFinset_cons]
  · simp only [outPictures, List.filter_cons, out, decide_false, Bool.false_eq_true, if_false]

end PictureSource

namespace Renumbering

variable {out out' : Finset Int} {base j k : Int}

/-- How many of some pictures lie before one. -/
def outBefore (out : Finset Int) (k : Int) : Nat := (out.filter (· < k)).card

theorem outBefore_congr (h : ∀ i < k, i ∈ out ↔ i ∈ out') : outBefore out k = outBefore out' k := by
  refine congrArg Finset.card (Finset.ext fun i => ?_)
  simp only [Finset.mem_filter]
  exact ⟨fun ⟨mem, lt⟩ => ⟨(h i lt).1 mem, lt⟩, fun ⟨mem, lt⟩ => ⟨(h i lt).2 mem, lt⟩⟩

theorem outBefore_eq_card (h : ∀ i ∈ out, i ≤ k) (hk : k ∉ out) : outBefore out k = out.card := by
  rw [outBefore, Finset.filter_true_of_mem]
  intro i hi
  exact Int.lt_iff_le_and_ne.2 ⟨h i hi, fun heq => hk (heq ▸ hi)⟩

/-- The pictures among some that lie from one on, and before another. -/
def outBetween (out : Finset Int) (j k : Int) : Finset Int := out.filter fun i => j ≤ i ∧ i < k

theorem mem_outBetween {i : Int} : i ∈ outBetween out j k ↔ i ∈ out ∧ j ≤ i ∧ i < k :=
  Finset.mem_filter

theorem outBefore_add (out : Finset Int) (h : j ≤ k) :
    outBefore out j + (outBetween out j k).card = outBefore out k := by
  have split : out.filter (· < k) = out.filter (· < j) ∪ outBetween out j k := by
    ext i
    simp only [Finset.mem_union, Finset.mem_filter, mem_outBetween, ← and_or_left]
    exact and_congr_right fun _ => by omega
  have disjoint : Disjoint (out.filter (· < j)) (outBetween out j k) := by
    rw [Finset.disjoint_left]
    intro i lower upper
    have lower := (Finset.mem_filter.1 lower).2
    have upper := (mem_outBetween.1 upper).2
    omega
  rw [outBefore, outBefore, split, Finset.card_union_of_disjoint disjoint]

/-- No more pictures lie between two than there are, and all of them only if all are among
those. -/
theorem card_outBetween (out : Finset Int) (j k : Int) :
    (outBetween out j k).card ≤ (k - j).toNat ∧
      ((outBetween out j k).card = (k - j).toNat ↔ ∀ i, j ≤ i → i < k → i ∈ out) := by
  have sub : outBetween out j k ⊆ Finset.Ico j k := fun i hi =>
    Finset.mem_Ico.2 (mem_outBetween.1 hi).2
  have size := Int.card_Ico j k
  rw [← size]
  refine ⟨Finset.card_le_card sub, fun full i low high => ?_, fun all => ?_⟩
  · have same := Finset.eq_of_subset_of_card_le sub (Nat.le_of_eq full.symm)
    exact (mem_outBetween.1 (same ▸ Finset.mem_Ico.2 ⟨low, high⟩)).1
  · refine Nat.le_antisymm (Finset.card_le_card sub) (Finset.card_le_card fun i hi => ?_)
    have bounds := Finset.mem_Ico.1 hi
    exact mem_outBetween.2 ⟨all i bounds.1 bounds.2, bounds⟩

/-- The place of a picture in the subscriber's count, without those that are out before it. -/
def level (base : Int) (out : Finset Int) (k : Int) : Int := k - base - outBefore out k

theorem level_mono (base : Int) (out : Finset Int) (h : j ≤ k) :
    level base out j ≤ level base out k ∧
      level base out k ≤ level base out j + (k - j) := by
  have sum := outBefore_add out h
  have most := (card_outBetween out j k).1
  simp only [level]
  omega

/-- Two pictures are on a level if and only if the first one and all between them are out. -/
theorem level_eq_iff (base : Int) (h : j ≤ k) :
    level base out j = level base out k ↔ ∀ i, j ≤ i → i < k → i ∈ out := by
  have sum := outBefore_add out h
  rw [← (card_outBetween out j k).2]
  simp only [level]
  omega

/-- Ids tell levels apart that are less than a cycle from each other. -/
theorem idOf_inj {x y : Int} (h : x < y + 0x8000) (h' : y < x + 0x8000) :
    PictureNumbering.idOf x = PictureNumbering.idOf y ↔ x = y := by
  have hx := PictureNumbering.toNat_idOf x
  have hy := PictureNumbering.toNat_idOf y
  refine ⟨fun heq => ?_, fun heq => heq ▸ rfl⟩
  rw [heq] at hx
  omega

end Renumbering
end Simulcast
