import Simulcast.Proofs.Numbering.Standings
import Simulcast.Proofs.Vp8.PictureSource

/-!
# A source with losses

The packets of a source come in with losses, and some of them late, and are put through a
`Renumbering` that has just taken up the source (`Opens`). `record_fits` says what comes of each
of them by those that came before it (`Fits`):

* it is filtered out if it follows directly and is in a higher temporal layer than is wanted,
  or if it comes behind a gap and its picture is out;
* it gets the id of the level of its picture, unless it comes late and its picture is out.

The state is known by the record so far (`Tracks`), with one step for the newest packet
(`Tracks.head`) and one for a late packet (`Tracks.late`).
-/

namespace Simulcast

open Vp8

namespace Vp8.PictureNumbering

variable {n : PictureNumbering} {a : Arrival} {d : Descriptor} {maxTemporal : Int}
  {number : Int32}

/-- What a numbering knows about its source. -/
structure Knows (n : PictureNumbering) (clock : PictureClock) (pictureOffset : Int32)
    (missing : Backlog Int32 Int32) (lastFiltered : Option Int32) : Prop where
  clock : n.clock = clock
  pictureOffset : n.pictureOffset = pictureOffset
  missing : n.missing = missing
  lastFiltered : n.lastFiltered = lastFiltered

theorem renumber_pictureId (n : PictureNumbering) (hd : d.hasPictureId = true)
    (number : Int32) : (n.renumber d number).pictureId = idOf number.toInt := by
  simp only [renumber, hd, if_true]

theorem clock_find (hu : n.clock.unwrap d.pictureId d.longPictureId = number)
    (hn : n.clock.newest ≤ number) :
    (n.find d).clock = { newest := number, long := d.longPictureId } := by
  rw [find, hu, PictureClock.advance, if_pos hn]

/-- A packet that follows directly in a higher temporal layer is filtered out. Its picture is
counted once. -/
theorem describe_out (hd : a.vp8 = some d)
    (hu : n.clock.unwrap d.pictureId d.longPictureId = number) (hn : n.clock.newest ≤ number)
    (hx : d.Exceeds maxTemporal) :
    (n.describe a .contiguous maxTemporal).2 = .error .filteredTemporalLayer ∧
      (n.describe a .contiguous maxTemporal).1.Knows ⟨number, d.longPictureId⟩
        (n.pictureOffset + if n.lastFiltered = some number then 0 else 1) n.missing
        (some number) := by
  have clock := clock_find hu hn
  rw [describe_contiguous maxTemporal hd (by rw [clock, hu]), if_pos hx, clock]
  refine ⟨rfl, ?_⟩
  unfold filterOut
  split
  · rename_i again
    have again : n.lastFiltered = some number := again
    exact ⟨clock, by rw [if_pos again]; exact (Int32.add_zero _).symm, rfl, again⟩
  · rename_i fresh
    have fresh : n.lastFiltered ≠ some number := fresh
    exact ⟨clock, by rw [if_neg fresh]; rfl, rfl, rfl⟩

/-- Any other packet that follows directly is sent. -/
theorem describe_direct (hd : a.vp8 = some d) (hw : d.hasPictureId = true)
    (hu : n.clock.unwrap d.pictureId d.longPictureId = number) (hn : n.clock.newest ≤ number)
    (hx : ¬d.Exceeds maxTemporal) :
    (∃ out, (n.describe a .contiguous maxTemporal).2 = .ok out ∧
      out.pictureId = idOf (number - n.pictureOffset).toInt) ∧
      (n.describe a .contiguous maxTemporal).1.Knows ⟨number, d.longPictureId⟩ n.pictureOffset
        n.missing n.lastFiltered := by
  have clock := clock_find hu hn
  rw [describe_contiguous maxTemporal hd (by rw [clock, hu]), if_neg hx, clock]
  exact ⟨⟨_, rfl, renumber_pictureId _ hw _⟩, clock, rfl, rfl, rfl⟩

theorem describe_gap (hd : a.vp8 = some d)
    (hu : n.clock.unwrap d.pictureId d.longPictureId = number) :
    n.describe a .gap maxTemporal = (n.find d).describeAfterGap d n.clock.newest number := by
  simp only [describe, hd, reduceCtorEq, if_false, if_true, hu, find]

/-- Behind a gap, a packet of the picture that was filtered out last is filtered out too. -/
theorem describe_again (hd : a.vp8 = some d)
    (hu : n.clock.unwrap d.pictureId d.longPictureId = number) (hn : n.clock.newest ≤ number)
    (hf : n.lastFiltered = some number) :
    (n.describe a .gap maxTemporal).2 = .error .filteredTemporalLayer ∧
      (n.describe a .gap maxTemporal).1.Knows ⟨number, d.longPictureId⟩ n.pictureOffset
        n.missing n.lastFiltered := by
  rw [describe_gap hd hu]
  have filtered : (n.find d).describeAfterGap d n.clock.newest number =
      (n.find d, .error .filteredTemporalLayer) := if_pos hf
  rw [filtered]
  exact ⟨rfl, clock_find hu hn, rfl, rfl, rfl⟩

/-- Any other packet behind a gap is sent, and the pictures from the one before the gap to its
own are noted with the offset that is in force. -/
theorem describe_behindGap (hd : a.vp8 = some d) (hw : d.hasPictureId = true)
    (hu : n.clock.unwrap d.pictureId d.longPictureId = number) (hn : n.clock.newest ≤ number)
    (hf : n.lastFiltered ≠ some number) :
    (∃ out, (n.describe a .gap maxTemporal).2 = .ok out ∧
      out.pictureId = idOf (number - n.pictureOffset).toInt) ∧
      (n.describe a .gap maxTemporal).1.Knows ⟨number, d.longPictureId⟩ n.pictureOffset
        (n.noteLost n.clock.newest number).missing n.lastFiltered := by
  rw [describe_gap hd hu]
  have sent : (n.find d).describeAfterGap d n.clock.newest number =
      ((((n.find d).noteLost n.clock.newest number).send d number).1,
        .ok (((n.find d).noteLost n.clock.newest number).send d number).2) := if_neg hf
  rw [sent]
  exact ⟨⟨_, rfl, renumber_pictureId _ hw _⟩, clock_find hu hn, rfl, rfl, rfl⟩

theorem mem_noteLost {first last : Int32} {e : Int32 × Int32}
    (h : e ∈ (n.noteLost first last).missing.entries) :
    e ∈ n.missing.entries ∨
      ∃ k, e.1 = Int32.ofInt k ∧ first.toInt ≤ k ∧ k ≤ last.toInt ∧ e.2 = n.pictureOffset := by
  refine (Backlog.mem_insertEach (Backlog.mem_of_mem_keepNewest h)).imp_right ?_
  rintro ⟨key, fact⟩
  obtain ⟨i, hi, key⟩ := List.mem_map.1 key
  have hi := List.mem_range.1 hi
  refine ⟨first.toInt + i, ?_, by omega, by omega, fact⟩
  rw [← key, Int32.ofInt_add, Int32.ofInt_toInt]

/-- A late packet changes nothing. If it is sent, an offset was noted for its number. -/
theorem describe_late (n : PictureNumbering) (maxTemporal : Int) (hd : a.vp8 = some d)
    (hw : d.hasPictureId = true) :
    let number := n.clock.unwrap d.pictureId d.longPictureId
    let r := n.describe a .late maxTemporal
    r.1 = n ∧ Renumbering.isFiltered r.2 = false ∧ ∀ out, r.2 = .ok out →
      ∃ offset, (number, offset) ∈ n.missing.entries ∧
        out.pictureId = idOf (number - offset).toInt := by
  intro number r
  have late : r = (n, n.describeLate d number) := by simp only [r, describe, hd, if_true, number]
  rw [late]
  refine ⟨rfl, ?_⟩
  unfold describeLate
  cases found : n.missing.find? number with
  | none => exact ⟨rfl, fun out hout => by cases hout⟩
  | some offset =>
    refine ⟨rfl, fun out hout => ⟨offset, Backlog.mem_of_find? found, ?_⟩⟩
    cases hout
    exact renumber_pictureId _ hw _

end Vp8.PictureNumbering

namespace Renumbering

/-- The packet was placed as the newest one. -/
def Passage.IsHead (e : Passage) : Prop :=
  e.standing = some .contiguous ∨ e.standing = some .gap

instance (e : Passage) : Decidable e.IsHead := inferInstanceAs (Decidable (_ ∨ _))

/-- The renumbering has just taken up the source. -/
structure Opens {w : IdWidth} (r : Renumbering) (src : PictureSource w) : Prop where
  highest : r.packets.highest = (src.packet src.first).number - 1
  awaits : r.packets.missing = .empty
  clock : r.pictures.clock = PictureClock.before (src.descriptor src.first)
  lastFiltered : r.pictures.lastFiltered = none
  missing : r.pictures.missing = .empty

variable {w : IdWidth} {src : PictureSource w} {r : Renumbering}

/-- A stream starts with the source. -/
theorem opens_start (hp : r.packets.missing = .empty) (hm : r.pictures.missing = .empty) :
    (⟨r.packets.start (src.packet src.first), r.pictures.start (src.packet src.first)⟩ :
      Renumbering).Opens src where
  highest := rfl
  awaits := hp
  clock := by
    simp only [PictureNumbering.start, src.vp8, (src.writes _).hasPictureId, if_true]
  lastFiltered := by simp only [PictureNumbering.start, src.vp8]
  missing := by
    simp only [PictureNumbering.start, src.vp8]
    exact hm

/-- A stream of pictures goes over to the source. -/
theorem opens_changeSource (h : r.pictures.usesPictureId = true) (numbers : UInt16)
    (ticks : UInt32) :
    (⟨r.packets.changeSource (src.packet src.first) numbers ticks,
      r.pictures.changeSource (src.packet src.first)⟩ : Renumbering).Opens src where
  highest := rfl
  awaits := rfl
  clock := by simp only [PictureNumbering.changeSource, src.vp8, h, if_true]
  lastFiltered := by simp only [PictureNumbering.changeSource, src.vp8]
  missing := by simp only [PictureNumbering.changeSource, src.vp8]

/-- A stream of its own, started with the source. -/
def starting (src : PictureSource w) : Renumbering :=
  ⟨({} : Numbering).start (src.packet src.first),
    ({} : PictureNumbering).start (src.packet src.first)⟩

theorem opens_starting (src : PictureSource w) : (starting src).Opens src :=
  opens_start (r := ⟨{}, {}⟩) rfl rfl

end Renumbering

open Renumbering

namespace PictureSource

variable {w : IdWidth} {src : PictureSource w} {maxTemporal base newest count position : Int}
  {e : Passage} {es : List Passage} {c : Course}

/-- What comes of a packet, by those before it. The pictures are counted from `base`. -/
structure Fits (src : PictureSource w) (maxTemporal base : Int) (e : Passage)
    (older : List Passage) : Prop where
  descriptor : e.descriptor = some (src.descriptor e.position)
  filtered_iff : e.filtered = true ↔ e.IsOut maxTemporal ∨
    e.standing = some .gap ∧ src.picture e.position ∈ src.outPictures maxTemporal older
  sent_iff : e.IsHead → (e.sentId ≠ none ↔ e.filtered = false)
  ahead : e.IsHead → ∀ o ∈ older, src.picture o.position ≤ src.picture e.position
  behind : ¬e.IsHead → ∃ o ∈ older, e.position ≤ o.position
  late : ¬e.IsHead → e.sentId ≠ none → e.standing = some .late
  sentId : ∀ id, e.sentId = some id →
    src.picture e.position ∉ src.outPictures maxTemporal older →
    id = PictureNumbering.idOf
      (level base (src.outPictures maxTemporal older) (src.picture e.position))

/-- An entry of the backlog is for a picture that was met. Unless that is out, it has the offset
that takes the picture to its level. -/
def Notes (base count : Int) (out : Finset Int) (x : Int32 × Int32) : Prop :=
  ∃ k, x.1 = Int32.ofInt k ∧ -1 ≤ k ∧ k ≤ count ∧
    (k ∉ out → x.2 = Int32.ofInt (base + outBefore out k))

/-- The renumbering has come to a position of the source, and to some number of its pictures. -/
structure Tracks (src : PictureSource w) (maxTemporal base : Int) (c : Course)
    (newest count : Int) : Prop where
  packets : c.numberings.packets.Follows newest
  clock : c.numberings.pictures.clock.newest = Int32.ofInt count
  counted : -1 ≤ count ∧ count < 0x80000000
  offset : c.numberings.pictures.pictureOffset =
    Int32.ofInt (base + (src.outPictures maxTemporal c.passages).card)
  lastFiltered : ∀ k, count ≤ k → k < 0x80000000 →
    (c.numberings.pictures.lastFiltered = some (Int32.ofInt k) ↔
      k ∈ src.outPictures maxTemporal c.passages)
  noted : ∀ x ∈ c.numberings.pictures.missing.entries,
    Notes base count (src.outPictures maxTemporal c.passages) x
  pictures_le : ∀ e ∈ c.passages, src.picture e.position ≤ count
  history : History (src.Fits maxTemporal base) c.passages

/-- The packet at a position has come in as the newest one. -/
structure Reached (src : PictureSource w) (c : Course) (newest : Int) : Prop where
  number : c.newest = some (UInt16.ofInt newest)
  clock : c.numberings.pictures.clock = src.clockAt newest
  attained : ∃ e ∈ c.passages, e.position = newest

theorem Tracks.out_le (h : src.Tracks maxTemporal base c newest count) :
    ∀ k ∈ src.outPictures maxTemporal c.passages, k ≤ count := by
  intro k hk
  obtain ⟨o, ho, -, rfl⟩ := src.mem_outPictures.1 hk
  exact h.pictures_le o ho

/-! ## The newest packet -/

/-- A newest packet that is filtered out. -/
theorem Fits.of_filtered {older : List Passage}
    (hd : e.descriptor = some (src.descriptor e.position)) (hh : e.IsHead)
    (hr : e.result = .error .filteredTemporalLayer)
    (ahead : ∀ o ∈ older, src.picture o.position ≤ src.picture e.position)
    (cause : e.IsOut maxTemporal ∨
      e.standing = some .gap ∧ src.picture e.position ∈ src.outPictures maxTemporal older) :
    src.Fits maxTemporal base e older := by
  have filtered : e.filtered = true := by rw [Passage.filtered, hr]; rfl
  have unsent : e.sentId = none := by rw [Passage.sentId, hr]; rfl
  refine ⟨hd, iff_of_true filtered cause, fun _ => ?_, fun _ => ahead, fun hn => absurd hh hn,
    fun hn => absurd hh hn, fun id hid => ?_⟩
  · rw [filtered, unsent]
    exact iff_of_false (fun h => h rfl) Bool.noConfusion
  · rw [unsent] at hid
    cases hid

/-- A newest packet that is sent. -/
theorem Fits.of_sent {older : List Passage} {out : Descriptor}
    (hd : e.descriptor = some (src.descriptor e.position)) (hr : e.result = .ok out)
    (ahead : ∀ o ∈ older, src.picture o.position ≤ src.picture e.position)
    (hh : e.standing = some .contiguous ∧ ¬e.Exceeds maxTemporal ∨
      e.standing = some .gap ∧ src.picture e.position ∉ src.outPictures maxTemporal older)
    (hid : src.picture e.position ∉ src.outPictures maxTemporal older → out.pictureId =
      PictureNumbering.idOf
        (level base (src.outPictures maxTemporal older) (src.picture e.position))) :
    src.Fits maxTemporal base e older := by
  have filtered : e.filtered = false := by rw [Passage.filtered, hr]; rfl
  have sent : e.sentId = some out.pictureId := by rw [Passage.sentId, hr]; rfl
  have head : e.IsHead := hh.imp And.left And.left
  refine ⟨hd, ?_, fun _ => ?_, fun _ => ahead, fun hn => absurd head hn,
    fun hn => absurd head hn, fun id h => ?_⟩
  · rw [filtered]
    refine iff_of_false Bool.noConfusion ?_
    rcases hh with ⟨direct, within⟩ | ⟨gap, notOut⟩
    · rintro (out | ⟨gap, -⟩)
      · exact within out.2
      · rw [direct] at gap
        cases gap
    · rintro (out | ⟨-, out⟩)
      · have direct := gap.symm.trans out.1
        cases direct
      · exact notOut out
  · rw [filtered, sent]
    exact iff_of_true (Option.some_ne_none _) rfl
  · rw [sent] at h
    cases h
    exact hid

/-- A picture that joins those that are out, and is not earlier than a picture that was met,
leaves what is noted of that one as it is. -/
theorem Notes.grow {out out' : Finset Int} {x : Int32 × Int32} {count' : Int}
    (h : Notes base count out x) (hcount : count ≤ count')
    (hout : out' = out ∨ out' = insert count' out) : Notes base count' out' x := by
  obtain ⟨k, key, least, le, fact⟩ := h
  refine ⟨k, key, least, Int.le_trans le hcount, fun fresh => ?_⟩
  rcases hout with rfl | rfl
  · exact fact fresh
  · have same : outBefore (insert count' out) k = outBefore out k := by
      refine outBefore_congr fun i hi => ?_
      rw [Finset.mem_insert, or_iff_right (by omega)]
    rw [same]
    exact fact fun mem => fresh (Finset.mem_insert_of_mem mem)

/-- What a newest packet adds: the picture stands in the count, and an entry is an old one or
one that is noted for the packet, which is sent then. -/
theorem Tracks.grow (h : src.Tracks maxTemporal base c newest count) {c' : Course}
    {long : Bool} {offset : Int32} {missing : Backlog Int32 Int32} {last : Option Int32}
    (hpassages : c'.passages = e :: c.passages) (hpackets : c'.numberings.packets.Follows position)
    (hposition : e.position = position) (hcount : count ≤ src.picture position)
    (hcounted : src.picture position < 0x80000000)
    (hknows : c'.numberings.pictures.Knows ⟨Int32.ofInt (src.picture position), long⟩ offset
      missing last)
    (hfits : src.Fits maxTemporal base e c.passages)
    (hoffset : offset = Int32.ofInt (base + (src.outPictures maxTemporal (e :: c.passages)).card))
    (hlast : ∀ k, src.picture position ≤ k → k < 0x80000000 →
      (last = some (Int32.ofInt k) ↔ k ∈ src.outPictures maxTemporal (e :: c.passages)))
    (hmissing : ∀ x ∈ missing.entries, x ∈ c.numberings.pictures.missing.entries ∨
      ¬e.IsOut maxTemporal ∧ ∃ k, x.1 = Int32.ofInt k ∧ count ≤ k ∧ k ≤ src.picture position ∧
        x.2 = c.numberings.pictures.pictureOffset) :
    src.Tracks maxTemporal base c' position (src.picture position) := by
  have grown := src.outPictures_cons maxTemporal e c.passages
  rw [hposition] at grown
  have least := h.counted.1
  refine ⟨hpackets, by rw [hknows.clock], ⟨by omega, hcounted⟩, ?_, ?_, ?_, ?_, ?_⟩
  · rw [hknows.pictureOffset, hpassages]
    exact hoffset
  · rw [hknows.lastFiltered, hpassages]
    exact hlast
  · rw [hknows.missing, hpassages]
    intro x hx
    rcases hmissing x hx with old | ⟨sent, k, key, low, high, fact⟩
    · refine (h.noted x old).grow hcount ?_
      rw [grown]
      split
      · exact .inr rfl
      · exact .inl rfl
    · rw [if_neg sent] at grown
      rw [grown]
      refine ⟨k, key, by omega, high, fun hout => ?_⟩
      rw [fact, h.offset, outBefore_eq_card (fun i hi => Int.le_trans (h.out_le i hi) low) hout]
  · rw [hpassages]
    refine List.forall_mem_cons.2 ⟨by rw [hposition], fun o ho => ?_⟩
    exact Int.le_trans (h.pictures_le o ho) hcount
  · rw [hpassages]
    exact h.history.cons hfits

/-- A newest packet that was placed with some standing, and is described now. -/
structure Placed (src : PictureSource w) (maxTemporal : Int) (c c' : Course) (e : Passage)
    (a : Arrival) (s : Standing) : Prop where
  passages : c'.passages = e :: c.passages
  vp8 : a.vp8 = some (src.descriptor e.position)
  descriptor : e.descriptor = some (src.descriptor e.position)
  standing : e.standing = some s
  result : e.result = (c.numberings.pictures.describe a s maxTemporal).2
  pictures : c'.numberings.pictures = (c.numberings.pictures.describe a s maxTemporal).1
  packets : c'.numberings.packets.Follows e.position
  newest : c'.newest = some (UInt16.ofInt e.position)

theorem Tracks.placed (h : src.Tracks maxTemporal base c newest count)
    (hh : (c.arrival src.packet position).head = true) (h1 : newest < position)
    (h2 : position < newest + 0x8000) :
    src.Placed maxTemporal c (c.take src.packet maxTemporal position)
      (c.passage src.packet maxTemporal position) (c.arrival src.packet position)
      (if position = newest + 1 then .contiguous else .gap) := by
  have number := src.number position
  obtain ⟨⟨place, placed, standing⟩, follows, follows'⟩ :=
    h.packets.head (a := c.arrival src.packet position) number (src.media position) h1 h2
  have placing : c.numberings.packets.place (c.arrival src.packet position) =
      ((c.numberings.packets.placeHead (c.arrival src.packet position)).1, .ok place) :=
    (if_pos hh).trans (Prod.ext rfl placed)
  obtain ⟨standing', result, pictures, packets⟩ := Course.take_of_ok maxTemporal placing
  rw [standing] at standing' result pictures
  refine ⟨rfl, src.vp8 position, src.vp8 position, standing', result, pictures, ?_, ?_⟩
  · rw [packets]
    split
    · rw [Numbering.drop, if_pos hh]
      exact follows'
    · exact follows
  · exact (if_pos hh).trans (congrArg some number)

variable {c' : Course} {a : Arrival}

theorem Tracks.out_le_picture (h : src.Tracks maxTemporal base c newest count)
    (hcount : count ≤ src.picture position) :
    ∀ k ∈ src.outPictures maxTemporal c.passages, k ≤ src.picture position :=
  fun k hk => Int.le_trans (h.out_le k hk) hcount

/-- The picture of a newest packet is not older than the newest one by the clock. -/
theorem Tracks.clock_le (h : src.Tracks maxTemporal base c newest count)
    (hcount : count ≤ src.picture position) (hcounted : src.picture position < 0x80000000) :
    c.numberings.pictures.clock.newest ≤ Int32.ofInt (src.picture position) := by
  have least := h.counted.1
  rw [h.clock]
  exact ofInt_le (by omega) hcount hcounted

/-- The offset that is in force takes a picture that is not out to its level. -/
theorem Tracks.level_eq (h : src.Tracks maxTemporal base c newest count)
    (hcount : count ≤ src.picture position)
    (hout : src.picture position ∉ src.outPictures maxTemporal c.passages) :
    Int32.ofInt (src.picture position) - c.numberings.pictures.pictureOffset =
      Int32.ofInt
        (level base (src.outPictures maxTemporal c.passages) (src.picture position)) := by
  rw [level, outBefore_eq_card (h.out_le_picture hcount) hout, h.offset, ← Int32.ofInt_sub,
    Int.sub_sub]

/-- A packet that follows directly is filtered out if it is in a higher layer, and sent
otherwise. -/
theorem Tracks.direct (h : src.Tracks maxTemporal base c newest count)
    (hp : src.Placed maxTemporal c c' e a .contiguous) (hcount : count ≤ src.picture e.position)
    (hcounted : src.picture e.position < 0x80000000)
    (hu : c.numberings.pictures.clock.unwrap (src.descriptor e.position).pictureId
      (src.descriptor e.position).longPictureId = Int32.ofInt (src.picture e.position)) :
    src.Tracks maxTemporal base c' e.position (src.picture e.position) ∧
      c'.numberings.pictures.clock = src.clockAt e.position := by
  have clock := h.clock_le hcount hcounted
  have last := h.lastFiltered _ hcount hcounted
  have grown := src.outPictures_cons maxTemporal e c.passages
  have ahead : ∀ o ∈ c.passages, src.picture o.position ≤ src.picture e.position :=
    fun o ho => Int.le_trans (h.pictures_le o ho) hcount
  have exceeds : e.Exceeds maxTemporal ↔ (src.descriptor e.position).Exceeds maxTemporal := by
    rw [Passage.Exceeds, hp.descriptor, Option.getD_some]
  by_cases hx : (src.descriptor e.position).Exceeds maxTemporal
  · obtain ⟨filtered, knows⟩ := PictureNumbering.describe_out hp.vp8 hu clock hx
    have out : e.IsOut maxTemporal := ⟨hp.standing, exceeds.2 hx⟩
    rw [if_pos out] at grown
    rw [← hp.pictures] at knows
    refine ⟨h.grow hp.passages hp.packets rfl hcount hcounted knows
      (.of_filtered hp.descriptor (.inl hp.standing) (hp.result.trans filtered) ahead (.inl out))
      ?_ ?_ fun x hx => .inl hx, knows.clock⟩
    · rw [grown, h.offset]
      split
      · rw [Finset.insert_eq_of_mem (last.1 ‹_›), Int32.add_zero]
      · rw [Finset.card_insert_of_notMem (mt last.2 ‹_›), Nat.cast_succ, ← Int.add_assoc,
          Int32.ofInt_add _ 1]
        rfl
    · intro k hk hk'
      have least := h.counted.1
      rw [grown, Finset.mem_insert, Option.some.injEq, ofInt_inj (by omega) (by omega)]
      refine ⟨fun heq => .inl heq.symm, ?_⟩
      rintro (rfl | mem)
      · rfl
      · exact Int.le_antisymm hk (h.out_le_picture hcount k mem)
  · obtain ⟨⟨out, sent, id⟩, knows⟩ := PictureNumbering.describe_direct hp.vp8
      (src.writes _).hasPictureId hu clock hx
    have within : ¬e.Exceeds maxTemporal := mt exceeds.1 hx
    rw [if_neg fun out => within out.2] at grown
    rw [← hp.pictures] at knows
    refine ⟨h.grow hp.passages hp.packets rfl hcount hcounted knows
      (.of_sent hp.descriptor (hp.result.trans sent) ahead (.inl ⟨hp.standing, within⟩)
        fun hout => ?_) ?_ ?_ fun x hx => .inl hx, knows.clock⟩
    · rw [id, h.level_eq hcount hout, PictureNumbering.idOf_ofInt]
    · rw [grown, h.offset]
    · intro k hk hk'
      rw [grown]
      exact h.lastFiltered k (Int.le_trans hcount hk) hk'

/-- A packet behind a gap is filtered out if its picture is out, and sent otherwise, whatever its
layer. -/
theorem Tracks.behindGap (h : src.Tracks maxTemporal base c newest count)
    (hp : src.Placed maxTemporal c c' e a .gap) (hcount : count ≤ src.picture e.position)
    (hcounted : src.picture e.position < 0x80000000)
    (hu : c.numberings.pictures.clock.unwrap (src.descriptor e.position).pictureId
      (src.descriptor e.position).longPictureId = Int32.ofInt (src.picture e.position)) :
    src.Tracks maxTemporal base c' e.position (src.picture e.position) ∧
      c'.numberings.pictures.clock = src.clockAt e.position := by
  have clock := h.clock_le hcount hcounted
  have last := h.lastFiltered _ hcount hcounted
  have ahead : ∀ o ∈ c.passages, src.picture o.position ≤ src.picture e.position :=
    fun o ho => Int.le_trans (h.pictures_le o ho) hcount
  have notOut : ¬e.IsOut maxTemporal := fun out => by
    have direct := hp.standing.symm.trans out.1
    cases direct
  have grown := src.outPictures_cons maxTemporal e c.passages
  rw [if_neg notOut] at grown
  have lastFiltered : ∀ k, src.picture e.position ≤ k → k < 0x80000000 →
      (c.numberings.pictures.lastFiltered = some (Int32.ofInt k) ↔
        k ∈ src.outPictures maxTemporal (e :: c.passages)) := by
    intro k hk hk'
    rw [grown]
    exact h.lastFiltered k (Int.le_trans hcount hk) hk'
  by_cases hf : c.numberings.pictures.lastFiltered = some (Int32.ofInt (src.picture e.position))
  · obtain ⟨filtered, knows⟩ := PictureNumbering.describe_again hp.vp8 hu clock hf
    rw [← hp.pictures] at knows
    refine ⟨h.grow hp.passages hp.packets rfl hcount hcounted knows
      (.of_filtered hp.descriptor (.inr hp.standing) (hp.result.trans filtered) ahead
        (.inr ⟨hp.standing, last.1 hf⟩)) ?_ lastFiltered fun x hx => .inl hx, knows.clock⟩
    rw [grown, h.offset]
  · obtain ⟨⟨out, sent, id⟩, knows⟩ := PictureNumbering.describe_behindGap hp.vp8
      (src.writes _).hasPictureId hu clock hf
    rw [← hp.pictures] at knows
    refine ⟨h.grow hp.passages hp.packets rfl hcount hcounted knows
      (.of_sent hp.descriptor (hp.result.trans sent) ahead (.inr ⟨hp.standing, mt last.2 hf⟩)
        fun hout => ?_) ?_ lastFiltered fun x hx => ?_, knows.clock⟩
    · rw [id, h.level_eq hcount hout, PictureNumbering.idOf_ofInt]
    · rw [grown, h.offset]
    · obtain ⟨least, most⟩ := h.counted
      refine (PictureNumbering.mem_noteLost hx).imp_right fun ⟨k, key, low, high, fact⟩ =>
        ⟨notOut, k, key, ?_, ?_, fact⟩
      · rw [h.clock, Int32.toInt_ofInt_of_le (by omega) most] at low
        exact low
      · rw [Int32.toInt_ofInt_of_le (by omega) hcounted] at high
        exact high

/-- The newest packet, in either way. -/
theorem Tracks.head (h : src.Tracks maxTemporal base c newest count)
    (hh : (c.arrival src.packet position).head = true) (h1 : newest < position)
    (h2 : position < newest + 0x8000) (hcount : count ≤ src.picture position)
    (hcounted : src.picture position < 0x80000000)
    (hu : c.numberings.pictures.clock.unwrap (src.descriptor position).pictureId
      (src.descriptor position).longPictureId = Int32.ofInt (src.picture position)) :
    src.Tracks maxTemporal base (c.take src.packet maxTemporal position) position
        (src.picture position) ∧
      src.Reached (c.take src.packet maxTemporal position) position := by
  have placed := h.placed hh h1 h2
  have tracks : src.Tracks maxTemporal base (c.take src.packet maxTemporal position) position
        (src.picture position) ∧
      (c.take src.packet maxTemporal position).numberings.pictures.clock =
        src.clockAt position := by
    split at placed
    · exact h.direct placed hcount hcounted hu
    · exact h.behindGap placed hcount hcounted hu
  exact ⟨tracks.1, placed.newest, tracks.2, _, List.mem_cons_self, rfl⟩

/-! ## Late packets -/

/-- A packet that was not placed as the newest one. -/
theorem Fits.of_late {older : List Passage}
    (hd : e.descriptor = some (src.descriptor e.position)) (hh : ¬e.IsHead)
    (hf : e.filtered = false) (behind : ∃ o ∈ older, e.position ≤ o.position)
    (late : e.sentId ≠ none → e.standing = some .late)
    (hid : ∀ id, e.sentId = some id →
      src.picture e.position ∉ src.outPictures maxTemporal older → id = PictureNumbering.idOf
        (level base (src.outPictures maxTemporal older) (src.picture e.position))) :
    src.Fits maxTemporal base e older := by
  refine ⟨hd, ?_, fun h => absurd h hh, fun h => absurd h hh, fun _ => behind, fun _ => late, hid⟩
  rw [hf]
  refine iff_of_false Bool.noConfusion ?_
  rintro (out | ⟨gap, -⟩)
  · exact hh (.inl out.1)
  · exact hh (.inr gap)

/-- It changes no more than what is awaited. -/
theorem Tracks.stay (h : src.Tracks maxTemporal base c newest count)
    (hpassages : c'.passages = e :: c.passages) (hh : ¬e.IsHead)
    (hpictures : c'.numberings.pictures = c.numberings.pictures)
    (hpackets : c'.numberings.packets.Follows newest) (hcount : src.picture e.position ≤ count)
    (hfits : src.Fits maxTemporal base e c.passages) :
    src.Tracks maxTemporal base c' newest count := by
  have grown := src.outPictures_cons maxTemporal e c.passages
  rw [if_neg fun out => hh (.inl out.1), ← hpassages] at grown
  refine ⟨hpackets, ?_, h.counted, ?_, ?_, ?_, ?_, ?_⟩
  · rw [hpictures, h.clock]
  · rw [hpictures, grown, h.offset]
  · rw [hpictures, grown]
    exact h.lastFiltered
  · rw [hpictures, grown]
    exact h.noted
  · rw [hpassages]
    exact List.forall_mem_cons.2 ⟨hcount, h.pictures_le⟩
  · rw [hpassages]
    exact h.history.cons hfits

theorem Reached.stay (h : src.Reached c newest) (hnewest : c'.newest = c.newest)
    (hpassages : c'.passages = e :: c.passages)
    (hpictures : c'.numberings.pictures = c.numberings.pictures) : src.Reached c' newest := by
  obtain ⟨o, ho, position⟩ := h.attained
  refine ⟨hnewest.trans h.number, (congrArg _ hpictures).trans h.clock, o, ?_, position⟩
  rw [hpassages]
  exact List.mem_cons_of_mem e ho

/-- A late packet that is not placed. -/
theorem Tracks.refused (h : src.Tracks maxTemporal base c newest count) {packets : Numbering}
    (placed : c.numberings.packets.place (c.arrival src.packet position) =
      (packets, .error .lateSequence))
    (follows : packets.Follows newest) (hcount : src.picture position ≤ count)
    (behind : ∃ o ∈ c.passages, position ≤ o.position) :
    src.Tracks maxTemporal base (c.take src.packet maxTemporal position) newest count ∧
      (c.take src.packet maxTemporal position).numberings.pictures = c.numberings.pictures := by
  obtain ⟨unplaced, result, pictures, packets'⟩ := Course.take_of_error maxTemporal placed
  have unheard : ¬(c.passage src.packet maxTemporal position).IsHead := by
    rw [Passage.IsHead, unplaced]
    rintro (h | h) <;> cases h
  have unfiltered : (c.passage src.packet maxTemporal position).filtered = false := by
    rw [Passage.filtered, result]
    rfl
  have unsent : (c.passage src.packet maxTemporal position).sentId = none := by
    rw [Passage.sentId, result]
    rfl
  have fits : src.Fits maxTemporal base (c.passage src.packet maxTemporal position) c.passages := by
    refine .of_late (src.vp8 position) unheard unfiltered behind (fun sent => absurd unsent sent)
      fun id hid => ?_
    rw [unsent] at hid
    cases hid
  exact ⟨h.stay rfl unheard pictures (packets' ▸ follows) hcount fits, pictures⟩

/-- A late packet that is placed is sent with the offset that was noted for its picture, if one
was. -/
theorem Tracks.placedLate (h : src.Tracks maxTemporal base c newest (src.picture newest))
    (hr : src.Reached c newest) {packets : Numbering} {place : Placement}
    (placed : c.numberings.packets.place (c.arrival src.packet position) = (packets, .ok place))
    (standing : place.standing = .late) (follows : packets.Follows newest)
    (h1 : position ≤ newest) (near : newest ≤ position + 100)
    (behind : ∃ o ∈ c.passages, position ≤ o.position) :
    src.Tracks maxTemporal base (c.take src.packet maxTemporal position) newest
        (src.picture newest) ∧
      (c.take src.packet maxTemporal position).numberings.pictures = c.numberings.pictures := by
  have vp8 : (c.arrival src.packet position).vp8 = some (src.descriptor position) :=
    src.vp8 position
  obtain ⟨standing', result, pictures, packets'⟩ := Course.take_of_ok maxTemporal placed
  rw [standing] at standing' result pictures packets'
  obtain ⟨still, unfiltered, described⟩ := PictureNumbering.describe_late
    c.numberings.pictures maxTemporal vp8 (src.writes position).hasPictureId
  rw [still] at pictures
  rw [if_neg (by rw [unfiltered]; exact Bool.false_ne_true)] at packets'
  rw [← result] at unfiltered described
  have unheard : ¬(c.passage src.packet maxTemporal position).IsHead := by
    rw [Passage.IsHead, standing']
    rintro (h | h) <;> cases h
  have fits : src.Fits maxTemporal base (c.passage src.packet maxTemporal position) c.passages := by
    refine .of_late vp8 unheard unfiltered behind (fun _ => standing')
      fun id hid hout => ?_
    obtain ⟨out, sent, rfl⟩ := Passage.sentId_eq_some.1 hid
    obtain ⟨offset, noted, sentId⟩ := described out sent
    obtain ⟨k, key, least, old, fact⟩ := h.noted _ noted
    obtain ⟨number, found, close, which⟩ := src.unwrap_late h1 near
    have counted := h.counted
    rw [hr.clock, found] at sentId key
    -- the number is that of the picture: one that is newer than all was not noted
    obtain rfl : number = k := (ofInt_inj (by omega) (by omega)).1 key
    have own := which.resolve_right (Int.not_lt.2 old)
    rw [own] at sentId fact
    have fact : offset = _ := fact hout
    rw [sentId, fact, ← Int32.ofInt_sub, PictureNumbering.idOf_ofInt, level, Int.sub_sub]
    rfl
  exact ⟨h.stay rfl unheard pictures (packets' ▸ follows) (src.picture_mono h1).1 fits, pictures⟩

/-- A late packet, in either way. -/
theorem Tracks.late (h : src.Tracks maxTemporal base c newest (src.picture newest))
    (hr : src.Reached c newest) (hh : (c.arrival src.packet position).head = false)
    (h1 : position ≤ newest) (h2 : newest ≤ position + 0x8000) :
    src.Tracks maxTemporal base (c.take src.packet maxTemporal position) newest
        (src.picture newest) ∧
      src.Reached (c.take src.packet maxTemporal position) newest := by
  have unheard : ¬(c.arrival src.packet position).head = true := by
    rw [hh]
    exact Bool.false_ne_true
  have late : c.numberings.packets.place (c.arrival src.packet position) =
      c.numberings.packets.placeLate (c.arrival src.packet position) := if_neg unheard
  have behind : ∃ o ∈ c.passages, position ≤ o.position := by
    obtain ⟨o, ho, rfl⟩ := hr.attained
    exact ⟨o, ho, h1⟩
  obtain ⟨follows, placed⟩ :=
    h.packets.late (a := c.arrival src.packet position) (src.number position) h1 h2
  obtain ⟨tracks, pictures⟩ :
      src.Tracks maxTemporal base (c.take src.packet maxTemporal position) newest
        (src.picture newest) ∧
      (c.take src.packet maxTemporal position).numberings.pictures = c.numberings.pictures := by
    rcases placed with refused | ⟨near, place, placed, standing⟩
    · exact h.refused (late.trans (Prod.ext rfl refused)) follows (src.picture_mono h1).1 behind
    · exact h.placedLate hr (late.trans (Prod.ext rfl placed)) standing follows h1 near behind
  exact ⟨tracks, hr.stay (if_neg unheard) rfl pictures⟩

/-! ## Runs -/

theorem isHead_iff (newest position : Int) (h : newest ≤ position + 0x8000)
    (h' : position < newest + 0x8000) :
    Intake.isHead (some (UInt16.ofInt newest)) (UInt16.ofInt position) = true ↔
      newest < position := by
  have step := Serial.toNat_ofInt (position - newest)
  rw [Serial.ofInt_sub] at step
  rw [Intake.isHead, Serial.isAhead_iff, Serial.lead]
  split <;> omega

/-- A packet within reach is taken as the newest one or as a late one. -/
theorem Tracks.take (h : src.Tracks maxTemporal base c newest (src.picture newest))
    (hr : src.Reached c newest) (hc : src.InReach newest position) :
    src.Tracks maxTemporal base (c.take src.packet maxTemporal position) (max newest position)
        (src.picture (max newest position)) ∧
      src.Reached (c.take src.packet maxTemporal position) (max newest position) := by
  have head := isHead_iff newest position hc.behind hc.ahead
  rw [← hr.number, ← src.number position] at head
  by_cases newer : newest < position
  · rw [Int.max_eq_right (Int.le_of_lt newer)]
    refine h.head (head.2 newer) newer hc.ahead (src.picture_mono (Int.le_of_lt newer)).1
      hc.counted ?_
    rw [hr.clock]
    exact src.unwrap_ahead (Int.le_of_lt newer) (hc.pictures newer)
  · rw [Int.max_eq_left (Int.not_lt.1 newer)]
    exact h.late hr (Bool.eq_false_iff.2 (mt head.1 newer)) (Int.not_lt.1 newer) hc.behind

theorem Tracks.takeAll {positions : List Int}
    (h : src.Tracks maxTemporal base c newest (src.picture newest)) (hr : src.Reached c newest)
    (hc : src.Comes newest positions) :
    History (src.Fits maxTemporal base) (c.takeAll src.packet maxTemporal positions).passages := by
  induction positions generalizing c newest with
  | nil => exact h.history
  | cons p ps ih =>
    obtain ⟨reach, hc⟩ := hc
    obtain ⟨h, hr⟩ := h.take hr reach
    exact ih h hr hc

/-- A source that is taken up has come to the position before its first packet. -/
theorem tracks_start {r : Renumbering} (h : r.Opens src) (maxTemporal : Int) :
    src.Tracks maxTemporal r.pictures.pictureOffset.toInt { numberings := r } (src.first - 1)
      (src.picture src.first - 1) where
  packets := Numbering.follows_of_empty (by
    rw [h.highest, src.number, Serial.ofInt_sub, UInt16.ofInt_one]) h.awaits
  clock := by rw [h.clock, src.starts, PictureClock.newest_before]
  counted := by
    have small := (src.descriptor src.first).pictureId.toNat_lt
    rw [src.starts]
    omega
  offset := (Int32.ofInt_toInt _).symm.trans (congrArg Int32.ofInt (Int.add_zero _).symm)
  lastFiltered k _ _ := by
    rw [h.lastFiltered]
    exact iff_of_false (fun h => by cases h) (Finset.notMem_empty k)
  noted x hx := by
    rw [h.missing] at hx
    cases hx
  pictures_le := fun e he => absurd he List.not_mem_nil
  history := .nil

/-- What comes of the packets of a source that is taken up, whichever are lost or late. -/
theorem record_fits {r : Renumbering} {rest : List Int} (h : r.Opens src) (maxTemporal : Int)
    (hc : src.Comes src.first rest) :
    History (src.Fits maxTemporal r.pictures.pictureOffset.toInt)
      (r.record src.packet maxTemporal (src.first :: rest)) := by
  let c : Course := { numberings := r }
  have counted : src.picture src.first < 0x80000000 := by
    have small := (src.descriptor src.first).pictureId.toNat_lt
    rw [src.starts]
    omega
  obtain ⟨tracks, reached⟩ : src.Tracks maxTemporal r.pictures.pictureOffset.toInt
        (c.take src.packet maxTemporal src.first) src.first (src.picture src.first) ∧
      src.Reached (c.take src.packet maxTemporal src.first) src.first := by
    refine (tracks_start h maxTemporal).head rfl (by omega) (by omega) (by omega) counted ?_
    change r.pictures.clock.unwrap _ _ = _
    rw [h.clock]
    exact src.unwrap_first
  exact tracks.takeAll reached hc

/-! ## What a history says -/

variable {newer older : List Passage} {o : Passage}

theorem exceeds_iff (h : History (src.Fits maxTemporal base) es) (he : e ∈ es) :
    e.Exceeds maxTemporal ↔ (src.descriptor e.position).Exceeds maxTemporal := by
  obtain ⟨newer, older, hs⟩ := List.append_of_mem he
  rw [Passage.Exceeds, (h newer e older hs).descriptor, Option.getD_some]

/-- All packets of a picture that is out are in a higher layer than is wanted. -/
theorem exceeds_of_mem_out (h : History (src.Fits maxTemporal base) es) (he : e ∈ es)
    (hout : src.picture e.position ∈ src.outPictures maxTemporal es) : e.Exceeds maxTemporal := by
  obtain ⟨o, ho, out, same⟩ := src.mem_outPictures.1 hout
  rw [exceeds_iff h he, ← src.exceeds_congr same, ← exceeds_iff h ho]
  exact out.2

theorem mem_out_of_split (hs : es = newer ++ e :: older) {k : Int}
    (hk : k ∈ src.outPictures maxTemporal older) : k ∈ src.outPictures maxTemporal es := by
  obtain ⟨o, ho, out⟩ := src.mem_outPictures.1 hk
  refine src.mem_outPictures.2 ⟨o, ?_, out⟩
  rw [hs]
  exact List.mem_append_right _ (List.mem_cons_of_mem _ ho)

/-- A packet that is filtered out puts its picture out. -/
theorem mem_out_of_filtered (h : History (src.Fits maxTemporal base) es)
    (hs : es = newer ++ e :: older) (filtered : e.filtered = true) :
    src.picture e.position ∈ src.outPictures maxTemporal (e :: older) := by
  rcases (h newer e older hs).filtered_iff.1 filtered with out | ⟨-, hout⟩
  · exact src.mem_outPictures.2 ⟨e, List.mem_cons_self, out, rfl⟩
  · obtain ⟨o, ho, out⟩ := src.mem_outPictures.1 hout
    exact src.mem_outPictures.2 ⟨o, List.mem_cons_of_mem _ ho, out⟩

/-- A packet is sent as the newest one only if its picture is not out by then. -/
theorem notOut_of_sent (h : History (src.Fits maxTemporal base) es)
    (hs : es = newer ++ e :: older) (hh : e.IsHead) (sent : e.sentId ≠ none) :
    ¬e.IsOut maxTemporal ∧ src.picture e.position ∉ src.outPictures maxTemporal older := by
  have fits := h newer e older hs
  have kept : ¬e.filtered = true := Bool.eq_false_iff.1 ((fits.sent_iff hh).1 sent)
  rw [fits.filtered_iff, not_or] at kept
  refine ⟨kept.1, fun hout => ?_⟩
  have he : e ∈ es := hs ▸ List.mem_append_right _ List.mem_cons_self
  rcases hh with direct | gap
  · exact kept.1 ⟨direct, exceeds_of_mem_out h he (mem_out_of_split hs hout)⟩
  · exact kept.2 ⟨gap, hout⟩

/-- What follows leaves the level of a picture as it is. -/
theorem level_split (h : History (src.Fits maxTemporal base) es) (hs : es = newer ++ e :: older) :
    level base (src.outPictures maxTemporal older) (src.picture e.position) =
      level base (src.outPictures maxTemporal es) (src.picture e.position) := by
  refine congrArg (fun n : Nat => src.picture e.position - base - n) (outBefore_congr ?_)
  intro k hk
  refine ⟨mem_out_of_split hs, fun hout => ?_⟩
  obtain ⟨o, ho, out, rfl⟩ := src.mem_outPictures.1 hout
  rw [hs] at ho
  rcases List.mem_append.1 ho with later | ho
  · obtain ⟨front, back, rfl⟩ := List.append_of_mem later
    have fits := h front o (back ++ e :: older) (by rw [hs, List.append_assoc, List.cons_append])
    have ahead := fits.ahead (.inl out.1) e (List.mem_append_right _ List.mem_cons_self)
    omega
  · rcases List.mem_cons.1 ho with rfl | earlier
    · omega
    · exact src.mem_outPictures.2 ⟨o, earlier, out, rfl⟩

/-- The id of a packet that is sent, if its picture is not out by then. -/
theorem sentId_eq (h : History (src.Fits maxTemporal base) es) (hs : es = newer ++ e :: older)
    (hout : src.picture e.position ∉ src.outPictures maxTemporal older) (sent : e.sentId ≠ none) :
    e.sentId = some (PictureNumbering.idOf
      (level base (src.outPictures maxTemporal es) (src.picture e.position))) := by
  obtain ⟨id, hid⟩ := Option.ne_none_iff_exists'.1 sent
  rw [hid, (h newer e older hs).sentId id hid hout, level_split h hs]

/-- Two pictures that are less than a cycle apart are on one level if and only if their ids
are the same. -/
theorem idOf_level_eq_iff {j k : Int} {out : Finset Int} (hjk : j ≤ k) (near : k < j + 0x8000) :
    PictureNumbering.idOf (level base out j) = PictureNumbering.idOf (level base out k) ↔
      ∀ i, j ≤ i → i < k → i ∈ out := by
  have mono := level_mono base out hjk
  rw [idOf_inj (by omega) (by omega), level_eq_iff base hjk]

end PictureSource
end Simulcast
