import Simulcast.Proofs.Vp8.LossySource

/-!
# Late packets of pictures

A packet that comes late is sent with the offset that was in force when its picture was noted.
Behind a gap, the picture before it is noted as well, even if it is the one that was filtered out
last, and its late packets are then sent with the id of the picture before them.

`lateIds_iff` says when late packets get the ids of their pictures and no others, and none comes
behind one of its picture that was filtered out: if and only if the pictures of the late packets
that are sent are not out by then, and are parted from every other picture that is sent by one
that is not out (`LateParted`). `latePacket_sent` is a packet of a picture that is out.
-/

namespace Simulcast.PictureSource

open Vp8 Renumbering

variable {w : IdWidth} {src : PictureSource w} {maxTemporal base : Int}
  {es newer older : List Passage} {e o : Passage}

/-- The packets are of different pictures, less than a cycle of ids apart. -/
def Near (src : PictureSource w) (e o : Passage) : Prop :=
  src.picture o.position ≠ src.picture e.position ∧
    src.picture o.position < src.picture e.position + 0x8000 ∧
    src.picture e.position < src.picture o.position + 0x8000

/-- A late packet that is sent has the id of the other packets of its picture that are sent, and
of no other picture, and none of its picture was filtered out before. -/
def LateFaithful (src : PictureSource w) (es : List Passage) : Prop :=
  ∀ newer e older, es = newer ++ e :: older → e.standing = some .late → e.sentId ≠ none →
    (∀ o ∈ es, o.sentId ≠ none → src.picture o.position = src.picture e.position →
      o.sentId = e.sentId) ∧
    (∀ o ∈ es, o.sentId ≠ none → src.Near e o → o.sentId ≠ e.sentId) ∧
    ∀ o ∈ older, src.picture o.position = src.picture e.position → o.filtered = false

/-- The picture of a late packet that is sent is not out by then. From that of any other packet
that is sent, it is parted by a picture that is not out, the earlier one of the two or one
between them. -/
def LateParted (src : PictureSource w) (maxTemporal : Int) (es : List Passage) : Prop :=
  ∀ newer e older, es = newer ++ e :: older → e.standing = some .late → e.sentId ≠ none →
    src.picture e.position ∉ src.outPictures maxTemporal older ∧
    ∀ o ∈ es, o.sentId ≠ none → src.Near e o →
      ∃ k, min (src.picture e.position) (src.picture o.position) ≤ k ∧
        k < max (src.picture e.position) (src.picture o.position) ∧
        k ∉ src.outPictures maxTemporal es

/-- The pictures that are out are those of which a packet was filtered out. -/
theorem mem_out_iff_filtered (h : History (src.Fits maxTemporal base) es)
    (hs : es = newer ++ older) {k : Int} :
    k ∈ src.outPictures maxTemporal older ↔
      ∃ o ∈ older, src.picture o.position = k ∧ o.filtered = true := by
  constructor
  · intro hk
    obtain ⟨o, ho, out, rfl⟩ := src.mem_outPictures.1 hk
    obtain ⟨front, back, rfl⟩ := List.append_of_mem ho
    refine ⟨o, ho, rfl, (h (newer ++ front) o back ?_).filtered_iff.2 (.inl out)⟩
    rw [hs, List.append_assoc]
  · rintro ⟨o, ho, rfl, filtered⟩
    obtain ⟨front, back, rfl⟩ := List.append_of_mem ho
    have split : es = (newer ++ front) ++ o :: back := by rw [hs, List.append_assoc]
    obtain ⟨x, hx, out⟩ := src.mem_outPictures.1 (mem_out_of_filtered h split filtered)
    exact src.mem_outPictures.2 ⟨x, List.mem_append_right _ hx, out⟩

/-- No late packet is sent of a picture that is out by then. -/
def LateKept (src : PictureSource w) (maxTemporal : Int) (es : List Passage) : Prop :=
  ∀ newer e older, es = newer ++ e :: older → e.standing = some .late → e.sentId ≠ none →
    src.picture e.position ∉ src.outPictures maxTemporal older

theorem LateParted.kept (h : src.LateParted maxTemporal es) : src.LateKept maxTemporal es :=
  fun newer e older hs late sent => (h newer e older hs late sent).1

/-- A picture that is out had a packet filtered out. -/
theorem LateFaithful.kept (h : History (src.Fits maxTemporal base) es)
    (faithful : src.LateFaithful es) : src.LateKept maxTemporal es := by
  intro newer e older hs late sent hout
  have split : es = (newer ++ [e]) ++ older := by rw [hs, List.append_assoc]; rfl
  obtain ⟨o, ho, same, filtered⟩ := (mem_out_iff_filtered h split).1 hout
  have kept := (faithful newer e older hs late sent).2.2 o ho same
  rw [filtered] at kept
  cases kept

/-- Packets are sent with the ids of their pictures then. -/
theorem LateKept.sentId_eq (hl : src.LateKept maxTemporal es)
    (h : History (src.Fits maxTemporal base) es) (he : e ∈ es) (sent : e.sentId ≠ none) :
    e.sentId = some (PictureNumbering.idOf
      (level base (src.outPictures maxTemporal es) (src.picture e.position))) := by
  obtain ⟨newer, older, hs⟩ := List.append_of_mem he
  by_cases hh : e.IsHead
  · exact PictureSource.sentId_eq h hs (notOut_of_sent h hs hh sent).2 sent
  · exact PictureSource.sentId_eq h hs (hl _ _ _ hs ((h _ _ _ hs).late hh sent) sent) sent

/-- Different pictures have different ids if and only if one that is not out parts them. -/
theorem idOf_level_ne_iff {out : Finset Int} (near : src.Near e o) :
    PictureNumbering.idOf (level base out (src.picture o.position)) ≠
        PictureNumbering.idOf (level base out (src.picture e.position)) ↔
      ∃ k, min (src.picture e.position) (src.picture o.position) ≤ k ∧
        k < max (src.picture e.position) (src.picture o.position) ∧ k ∉ out := by
  obtain ⟨ne, ahead, behind⟩ := near
  rcases Int.lt_or_gt_of_ne ne with lower | higher
  · rw [Int.min_eq_right (Int.le_of_lt lower), Int.max_eq_left (Int.le_of_lt lower), ne_eq,
      idOf_level_eq_iff (Int.le_of_lt lower) behind]
    simp only [not_forall, exists_prop]
  · rw [Int.min_eq_left (Int.le_of_lt higher), Int.max_eq_right (Int.le_of_lt higher), ne_comm,
      ne_eq, idOf_level_eq_iff (Int.le_of_lt higher) ahead]
    simp only [not_forall, exists_prop]

/-- Whatever is lost and comes late: late packets that are sent get the ids of their pictures and
no others, and none behind one of its picture that was filtered out, if and only if their
pictures are not out by then and are parted from the others. -/
theorem lateIds_iff {r : Renumbering} {rest : List Int} (hr : r.Opens src) (maxTemporal : Int)
    (hc : src.Comes src.first rest) :
    let es := r.record src.packet maxTemporal (src.first :: rest)
    src.LateFaithful es ↔ src.LateParted maxTemporal es := by
  intro es
  have h : History (src.Fits maxTemporal r.pictures.pictureOffset.toInt) es :=
    record_fits hr maxTemporal hc
  constructor
  · intro faithful newer e older hs late sent
    have kept := faithful.kept h
    refine ⟨kept newer e older hs late sent, fun o ho sent' near => ?_⟩
    have he : e ∈ es := hs ▸ List.mem_append_right _ List.mem_cons_self
    have differ := (faithful newer e older hs late sent).2.1 o ho sent' near
    rw [kept.sentId_eq h he sent, kept.sentId_eq h ho sent', ne_eq, Option.some.injEq] at differ
    exact (idOf_level_ne_iff near).1 differ
  · intro parted newer e older hs late sent
    have kept := parted.kept
    have he : e ∈ es := hs ▸ List.mem_append_right _ List.mem_cons_self
    have id := kept.sentId_eq h he sent
    refine ⟨fun o ho sent' same => ?_, fun o ho sent' near => ?_, fun o ho same => ?_⟩
    · rw [id, kept.sentId_eq h ho sent', same]
    · rw [id, kept.sentId_eq h ho sent', ne_eq, Option.some.injEq]
      exact (idOf_level_ne_iff near).2 ((parted newer e older hs late sent).2 o ho sent' near)
    · have split : es = (newer ++ [e]) ++ older := by rw [hs, List.append_assoc]; rfl
      refine Bool.eq_false_iff.2 fun filtered => kept newer e older hs late sent ?_
      exact (mem_out_iff_filtered h split).2 ⟨o, ho, same, filtered⟩

/-! ## A late packet of a picture that is out -/

/-- The first packet of the picture in the middle is filtered out and the others are lost. One of
them comes late, and is sent with the id of the picture before. -/
theorem latePacket_sent :
    (starting threePictures).Opens threePictures ∧ threePictures.Comes 100 [101, 104, 102] ∧
    ((starting threePictures).record threePictures.packet 0 [100, 101, 104, 102]).map
        (fun e => (threePictures.picture e.position, e.standing, e.filtered, e.sentId)) =
      [(11, some .late, false, some 10), (12, some .gap, false, some 11),
        (11, some .contiguous, true, none), (10, some .contiguous, false, some 10)] :=
  ⟨opens_starting _, by decide, by decide⟩

/-- The condition missed by that run. -/
theorem lateIds_iff_threePictures :
    (starting threePictures).Opens threePictures ∧ threePictures.Comes 100 [101, 104, 102] ∧
    ¬threePictures.LateFaithful
      ((starting threePictures).record threePictures.packet 0 [100, 101, 104, 102]) := by
  refine ⟨opens_starting _, by decide, fun faithful => ?_⟩
  have parted := (lateIds_iff (opens_starting threePictures) 0 (by decide)).1 faithful
  exact absurd (parted [] _ [_, _, _] rfl rfl (by decide)).1 (by decide)

end Simulcast.PictureSource
