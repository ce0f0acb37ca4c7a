import Simulcast.Proofs.Vp8.LossySource

/-!
# Pictures torn by a loss

Behind a gap a packet is sent whatever its temporal layer is, as the lost ones may have been
wanted. If its picture goes on, the next packet of it is filtered out all the same, and takes the
picture off the ids of those behind it.

`untorn_iff` says that this is the only way in which losses tear pictures apart: as long as
nothing comes late, every picture is forwarded up to its end or filtered out from the start, and
has an id of its own, if and only if no picture of a higher layer begins behind a gap and goes on
directly (`Untorn`). `tornPicture_sent` is a picture that does.
-/

namespace Simulcast.PictureSource

open Vp8 Renumbering

variable {w : IdWidth} {src : PictureSource w} {maxTemporal base : Int} {es : List Passage}

/-- No picture has a packet that is sent and a later one that is filtered out. -/
def Whole (src : PictureSource w) (es : List Passage) : Prop :=
  ∀ newer e older, es = newer ++ e :: older → ∀ o ∈ older,
    src.picture o.position = src.picture e.position → o.sentId ≠ none → e.filtered = false

/-- Pictures that are sent less than a cycle of ids apart are sent with different ones. -/
def ToldApart (src : PictureSource w) (es : List Passage) : Prop :=
  ∀ e ∈ es, ∀ o ∈ es, src.picture e.position < src.picture o.position →
    src.picture o.position < src.picture e.position + 0x8000 → e.sentId = o.sentId →
    e.sentId = none

/-- Of a picture in a higher layer than is wanted, no packet follows directly behind one that
came behind a gap, unless one did before. -/
def Untorn (src : PictureSource w) (maxTemporal : Int) (es : List Passage) : Prop :=
  ∀ newer e older, es = newer ++ e :: older → e.standing = some .gap → e.Exceeds maxTemporal →
    (∀ o ∈ older, src.picture o.position = src.picture e.position →
      o.standing ≠ some .contiguous) →
    ∀ o ∈ newer, src.picture o.position = src.picture e.position → o.standing ≠ some .contiguous

/-- Nothing comes late. -/
theorem isHead_of_increasing (h : History (src.Fits maxTemporal base) es)
    (hi : es.Pairwise fun e o => o.position < e.position) : ∀ e ∈ es, e.IsHead := by
  intro e he
  obtain ⟨newer, older, hs⟩ := List.append_of_mem he
  refine Decidable.by_contra fun unheard => ?_
  obtain ⟨o, ho, le⟩ := (h newer e older hs).behind unheard
  rw [hs] at hi
  have later := (List.pairwise_cons.1 (List.pairwise_append.1 hi).2.1).1 o ho
  omega

/-- A picture that is sent and out is torn. -/
theorem notOut_of_whole (h : History (src.Fits maxTemporal base) es) (whole : src.Whole es)
    {newer older : List Passage} {e : Passage} (hs : es = newer ++ e :: older) (hh : e.IsHead)
    (sent : e.sentId ≠ none) :
    src.picture e.position ∉ src.outPictures maxTemporal es := by
  intro hout
  obtain ⟨kept, notOut⟩ := notOut_of_sent h hs hh sent
  obtain ⟨o, ho, out, same⟩ := src.mem_outPictures.1 hout
  rw [hs] at ho
  rcases List.mem_append.1 ho with later | ho
  · obtain ⟨front, back, rfl⟩ := List.append_of_mem later
    have split : es = front ++ o :: (back ++ e :: older) := by
      rw [hs, List.append_assoc, List.cons_append]
    have filtered := (h _ _ _ split).filtered_iff.2 (.inl out)
    have unfiltered := whole _ _ _ split e (List.mem_append_right _ List.mem_cons_self)
      same.symm sent
    rw [filtered] at unfiltered
    cases unfiltered
  · rcases List.mem_cons.1 ho with rfl | earlier
    · exact kept out
    · exact notOut (src.mem_outPictures.2 ⟨o, earlier, out, same⟩)

/-- Pictures that stay whole are told apart. -/
theorem toldApart_of_whole (h : History (src.Fits maxTemporal base) es)
    (hh : ∀ e ∈ es, e.IsHead) (whole : src.Whole es) : src.ToldApart es := by
  intro e he o ho lower near same
  refine Decidable.by_contra fun sent => ?_
  obtain ⟨newer, older, hs⟩ := List.append_of_mem he
  obtain ⟨newer', older', hs'⟩ := List.append_of_mem ho
  have sent' : o.sentId ≠ none := same ▸ sent
  have id := sentId_eq h hs (notOut_of_sent h hs (hh e he) sent).2 sent
  have id' := sentId_eq h hs' (notOut_of_sent h hs' (hh o ho) sent').2 sent'
  rw [id, id', Option.some.injEq, idOf_level_eq_iff (Int.le_of_lt lower) near] at same
  exact notOut_of_whole h whole hs (hh e he) sent (same _ (Int.le_refl _) lower)

/-- A picture that begins behind a gap and goes on directly is torn. -/
theorem untorn_of_whole (h : History (src.Fits maxTemporal base) es) (whole : src.Whole es) :
    src.Untorn maxTemporal es := by
  intro newer e older hs gap exceeds fresh o ho same direct
  have he : e ∈ es := hs ▸ List.mem_append_right _ List.mem_cons_self
  have fits := h newer e older hs
  have kept : e.filtered = false := by
    refine Bool.eq_false_iff.2 (mt fits.filtered_iff.1 ?_)
    rintro (out | ⟨-, out⟩)
    · have direct := gap.symm.trans out.1
      cases direct
    · obtain ⟨x, hx, out, same⟩ := src.mem_outPictures.1 out
      exact fresh x hx same out.1
  have sent : e.sentId ≠ none := (fits.sent_iff (.inr gap)).2 kept
  have ho : o ∈ es := hs ▸ List.mem_append_left _ ho
  have exceeds' : o.Exceeds maxTemporal := by
    rw [exceeds_iff h ho, src.exceeds_congr same, ← exceeds_iff h he]
    exact exceeds
  exact notOut_of_whole h whole hs (.inr gap) sent
    (src.mem_outPictures.2 ⟨o, ho, ⟨direct, exceeds'⟩, same⟩)

/-- Losses tear no picture apart unless it begins behind a gap and goes on directly. -/
theorem whole_of_untorn (h : History (src.Fits maxTemporal base) es) (hh : ∀ e ∈ es, e.IsHead)
    (untorn : src.Untorn maxTemporal es) : src.Whole es := by
  intro newer e older hs o ho same sent
  obtain ⟨middle, oldest, rfl⟩ := List.append_of_mem ho
  have split : es = (newer ++ e :: middle) ++ o :: oldest := by
    rw [hs, List.append_assoc, List.cons_append]
  have ho : o ∈ es := split ▸ List.mem_append_right _ List.mem_cons_self
  obtain ⟨kept, notOut⟩ := notOut_of_sent h split (hh o ho) sent
  refine Bool.eq_false_iff.2 fun filtered => ?_
  -- what took the picture out came behind `o`
  obtain ⟨x, hx, out, of⟩ : ∃ x ∈ newer ++ e :: middle, x.IsOut maxTemporal ∧
      src.picture x.position = src.picture o.position := by
    obtain ⟨x, hx, out, of⟩ := src.mem_outPictures.1 (mem_out_of_filtered h hs filtered)
    rw [← same] at of
    rw [← List.cons_append] at hx
    rcases List.mem_append.1 hx with later | hx
    · exact ⟨x, List.mem_append_right _ later, out, of⟩
    · rcases List.mem_cons.1 hx with rfl | earlier
      · exact absurd out kept
      · exact absurd (src.mem_outPictures.2 ⟨x, earlier, out, of⟩) notOut
  have hx' : x ∈ es := split ▸ List.mem_append_left _ hx
  have exceeds : ∀ y ∈ es, src.picture y.position = src.picture o.position →
      y.Exceeds maxTemporal := fun y hy heq => by
    rw [exceeds_iff h hy, src.exceeds_congr (heq.trans of.symm), ← exceeds_iff h hx']
    exact out.2
  have gap : o.standing = some .gap :=
    (hh o ho).resolve_left fun direct => kept ⟨direct, exceeds o ho rfl⟩
  refine untorn _ o oldest split gap (exceeds o ho rfl) (fun y hy heq direct => notOut ?_) x hx of
    out.1
  have hy' : y ∈ es := split ▸ List.mem_append_right _ (List.mem_cons_of_mem _ hy)
  exact src.mem_outPictures.2 ⟨y, hy, ⟨direct, exceeds y hy' heq⟩, heq⟩

/-- Whatever is lost, as long as nothing comes late: every picture of the source is forwarded up
to its end or filtered out from the start, and told apart from the others, if and only if none
of a higher layer begins behind a gap and goes on directly. -/
theorem untorn_iff {r : Renumbering} {rest : List Int} (hr : r.Opens src) (maxTemporal : Int)
    (hc : src.Comes src.first rest) (hi : (src.first :: rest).Pairwise (· < ·)) :
    let es := r.record src.packet maxTemporal (src.first :: rest)
    src.Whole es ∧ src.ToldApart es ↔ src.Untorn maxTemporal es := by
  intro es
  have h : History (src.Fits maxTemporal r.pictures.pictureOffset.toInt) es :=
    record_fits hr maxTemporal hc
  have hh : ∀ e ∈ es, e.IsHead := by
    refine isHead_of_increasing h ?_
    rw [← List.pairwise_map (f := Passage.position) (R := fun p q => q < p), position_record,
      List.pairwise_reverse]
    exact hi
  refine ⟨fun ⟨whole, _⟩ => untorn_of_whole h whole, fun untorn => ?_⟩
  have whole := whole_of_untorn h hh untorn
  exact ⟨whole, toldApart_of_whole h hh whole⟩

/-! ## A picture that is torn -/

/-- The first packet of the picture in the middle is lost. The second one is sent, the third one
is filtered out, and the next picture is sent with the id that the second one had. -/
theorem tornPicture_sent :
    (starting threePictures).Opens threePictures ∧ threePictures.Comes 100 [102, 103, 104] ∧
    ([100, 102, 103, 104] : List Int).Pairwise (· < ·) ∧
    ((starting threePictures).record threePictures.packet 0 [100, 102, 103, 104]).map
        (fun e => (threePictures.picture e.position, e.standing, e.filtered, e.sentId)) =
      [(12, some .contiguous, false, some 11), (11, some .contiguous, true, none),
        (11, some .gap, false, some 11), (10, some .contiguous, false, some 10)] :=
  ⟨opens_starting _, by decide, by decide, by decide⟩

/-- The condition missed by that run. -/
theorem untorn_iff_threePictures :
    let es := (starting threePictures).record threePictures.packet 0 [100, 102, 103, 104]
    (starting threePictures).Opens threePictures ∧ threePictures.Comes 100 [102, 103, 104] ∧
    ([100, 102, 103, 104] : List Int).Pairwise (· < ·) ∧
    ¬(threePictures.Whole es ∧ threePictures.ToldApart es) := by
  intro es
  refine ⟨opens_starting _, by decide, by decide, fun both => ?_⟩
  have untorn := (untorn_iff (opens_starting threePictures) 0 (by decide) (by decide)).1 both
  refine untorn [_, _] _ [_] rfl rfl (by decide) (fun o ho same => ?_) _
    (.tail _ (.head _)) (by decide) (by decide)
  rw [List.mem_singleton] at ho
  subst ho
  exact absurd same (by decide)

end Simulcast.PictureSource
