import Simulcast.Proofs.Vp8.LossySource

/-!
# What is filtered out

Behind a gap the temporal layer of a packet is not asked for: it is filtered out if the clock
gives its picture the number of the picture that was filtered out last. For a source that writes
picture ids that is the same picture, as long as the clock finds it (`filtered_within_source`).
Without picture ids all packets have the same number, so that from the first packet that is
filtered out on every packet behind a gap is, the base layer included
(`filtered_unnumbered_iff`).

`filtered_within_iff` says for any packets at all when only those of higher layers are filtered
out: if and only if no other one comes behind a gap with the number of the last one that was out
(`lastOut`). `baseLayer_filtered` is a packet of the base layer that does.
-/

namespace Simulcast

open Vp8

namespace Numbering

theorem standing_placeLate {n : Numbering} {a : Arrival} {place : Placement}
    (h : (n.placeLate a).2 = .ok place) : place.standing = .late := by
  unfold placeLate at h
  split at h
  · cases h
  · cases h
    rfl

/-- A packet that is placed is no duplicate. -/
theorem standing_place {n : Numbering} {a : Arrival} {place : Placement}
    (h : (n.place a).2 = .ok place) : place.standing ≠ .duplicate := by
  unfold Numbering.place at h
  split at h
  · unfold placeHead at h
    dsimp only at h
    split at h
    · cases h
      exact Standing.noConfusion
    · split at h
      · cases h
      · split at h
        · cases h
          exact Standing.noConfusion
        · cases h
  · rw [standing_placeLate h]
    exact Standing.noConfusion

theorem isFiltered_place {n : Numbering} {a : Arrival} {fault : Fault}
    (h : (n.place a).2 = .error fault) : Renumbering.isFiltered (.error fault) = false := by
  unfold Numbering.place placeHead placeLate at h
  dsimp only at h
  repeat' split at h
  all_goals first | (cases h; done) | (cases h; rfl)

end Numbering

namespace Vp8.PictureNumbering

open Renumbering

theorem numberOf_eq {n : PictureNumbering} {a : Arrival} {d : Descriptor} (hd : a.vp8 = some d) :
    numberOf n a = n.clock.unwrap d.pictureId d.longPictureId := by
  rw [numberOf, hd, Option.getD_some]

/-- A descriptor is refused for its temporal layer if the packet follows directly, and for its
number if it comes behind a gap. -/
theorem describe_filtered_iff (n : PictureNumbering) (a : Arrival) (maxTemporal : Int)
    {s : Standing} (hs : s ≠ .duplicate) :
    isFiltered (n.describe a s maxTemporal).2 = true ↔
      s = .contiguous ∧ (a.vp8.getD {}).Exceeds maxTemporal ∨
      s = .gap ∧ a.vp8.isSome = true ∧ n.lastFiltered = some (numberOf n a) := by
  cases hd : a.vp8 with
  | none =>
    simp only [describe, hd, Option.getD_none, Option.isSome_none]
    refine iff_of_false Bool.false_ne_true ?_
    rintro (⟨-, hasTid, -⟩ | ⟨-, isSome, -⟩)
    · cases hasTid
    · cases isSome
  | some d =>
    rw [numberOf_eq hd, Option.getD_some, Option.isSome_some, eq_self, true_and]
    cases s with
    | duplicate => exact absurd rfl hs
    | late =>
      have unfiltered : isFiltered (n.describe a .late maxTemporal).2 = false := by
        simp only [describe, hd, if_true, describeLate]
        cases n.missing.find? _ <;> rfl
      rw [unfiltered]
      exact iff_of_false Bool.false_ne_true fun h => h.elim (fun h => by cases h.1)
        fun h => by cases h.1
    | gap =>
      rw [describe_gap hd rfl]
      unfold describeAfterGap
      split
      · exact iff_of_true rfl (.inr ⟨rfl, ‹_›⟩)
      · refine iff_of_false Bool.false_ne_true ?_
        rintro (⟨h, -⟩ | ⟨-, h⟩)
        · cases h
        · exact absurd h ‹_›
    | contiguous =>
      simp only [describe, hd, reduceCtorEq, if_false, describeNext, Descriptor.Exceeds, true_and,
        false_and, or_false]
      split
      · exact iff_of_true rfl ‹_›
      · exact iff_of_false Bool.false_ne_true ‹_›

/-- Only a packet that follows directly becomes the last one that was filtered out. -/
theorem lastFiltered_describe (n : PictureNumbering) (a : Arrival) (maxTemporal : Int)
    {s : Standing} (hs : s ≠ .duplicate) :
    (n.describe a s maxTemporal).1.lastFiltered =
      if s = .contiguous ∧ (a.vp8.getD {}).Exceeds maxTemporal then some (numberOf n a)
      else n.lastFiltered := by
  cases hd : a.vp8 with
  | none =>
    rw [if_neg fun h => Bool.noConfusion h.2.1]
    simp only [describe, hd]
  | some d =>
    rw [numberOf_eq hd, Option.getD_some]
    cases s with
    | duplicate => exact absurd rfl hs
    | late =>
      rw [if_neg fun h => Standing.noConfusion h.1]
      simp only [describe, hd, if_true]
    | gap =>
      rw [if_neg fun h => Standing.noConfusion h.1, describe_gap hd rfl]
      unfold describeAfterGap
      split <;> rfl
    | contiguous =>
      simp only [describe, hd, reduceCtorEq, if_false, describeNext, Descriptor.Exceeds, true_and]
      split
      · unfold filterOut
        split
        · assumption
        · rfl
      · rfl

end Vp8.PictureNumbering

namespace Renumbering

variable {packet : Int → Arrival} {maxTemporal position : Int} {last : Option Int32} {c : Course}
  {r : Renumbering} {positions : List Int}

/-- The number of the last packet that was out, or what it was before. -/
def lastOut (last : Option Int32) (maxTemporal : Int) (es : List Passage) : Option Int32 :=
  ((es.find? fun e => e.IsOut maxTemporal).map Passage.number).or last

/-- A packet comes behind a gap with the number of the last one that was out. -/
def Recurs (last : Option Int32) (maxTemporal : Int) (e : Passage) (older : List Passage) : Prop :=
  e.standing = some .gap ∧ e.descriptor.isSome = true ∧
    lastOut last maxTemporal older = some e.number

/-- A packet is filtered out if it is out itself, or recurs. -/
def FiltersBy (last : Option Int32) (maxTemporal : Int) (e : Passage) (older : List Passage) :
    Prop :=
  e.filtered = true ↔ e.IsOut maxTemporal ∨ Recurs last maxTemporal e older

theorem lastOut_cons (last : Option Int32) (maxTemporal : Int) (e : Passage) (es : List Passage) :
    lastOut last maxTemporal (e :: es) =
      if e.IsOut maxTemporal then some e.number else lastOut last maxTemporal es := by
  rw [lastOut, List.find?_cons]
  by_cases out : e.IsOut maxTemporal
  · rw [decide_eq_true out, if_pos out]
    rfl
  · rw [decide_eq_false out, if_neg out]
    rfl

/-- What comes of one more packet. -/
theorem filtersBy_take (packet : Int → Arrival) (position : Int)
    (h : c.numberings.pictures.lastFiltered = lastOut last maxTemporal c.passages) :
    FiltersBy last maxTemporal (c.passage packet maxTemporal position) c.passages ∧
      (c.take packet maxTemporal position).numberings.pictures.lastFiltered =
        lastOut last maxTemporal (c.take packet maxTemporal position).passages := by
  obtain ⟨⟨packets, placed⟩, placing⟩ :
    ∃ x, c.numberings.packets.place (c.arrival packet position) = x := ⟨_, rfl⟩
  change _ ∧ _ = lastOut last maxTemporal (_ :: c.passages)
  rw [lastOut_cons, ← h, FiltersBy, Recurs, ← h]
  cases placed with
  | error fault =>
    obtain ⟨unplaced, result, pictures, -⟩ := Course.take_of_error maxTemporal placing
    have kept : ¬(c.passage packet maxTemporal position).IsOut maxTemporal := fun out => by
      cases unplaced.symm.trans out.1
    have unfiltered : (c.passage packet maxTemporal position).filtered = false := by
      rw [Passage.filtered, result]
      exact Numbering.isFiltered_place (congrArg Prod.snd placing)
    refine ⟨?_, by rw [pictures, if_neg kept]⟩
    rw [unfiltered]
    refine iff_of_false Bool.false_ne_true (fun h => h.elim kept fun recurs => ?_)
    cases unplaced.symm.trans recurs.1
  | ok place =>
    obtain ⟨standing, result, pictures, -⟩ := Course.take_of_ok maxTemporal placing
    have fresh := Numbering.standing_place (congrArg Prod.snd placing)
    have out : (c.passage packet maxTemporal position).IsOut maxTemporal ↔
        place.standing = .contiguous ∧
          ((c.arrival packet position).vp8.getD {}).Exceeds maxTemporal :=
      Iff.and (by rw [standing, Option.some.injEq]) Iff.rfl
    refine ⟨?_, ?_⟩
    · rw [Passage.filtered, result, out, standing, Option.some.injEq]
      exact PictureNumbering.describe_filtered_iff _ _ maxTemporal fresh
    · rw [pictures, PictureNumbering.lastFiltered_describe _ _ maxTemporal fresh]
      exact (if_congr out rfl rfl).symm

theorem filtersBy_takeAll
    (h : c.numberings.pictures.lastFiltered = lastOut last maxTemporal c.passages)
    (hist : History (FiltersBy last maxTemporal) c.passages) :
    History (FiltersBy last maxTemporal) (c.takeAll packet maxTemporal positions).passages := by
  induction positions generalizing c with
  | nil => exact hist
  | cons p ps ih =>
    obtain ⟨filters, h⟩ := filtersBy_take packet p h
    exact ih h (hist.cons filters)

theorem record_filtersBy (r : Renumbering) (packet : Int → Arrival) (maxTemporal : Int)
    (positions : List Int) :
    History (FiltersBy r.pictures.lastFiltered maxTemporal)
      (r.record packet maxTemporal positions) :=
  filtersBy_takeAll (c := { numberings := r }) rfl .nil

/-- For any packets and any losses: only packets of higher layers than are wanted are filtered
out if and only if no other one recurs. -/
theorem filtered_within_iff (r : Renumbering) (packet : Int → Arrival) (maxTemporal : Int)
    (positions : List Int) :
    let es := r.record packet maxTemporal positions
    (∀ e ∈ es, e.filtered = true → e.Exceeds maxTemporal) ↔
      ∀ newer e older, es = newer ++ e :: older → ¬e.Exceeds maxTemporal →
        ¬Recurs r.pictures.lastFiltered maxTemporal e older := by
  intro es
  have h := record_filtersBy r packet maxTemporal positions
  constructor
  · intro sound newer e older hs within recurs
    refine within (sound e ?_ ((h newer e older hs).2 (.inr recurs)))
    rw [hs]
    exact List.mem_append_right _ List.mem_cons_self
  · intro free e he filtered
    obtain ⟨newer, older, hs⟩ := List.append_of_mem he
    rcases (h newer e older hs).1 filtered with out | recurs
    · exact out.2
    · exact Decidable.by_contra fun within => free newer e older hs within recurs

/-! ## A source without picture ids -/

/-- The packet writes no picture id, so that none is read. -/
def Unnumbered (a : Arrival) : Prop :=
  (a.vp8.getD {}).pictureId = 0 ∧ (a.vp8.getD {}).longPictureId = false

/-- Only late packets leave the clock alone. -/
theorem clock_describe (n : PictureNumbering) (a : Arrival) (s : Standing) (maxTemporal : Int) :
    (n.describe a s maxTemporal).1.clock =
      if a.vp8 = none ∨ s = .late then n.clock
      else n.clock.advance (numberOf n a) (a.vp8.getD {}).longPictureId := by
  cases hd : a.vp8 with
  | none =>
    rw [if_pos (.inl rfl)]
    simp only [PictureNumbering.describe, hd]
  | some d =>
    rw [PictureNumbering.numberOf_eq hd, Option.getD_some]
    simp only [PictureNumbering.describe, hd, reduceCtorEq, false_or]
    split
    · rfl
    · unfold PictureNumbering.describeAfterGap PictureNumbering.describeNext
        PictureNumbering.filterOut
      split
      · split <;> rfl
      · split
        · split <;> rfl
        · rfl

theorem numberOf_unnumbered {n : PictureNumbering} {a : Arrival} (hc : n.clock = {})
    (ha : Unnumbered a) : numberOf n a = 0 := by
  rw [numberOf, hc, ha.1, ha.2]
  rfl

/-- The clock stands still. -/
theorem clock_take (hc : c.numberings.pictures.clock = {})
    (ha : Unnumbered (packet position)) :
    (c.take packet maxTemporal position).numberings.pictures.clock = {} := by
  have number : numberOf c.numberings.pictures (c.arrival packet position) = 0 :=
    numberOf_unnumbered hc ha
  obtain ⟨⟨packets, placed⟩, placing⟩ :
    ∃ x, c.numberings.packets.place (c.arrival packet position) = x := ⟨_, rfl⟩
  cases placed with
  | error fault =>
    obtain ⟨-, -, pictures, -⟩ := Course.take_of_error maxTemporal placing
    rw [pictures, hc]
  | ok place =>
    obtain ⟨-, -, pictures, -⟩ := Course.take_of_ok maxTemporal placing
    rw [pictures, clock_describe, number, hc]
    split
    · rfl
    · exact congrArg (fun long : Bool => ({ newest := 0, long } : PictureClock)) ha.2

theorem number_takeAll (hc : c.numberings.pictures.clock = {})
    (hn : ∀ e ∈ c.passages, e.number = 0) (ha : ∀ p ∈ positions, Unnumbered (packet p)) :
    ∀ e ∈ (c.takeAll packet maxTemporal positions).passages, e.number = 0 := by
  induction positions generalizing c with
  | nil => exact hn
  | cons p ps ih =>
    obtain ⟨first, rest⟩ := List.forall_mem_cons.1 ha
    refine ih (c := c.take packet maxTemporal p) (clock_take hc first) ?_ rest
    exact List.forall_mem_cons.2 ⟨numberOf_unnumbered hc first, hn⟩

/-- Without picture ids, every packet behind a gap is filtered out once one was out, whatever
its layer. -/
theorem filtered_unnumbered_iff (hc : r.pictures.clock = {}) (hl : r.pictures.lastFiltered = none)
    (ha : ∀ p ∈ positions, Unnumbered (packet p)) :
    History (fun e older => e.filtered = true ↔ e.IsOut maxTemporal ∨
        e.standing = some .gap ∧ e.descriptor.isSome = true ∧ ∃ o ∈ older, o.IsOut maxTemporal)
      (r.record packet maxTemporal positions) := by
  intro newer e older hs
  have filters := record_filtersBy r packet maxTemporal positions newer e older hs
  have zero : ∀ o ∈ r.record packet maxTemporal positions, o.number = 0 :=
    number_takeAll (c := { numberings := r }) hc (fun o ho => absurd ho List.not_mem_nil) ha
  rw [hs] at zero
  have later := zero e (List.mem_append_right _ List.mem_cons_self)
  have earlier : lastOut r.pictures.lastFiltered maxTemporal older = some e.number ↔
      ∃ o ∈ older, o.IsOut maxTemporal := by
    rw [hl, lastOut, Option.or_none, later, Option.map_eq_some_iff]
    constructor
    · rintro ⟨o, found, -⟩
      have out := List.find?_some found
      exact ⟨o, List.mem_of_find?_eq_some found, of_decide_eq_true out⟩
    · rintro ⟨o, ho, out⟩
      have some : (older.find? fun e => decide (e.IsOut maxTemporal)).isSome = true :=
        List.find?_isSome.2 ⟨o, ho, decide_eq_true out⟩
      obtain ⟨x, found⟩ := Option.isSome_iff_exists.1 some
      refine ⟨x, found, zero x (List.mem_append_right _ (List.mem_cons_of_mem _ ?_))⟩
      exact List.mem_of_find?_eq_some found
  rw [FiltersBy, Recurs, earlier] at filters
  exact filters

/-- A packet of a source that writes temporal layers, but no picture ids. -/
def layerPacket (position : Int) : Arrival :=
  let tid : UInt8 := if position = 101 then 1 else 0
  { head := true
    time := 0
    packet :=
      { header := { payloadType := 96, number := UInt16.ofInt position, ssrc := 1111 }
        payload := [0x90, 0x20, tid <<< 6, 1] }
    vp8 := some { firstOctet := 0x90, hasTid := true, tid, size := 3 } }

/-- Behind the packet of a higher layer one is lost, and the next one of the base layer is
filtered out. -/
theorem baseLayer_filtered :
    ((⟨({} : Numbering).start (layerPacket 100), ({} : PictureNumbering).start (layerPacket 100)⟩ :
        Renumbering).record layerPacket 0 [100, 101, 103]).map
        (fun e => (e.descriptor.map Descriptor.tid, e.standing, e.filtered)) =
      [(some 0, some .gap, true), (some 1, some .contiguous, true),
        (some 0, some .contiguous, false)] := by
  decide

end Renumbering

namespace PictureSource

open Renumbering

/-- With picture ids that the clock finds, only packets of higher layers are filtered out. -/
theorem filtered_within_source {w : IdWidth} {src : PictureSource w} {r : Renumbering}
    {rest : List Int} (hr : r.Opens src) (maxTemporal : Int) (hc : src.Comes src.first rest) :
    ∀ e ∈ r.record src.packet maxTemporal (src.first :: rest),
      e.filtered = true → e.Exceeds maxTemporal := by
  intro e he filtered
  have h := record_fits hr maxTemporal hc
  obtain ⟨newer, older, hs⟩ := List.append_of_mem he
  rcases (h newer e older hs).filtered_iff.1 filtered with out | ⟨-, out⟩
  · exact out.2
  · exact exceeds_of_mem_out h he (mem_out_of_split hs out)

end PictureSource
end Simulcast
