import Simulcast.Proofs.Forwarding.Admission
import Simulcast.Proofs.Vp8.PictureOrder

/-!
# Temporal layers at the next packet

The temporal layers that a forwarder sends follow those that it aims for, but no packet above
both goes through: a packet within the layers aimed for makes them the ones that are sent
(`temporalFor`), and any other packet leaves them as they were. `forward_next` says what
becomes of the next packet of a source in a stream of pictures: it is left out if its layer
exceeds `temporalFor`, and otherwise sent with the descriptor that the pictures give it.
-/

namespace Simulcast

namespace Vp8.PictureNumbering

variable {n : PictureNumbering} {a : Arrival} {d : Descriptor} {maxTemporal : Int}

theorem describe_of_exceeds (hd : a.vp8 = some d) (hx : d.Exceeds maxTemporal) :
    (n.describe a .contiguous maxTemporal).2 = .error .filteredTemporalLayer := by
  rw [Descriptor.Exceeds] at hx
  simp only [describe, hd, reduceCtorEq, if_false, describeNext, hx, if_true, and_self]

theorem describe_of_not_exceeds (hd : a.vp8 = some d) (hx : ¬d.Exceeds maxTemporal) :
    ∃ out, (n.describe a .contiguous maxTemporal).2 = .ok out := by
  rw [Descriptor.Exceeds] at hx
  simp only [describe, hd, reduceCtorEq, if_false, describeNext, hx]
  exact ⟨_, rfl⟩

end Vp8.PictureNumbering

namespace Forwarder

variable {f : Forwarder} {a : Arrival} {layer : Int} {d : Vp8.Descriptor}

/-- The temporal layers that are sent once a packet was placed. -/
def temporalFor (f : Forwarder) (a : Arrival) : Int :=
  if f.switchesTemporal a then f.target.temporal else f.current.temporal

/-- The descriptor that a packet is sent on with, if it is. -/
def describedAs (f : Forwarder) (a : Arrival) (layer : Int) : Option Vp8.Descriptor :=
  match (f.forward a layer).2 with
  | .ok d => if d.drop then none else d.descriptor
  | .error _ => none

theorem temporalFor_congr {g : Forwarder} (ht : g.target = f.target)
    (hc : g.current.temporal = f.current.temporal) : g.temporalFor a = f.temporalFor a := by
  unfold temporalFor switchesTemporal
  rw [ht, hc]

theorem switchesTemporal_iff (hd : a.vp8 = some d) :
    f.switchesTemporal a = true ↔ ¬d.Exceeds f.target.temporal := by
  simp only [switchesTemporal, hd, Option.any_some, Bool.or_eq_true, Bool.not_eq_true',
    decide_eq_true_eq, Vp8.Descriptor.Exceeds, not_and]
  cases d.hasTid <;> simp

/-- A packet goes through if it lies within the layers aimed for, or those that are sent. -/
theorem exceeds_temporalFor_iff (hd : a.vp8 = some d) :
    d.Exceeds (f.temporalFor a) ↔ d.Exceeds f.target.temporal ∧ d.Exceeds f.current.temporal := by
  unfold temporalFor
  split
  · have within := (switchesTemporal_iff hd).1 ‹_›
    exact iff_of_false within fun h => within h.1
  · have beyond := of_not_not (mt (switchesTemporal_iff hd).2 ‹_›)
    exact ⟨fun h => ⟨beyond, h⟩, And.right⟩

/-! ## On the way to the pictures -/

@[simp] theorem target_approachTarget (f : Forwarder) (a : Arrival) (layer : Int) :
    (f.approachTarget a layer).1.target = f.target := by
  unfold approachTarget
  split
  · split
    · rfl
    · split <;> rfl
  · rfl

@[simp] theorem temporal_approachTarget (f : Forwarder) (a : Arrival) (layer : Int) :
    (f.approachTarget a layer).1.current.temporal = f.current.temporal := by
  unfold approachTarget
  split
  · split
    · rfl
    · split <;> rfl
  · rfl

@[simp] theorem layers_takeUp (f : Forwarder) (a : Arrival) :
    (f.takeUp a).target = f.target ∧ (f.takeUp a).current = f.current := by
  have pictures : (f.takePictures a).target = f.target ∧ (f.takePictures a).current = f.current := by
    unfold takePictures
    split <;> exact ⟨rfl, rfl⟩
  have source : ∀ (g : Forwarder) (ticks : UInt32),
      (g.takeSource a ticks).target = g.target ∧ (g.takeSource a ticks).current = g.current := by
    intro g ticks
    unfold takeSource
    split <;> exact ⟨rfl, rfl⟩
  exact ⟨(source _ _).1.trans pictures.1, (source _ _).2.trans pictures.2⟩

theorem lastSsrc_takeUp (f : Forwarder) (a : Arrival) : (f.takeUp a).lastSsrc = a.ssrc :=
  lastSsrc_takeSource (f.takePictures a) a (f.ticksSince a)

/-- An admitted packet is placed by the forwarder that went on to its target. -/
theorem forward_admitted (hk : f.kind = .video) (h : f.Admits a layer) :
    f.forward a layer = (f.approachTarget a layer).1.placePacket a
      { askKeyFrame := (f.approachTarget a layer).2 } := by
  have passes := h.2 hk
  have hl : f.gate.Live := by
    have live := passes.1
    rw [Gate.Live, Gate.take_muted, Gate.take_target] at live
    exact live
  rw [← (approachTarget_eq hl).1] at passes
  rw [forward_of_live hk hl]
  exact if_pos ((passes_iff passes.1).2 passes)

/-- The pictures that an admitted packet meets, with its source taken up. -/
def picturesFor (f : Forwarder) (a : Arrival) : Option Vp8.PictureNumbering :=
  (f.takePictures a).pictures

theorem pictures_takeUp (f : Forwarder) (a : Arrival) :
    (f.takeUp a).pictures = f.picturesFor a :=
  pictures_takeSource _ a _

theorem picturesFor_congr {g : Forwarder} (h : g.behind = f.behind) :
    g.picturesFor a = f.picturesFor a := by
  obtain ⟨-, -, started, ssrc, -, -, pictures⟩ := Behind.mk.inj h
  simp only [picturesFor, takePictures, started, ssrc, pictures, apply_ite Forwarder.pictures]

/-! ## The next packet -/

/-- What stands behind the gate once a packet of a picture was placed. -/
structure Leaves (f : Forwarder) (a : Arrival) (pics : Vp8.PictureNumbering) (f' : Forwarder) :
    Prop where
  pictures : f'.pictures = some pics
  temporal : f'.current.temporal = f.temporalFor a
  highest : f'.numbering.highest = a.number
  lastSsrc : f'.lastSsrc = a.ssrc

theorem describePicture_next (f : Forwarder) (p : Vp8.PictureNumbering) {place : Placement}
    (dec : Decision) (hd : a.vp8 = some d) (hs : place.standing = .contiguous)
    (hn : f.numbering.highest = a.number) (hf : f.lastSsrc = a.ssrc) :
    let r := p.describe a .contiguous (f.temporalFor a)
    f.Leaves a r.1 (f.describePicture p a place dec).1 ∧
      ((d.Exceeds (f.temporalFor a) ∧
          (f.describePicture p a place dec).2 = .ok { dec with drop := true }) ∨
        ¬d.Exceeds (f.temporalFor a) ∧ ∃ out, r.2 = .ok out ∧
          (f.describePicture p a place dec).2 =
            .ok { dec with place := some place, descriptor := some out }) := by
  intro r
  have temporal :
      (if f.switchesTemporal a = true then f.takeTemporal else f).current.temporal =
        f.temporalFor a := by
    rw [temporalFor]
    split <;> rfl
  have left : ∀ g : Forwarder, g = (if f.switchesTemporal a = true then f.takeTemporal else f) →
      g.numbering.highest = a.number ∧ g.lastSsrc = a.ssrc := by
    rintro g rfl
    split <;> exact ⟨hn, hf⟩
  unfold describePicture
  dsimp only
  rw [temporal, hs]
  generalize hg : (if f.switchesTemporal a = true then f.takeTemporal else f) = g at temporal left
  obtain ⟨highest, ssrc⟩ := left g rfl
  by_cases hx : d.Exceeds (f.temporalFor a)
  · rw [Vp8.PictureNumbering.describe_of_exceeds hd hx]
    refine ⟨⟨rfl, temporal, ?_, ssrc⟩, .inl ⟨hx, rfl⟩⟩
    dsimp only
    rw [Numbering.drop]
    split
    · rfl
    · exact highest
  · obtain ⟨out, hout⟩ := Vp8.PictureNumbering.describe_of_not_exceeds (n := p) hd hx
    rw [hout]
    exact ⟨⟨rfl, temporal, highest, ssrc⟩, .inr ⟨hx, out, rfl, rfl⟩⟩

/-- The next packet of a source is left out if its layer is too high, and otherwise sent with
the descriptor of its picture. -/
theorem forward_next {pics : Vp8.PictureNumbering} (hk : f.kind = .video) (h : f.Admits a layer)
    (hpics : f.picturesFor a = some pics) (hhead : a.head = true) (hm : a.carriesMedia = true)
    (hn : a.number = (f.numberingFor a).highest + 1) (hd : a.vp8 = some d) :
    let r := pics.describe a .contiguous (f.temporalFor a)
    f.Leaves a r.1 (f.forward a layer).1 ∧
      (d.Exceeds (f.temporalFor a) ∧ f.describedAs a layer = none ∧ ¬f.Forwards a layer ∨
        ¬d.Exceeds (f.temporalFor a) ∧ (∃ out, r.2 = .ok out ∧ f.describedAs a layer = some out) ∧
          f.Forwards a layer) := by
  intro r
  let g := (f.approachTarget a layer).1
  have same : g.behind = f.behind := behind_approachTarget f a layer
  have kind : g.kind = .video := (congrArg Behind.kind same).trans hk
  have met : (g.takeUp a).numbering = f.numberingFor a := by
    rw [← numberingFor_congr same, numbering_takeUp, numberingFor, ticksFor, kind]
  let n := (f.numberingFor a).advance a
  let p : Placement := { (f.numberingFor a).placeOf a with standing := .contiguous }
  have placed : (g.takeUp a).numbering.place a = (n, .ok p) := by
    rw [met]
    exact (if_pos hhead).trans (Numbering.placeHead_next hm hn)
  have pictures : (g.takeUp a).pictures = some pics := by
    rw [pictures_takeUp, picturesFor_congr same, hpics]
  let placer : Forwarder := { g.takeUp a with numbering := n }
  have forwarded : f.forward a layer = placer.describePicture pics a p
      { askKeyFrame := (f.approachTarget a layer).2 } :=
    (forward_admitted hk h).trans (placePacket_of_ok placed pictures)
  have ssrc : placer.lastSsrc = a.ssrc := lastSsrc_takeUp g a
  have temporal : placer.temporalFor a = f.temporalFor a := by
    obtain ⟨target, current⟩ := layers_takeUp g a
    refine temporalFor_congr (target.trans (target_approachTarget f a layer)) ?_
    exact (congrArg Layers.temporal current).trans (temporal_approachTarget f a layer)
  have highest : placer.numbering.highest = a.number := rfl
  clear_value placer
  have standing : p.standing = .contiguous := rfl
  obtain ⟨leaves, outcome⟩ := describePicture_next placer pics
    { askKeyFrame := (f.approachTarget a layer).2 } hd standing highest ssrc
  rw [← forwarded, temporal] at leaves outcome
  refine ⟨⟨leaves.pictures, leaves.temporal.trans temporal, leaves.highest, leaves.lastSsrc⟩, ?_⟩
  rcases outcome with ⟨hx, hr⟩ | ⟨hx, out, hout, hr⟩
  · refine .inl ⟨hx, by rw [describedAs, hr]; rfl, ?_⟩
    rintro ⟨dec, hdec, hdrop, -⟩
    rw [hr] at hdec
    cases hdec
    cases hdrop
  · exact .inr ⟨hx, ⟨out, hout, by rw [describedAs, hr]; rfl⟩, _, hr, rfl, rfl⟩

end Forwarder
end Simulcast
