import Simulcast.Intake.Basic
import Simulcast.Proofs.Forwarding.Temporal

/-!
# Packets renumbered together with their pictures

A packet is placed by the numbering of its stream, and described by the numbering of the
pictures as it stands to the packets before it. If it is filtered out, it gives its place back
(`Renumbering.pass`). That is what a forwarder does with a packet that it admits
(`forward_pass`).

`record` writes down what came of the packets of a source, whichever of them come in and in
whatever order. What is said about a packet is said by those before it (`History`).
-/

namespace Simulcast

open Vp8

/-- The numbering of packets and that of their pictures. -/
structure Renumbering where
  packets : Numbering
  pictures : PictureNumbering

namespace Renumbering

/-- Whether a packet was left out for its temporal layer. -/
def isFiltered : Except Fault Descriptor → Bool
  | .error .filteredTemporalLayer => true
  | _ => false

/-- Puts a packet through both numberings: the standing that it is given, and what came of
it. -/
def pass (r : Renumbering) (a : Arrival) (maxTemporal : Int) :
    Renumbering × Option Standing × Except Fault Descriptor :=
  let (packets, placed) := r.packets.place a
  match placed with
  | .error e => ({ r with packets }, none, .error e)
  | .ok place =>
    let (pictures, result) := r.pictures.describe a place.standing maxTemporal
    ({ packets := if isFiltered result then packets.drop a else packets, pictures },
      some place.standing, result)

/-- A packet that was put through. -/
structure Passage where
  /-- Its position in the source. -/
  position : Int
  descriptor : Option Descriptor
  /-- The number of its picture by the clock. -/
  number : Int32
  /-- How it stands to the packets before it, if it was placed. -/
  standing : Option Standing
  result : Except Fault Descriptor

namespace Passage

/-- The packet was left out for its temporal layer. -/
def filtered (e : Passage) : Bool := isFiltered e.result

/-- The picture id that the packet was sent with, if it was. -/
def sentId (e : Passage) : Option UInt16 := e.result.toOption.map Descriptor.pictureId

theorem sentId_eq_some {e : Passage} {id : UInt16} :
    e.sentId = some id ↔ ∃ out, e.result = .ok out ∧ out.pictureId = id := by
  rw [sentId, Option.map_eq_some_iff]
  cases e.result <;> simp [Except.toOption]

/-- The packet names a higher temporal layer than is wanted. -/
def Exceeds (e : Passage) (maxTemporal : Int) : Prop :=
  (e.descriptor.getD {}).Exceeds maxTemporal

instance (e : Passage) (maxTemporal : Int) : Decidable (e.Exceeds maxTemporal) :=
  inferInstanceAs (Decidable (Descriptor.Exceeds _ _))

/-- The packet follows directly, in a higher temporal layer than is wanted. -/
def IsOut (e : Passage) (maxTemporal : Int) : Prop :=
  e.standing = some .contiguous ∧ e.Exceeds maxTemporal

instance (e : Passage) (maxTemporal : Int) : Decidable (e.IsOut maxTemporal) :=
  inferInstanceAs (Decidable (_ ∧ _))

end Passage

/-- The number of the picture of a packet by the clock. -/
def numberOf (n : PictureNumbering) (a : Arrival) : Int32 :=
  let d := a.vp8.getD {}
  n.clock.unwrap d.pictureId d.longPictureId

/-- A renumbering at work on the packets of a source. -/
structure Course where
  numberings : Renumbering
  /-- The newest number so far. -/
  newest : Option UInt16 := none
  /-- The packets that came in, the last one first. -/
  passages : List Passage := []

namespace Course

variable (packet : Int → Arrival) (maxTemporal : Int)

/-- The packet at a position, with the word of the intake on whether it is the newest one. -/
def arrival (c : Course) (position : Int) : Arrival :=
  { packet position with head := Intake.isHead c.newest (packet position).number }

/-- What comes of the packet at a position. -/
def passage (c : Course) (position : Int) : Passage :=
  let a := c.arrival packet position
  let (_, standing, result) := c.numberings.pass a maxTemporal
  { position, descriptor := a.vp8, number := numberOf c.numberings.pictures a, standing, result }

/-- Puts the packet at a position through. -/
def take (c : Course) (position : Int) : Course :=
  let a := c.arrival packet position
  { numberings := (c.numberings.pass a maxTemporal).1
    newest := if a.head then some a.number else c.newest
    passages := c.passage packet maxTemporal position :: c.passages }

/-- Puts the packets at some positions through in turn. -/
def takeAll (c : Course) (positions : List Int) : Course :=
  positions.foldl (take packet maxTemporal) c

end Course

/-- What came of the packets at some positions, the last one first. -/
def record (r : Renumbering) (packet : Int → Arrival) (maxTemporal : Int)
    (positions : List Int) : List Passage :=
  (Course.takeAll packet maxTemporal { numberings := r } positions).passages

/-- Every passage fits the ones before it. -/
def History (Fits : Passage → List Passage → Prop) (es : List Passage) : Prop :=
  ∀ newer e older, es = newer ++ e :: older → Fits e older

theorem History.nil {Fits : Passage → List Passage → Prop} : History Fits [] :=
  fun newer e older h => by cases newer <;> cases h

theorem History.cons {Fits : Passage → List Passage → Prop} {e : Passage} {es : List Passage}
    (h : History Fits es) (he : Fits e es) : History Fits (e :: es)
  | [], e', older, hs => by
    obtain ⟨rfl, rfl⟩ := List.cons.inj hs
    exact he
  | _ :: newer, e', older, hs => h newer e' older (List.cons.inj hs).2

variable {r : Renumbering} {a : Arrival} {d : Descriptor} {maxTemporal : Int}
  {packet : Int → Arrival} {position : Int} {c : Course}

theorem position_takeAll (c : Course) (positions : List Int) :
    (c.takeAll packet maxTemporal positions).passages.map Passage.position =
      positions.reverse ++ c.passages.map Passage.position := by
  induction positions generalizing c with
  | nil => rfl
  | cons p ps ih =>
    rw [Course.takeAll, List.foldl_cons]
    refine (ih (c.take packet maxTemporal p)).trans ?_
    rw [List.reverse_cons, List.append_assoc]
    rfl

theorem position_record (r : Renumbering) (positions : List Int) :
    (r.record packet maxTemporal positions).map Passage.position = positions.reverse :=
  (position_takeAll _ positions).trans (List.append_nil _)

/-! ## One packet -/

theorem pass_of_error (maxTemporal : Int) {packets : Numbering} {e : Fault}
    (h : r.packets.place a = (packets, .error e)) :
    r.pass a maxTemporal = ({ r with packets }, none, .error e) := by
  simp only [pass, h]

theorem pass_of_ok (maxTemporal : Int) {packets : Numbering} {place : Placement}
    (h : r.packets.place a = (packets, .ok place)) :
    r.pass a maxTemporal =
      let (pictures, result) := r.pictures.describe a place.standing maxTemporal
      ({ packets := if isFiltered result then packets.drop a else packets, pictures },
        some place.standing, result) := by
  simp only [pass, h]

/-- What comes of a packet that is placed. -/
theorem Course.take_of_ok (maxTemporal : Int) {packets : Numbering} {place : Placement}
    (h : c.numberings.packets.place (c.arrival packet position) = (packets, .ok place)) :
    let a := c.arrival packet position
    let e := c.passage packet maxTemporal position
    let r := c.numberings.pictures.describe a place.standing maxTemporal
    let c' := c.take packet maxTemporal position
    e.standing = some place.standing ∧ e.result = r.2 ∧ c'.numberings.pictures = r.1 ∧
      c'.numberings.packets = if isFiltered r.2 then packets.drop a else packets := by
  have passed := pass_of_ok maxTemporal h
  exact ⟨congrArg (fun x => x.2.1) passed, congrArg (fun x => x.2.2) passed,
    congrArg (fun x => x.1.pictures) passed, congrArg (fun x => x.1.packets) passed⟩

/-- What comes of a packet that is not. -/
theorem Course.take_of_error (maxTemporal : Int) {packets : Numbering} {fault : Fault}
    (h : c.numberings.packets.place (c.arrival packet position) = (packets, .error fault)) :
    let e := c.passage packet maxTemporal position
    let c' := c.take packet maxTemporal position
    e.standing = none ∧ e.result = .error fault ∧
      c'.numberings.pictures = c.numberings.pictures ∧ c'.numberings.packets = packets := by
  have passed := pass_of_error maxTemporal h
  exact ⟨congrArg (fun x => x.2.1) passed, congrArg (fun x => x.2.2) passed,
    congrArg (fun x => x.1.pictures) passed, congrArg (fun x => x.1.packets) passed⟩

end Renumbering

namespace Forwarder

variable {f : Forwarder} {a : Arrival} {layer : Int} {n : PictureNumbering}

theorem describePicture_pass {place : Placement} (askKeyFrame : Bool) :
    let r := n.describe a place.standing (f.temporalFor a)
    let x := f.describePicture n a place { askKeyFrame }
    x.1.numbering = (if Renumbering.isFiltered r.2 then f.numbering.drop a else f.numbering) ∧
      x.1.pictures = some r.1 ∧
      (match x.2 with
        | .ok d => if d.drop then none else d.descriptor
        | .error _ => none) = r.2.toOption := by
  have temporal :
      (if f.switchesTemporal a = true then f.takeTemporal else f).current.temporal =
        f.temporalFor a := by
    rw [temporalFor]
    split <;> rfl
  have numbering :
      (if f.switchesTemporal a = true then f.takeTemporal else f).numbering = f.numbering := by
    split <;> rfl
  unfold describePicture
  dsimp only
  rw [temporal]
  generalize (if f.switchesTemporal a = true then f.takeTemporal else f) = g at numbering ⊢
  rw [← numbering]
  cases (n.describe a place.standing (f.temporalFor a)).2 with
  | ok d => exact ⟨rfl, rfl, rfl⟩
  | error e => cases e <;> exact ⟨rfl, rfl, rfl⟩

theorem placePacket_pass (hn : (f.takeUp a).pictures = some n)
    (ht : (f.takeUp a).temporalFor a = f.temporalFor a) (askKeyFrame : Bool) :
    let r := (⟨(f.takeUp a).numbering, n⟩ : Renumbering).pass a (f.temporalFor a)
    let x := f.placePacket a { askKeyFrame }
    x.1.numbering = r.1.packets ∧ x.1.pictures = some r.1.pictures ∧
      (match x.2 with
        | .ok d => if d.drop then none else d.descriptor
        | .error _ => none) = r.2.2.toOption := by
  intro r x
  obtain ⟨⟨numbering, result⟩, placed⟩ : ∃ y, (f.takeUp a).numbering.place a = y := ⟨_, rfl⟩
  cases result with
  | error e =>
    have passed : r = _ := Renumbering.pass_of_error _ placed
    have left : x = _ := placePacket_of_error placed
    rw [passed, left]
    refine ⟨rfl, hn, ?_⟩
    unfold leaveOutOr
    cases e.isTransient <;> rfl
  | ok place =>
    have passed : r = _ := Renumbering.pass_of_ok _ placed
    have described : x = _ := placePacket_of_ok placed hn
    rw [passed, described, ← ht]
    exact describePicture_pass (f := { f.takeUp a with numbering }) askKeyFrame

/-- What a forwarder does with a packet that it admits. -/
theorem forward_pass (hk : f.kind = .video) (h : f.Admits a layer)
    (hn : f.picturesFor a = some n) :
    let r := (⟨f.numberingFor a, n⟩ : Renumbering).pass a (f.temporalFor a)
    (f.forward a layer).1.numbering = r.1.packets ∧
      (f.forward a layer).1.pictures = some r.1.pictures ∧
      f.describedAs a layer = r.2.2.toOption := by
  have same := behind_approachTarget f a layer
  have target := target_approachTarget f a layer
  have current := temporal_approachTarget f a layer
  have forwarded := forward_admitted hk h
  generalize (f.approachTarget a layer).1 = g at same target current forwarded
  have kind : g.kind = .video := (congrArg Behind.kind same).trans hk
  have met : f.numberingFor a = (g.takeUp a).numbering := by
    rw [← numberingFor_congr same, numbering_takeUp, numberingFor, ticksFor, kind]
  have pictures : (g.takeUp a).pictures = some n := by
    rw [pictures_takeUp, picturesFor_congr same, hn]
  have temporal : g.temporalFor a = f.temporalFor a := temporalFor_congr target current
  obtain ⟨target', current'⟩ := layers_takeUp g a
  rw [describedAs, forwarded, met, ← temporal]
  exact placePacket_pass pictures
    (temporalFor_congr target' (congrArg Layers.temporal current')) _

end Forwarder
end Simulcast
