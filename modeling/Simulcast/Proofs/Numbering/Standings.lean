import Simulcast.Proofs.Numbering.Position

/-!
# How the packets of a source stand

A numbering that is at a position of its source (`Numbering.Follows`) tells the standing of a
packet from its position: `Follows.head` for the newest packet, whether it is left out after all
or not, and `Follows.late` for one that comes late, which is placed within a hundred positions
only.
-/

namespace Simulcast.Numbering

/-- The numbering has come to the position `newest` of its source. -/
def Follows (n : Numbering) (newest : Int) : Prop :=
  ∃ leftOut awaited, n.At newest leftOut awaited ∧
    ∀ p, newest < p → leftOut p = leftOut (newest + 1)

variable {n : Numbering} {a : Arrival} {newest position : Int}

/-- A source is taken up just before its first packet. -/
theorem follows_of_empty (hn : n.highest = UInt16.ofInt newest) (hm : n.missing = .empty) :
    n.Follows newest :=
  ⟨fun _ => n.offset.toNat, [],
    { highest := hn, offset := (UInt16.ofNat_toNat).symm, missing := hm, sorted := .nil
      near := fun _ h => absurd h List.not_mem_nil },
    fun _ _ => rfl⟩

theorem standing_placeHead (hn : n.highest = UInt16.ofInt newest)
    (ha : a.number = UInt16.ofInt position) (hm : a.carriesMedia = true) (h1 : newest < position)
    (h2 : position < newest + 0x8000) :
    ∃ place, (n.placeHead a).2 = .ok place ∧
      place.standing = if position = newest + 1 then .contiguous else .gap := by
  have step : ((a.number - n.highest).toNat : Int) = position - newest := by
    rw [ha, hn]
    exact Serial.toNat_ofInt_sub (Int.le_of_lt h1) (by omega)
  by_cases next : position = newest + 1
  · have one : a.number - n.highest = 1 := by
      rw [← UInt16.toNat_inj]
      change _ = 1
      omega
    simp only [placeHead, one, show ¬(1 : UInt16) < 1 by decide, show (1 : UInt16) ≠ 0 by decide,
      if_false, hm, if_true, if_pos next]
    exact ⟨_, rfl, rfl⟩
  · have gap : 1 < a.number - n.highest := by
      rw [UInt16.lt_iff_toNat_lt]
      change 1 < _
      omega
    simp only [placeHead, gap, if_true, if_neg next]
    exact ⟨_, rfl, rfl⟩

/-- The newest packet follows directly or behind a gap, and the numbering with it. -/
theorem Follows.head (h : n.Follows newest) (ha : a.number = UInt16.ofInt position)
    (hm : a.carriesMedia = true) (h1 : newest < position) (h2 : position < newest + 0x8000) :
    (∃ place, (n.placeHead a).2 = .ok place ∧
      place.standing = if position = newest + 1 then .contiguous else .gap) ∧
      (n.placeHead a).1.Follows position ∧
      ((n.placeHead a).1.leaveOut a).Follows position := by
  obtain ⟨leftOut, awaited, stands, constant⟩ := h
  have behind : ∀ p, position < p → leftOut p = leftOut (position + 1) := fun p hp =>
    (constant p (by omega)).trans (constant (position + 1) (by omega)).symm
  obtain ⟨-, sent⟩ := stands.placeHead_sent ha h1 (by omega) (fun p hp _ => constant p hp) (.inr hm)
  have sent := sent leftOut (fun _ _ => rfl) (constant _ (by omega))
  refine ⟨standing_placeHead stands.highest ha hm h1 h2, ⟨leftOut, _, sent, behind⟩, ?_⟩
  let leftOut' := fun p => if p ≤ position then leftOut p else leftOut p + 1
  refine ⟨leftOut', _, sent.leaveOut ha (fun p hp => if_pos hp) (if_neg (by omega)), ?_⟩
  intro p hp
  simp only [leftOut']
  rw [if_neg (by omega), if_neg (by omega), behind p hp]

/-- A late packet is placed only if it is near, and leaves the numbering where it is. -/
theorem Follows.late (h : n.Follows newest) (ha : a.number = UInt16.ofInt position)
    (h1 : position ≤ newest) (h2 : newest ≤ position + 0x8000) :
    (n.placeLate a).1.Follows newest ∧
      ((n.placeLate a).2 = .error .lateSequence ∨
        newest ≤ position + 100 ∧
          ∃ place, (n.placeLate a).2 = .ok place ∧ place.standing = .late) := by
  obtain ⟨leftOut, awaited, stands, constant⟩ := h
  obtain ⟨placed, ok, -⟩ := stands.placeLate ha h1 (by omega)
  refine ⟨⟨leftOut, _, placed, constant⟩, ?_⟩
  unfold placeLate at ok ⊢
  split
  · exact .inl rfl
  · rename_i offset found
    rw [found] at ok
    have near := stands.near position (ok.1 rfl)
    exact .inr ⟨near.2, _, rfl, rfl⟩

end Simulcast.Numbering
