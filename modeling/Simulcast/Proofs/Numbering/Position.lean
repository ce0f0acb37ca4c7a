import Simulcast.Numbering
import Simulcast.Proofs.Serial
import Simulcast.Proofs.Backlog

/-!
# A numbering at a position of its source

A `Numbering` knows its source by numbers that wrap. `Numbering.At` says the same in
positions that do not: which one is the newest, how many packets were left out before
each, and which ones are awaited, in order. What each operation does to it:

* `At.placeLate`: a late packet is placed if and only if it is awaited, and is then
  awaited no longer;
* `At.placeHead_sent`, `At.placeHead_padding`: the newest packet makes the ones in
  between awaited, as far as the window reaches (`awaitedAfter`);
* `At.leaveOut`: to leave it out after all changes only how many are left out.
-/

namespace Simulcast.Numbering

/-- The positions lost between two that follow each other, as far as the window
reaches back from the second. -/
def lostBetween (newest position : Int) : List Int :=
  let count := min (position - newest - 1) 100
  (List.range count.toNat).map fun (i : Nat) => position - count + i

theorem mem_lostBetween {newest position p : Int} (h : newest < position) :
    p ∈ lostBetween newest position ↔ newest < p ∧ p < position ∧ position ≤ p + 100 := by
  simp only [lostBetween, List.mem_map, List.mem_range]
  constructor
  · rintro ⟨i, hi, rfl⟩
    omega
  · rintro ⟨h1, h2, h3⟩
    exact ⟨(p - (position - min (position - newest - 1) 100)).toNat, by omega, by omega⟩

theorem lostBetween_sorted (newest position : Int) :
    (lostBetween newest position).Pairwise (· < ·) := by
  refine List.Pairwise.map _ (fun i j hij => ?_) List.pairwise_lt_range
  omega

theorem lostBetween_succ (newest : Int) : lostBetween newest (newest + 1) = [] := by
  simp only [lostBetween, show min (newest + 1 - newest - 1) 100 = 0 by omega, Int.toNat_zero,
    List.range_zero, List.map_nil]

theorem lost_eq {n : Numbering} {newest position : Int} (hn : n.highest = UInt16.ofInt newest)
    (h : newest < position) (h' : position - newest < 0x8000) :
    n.lost (UInt16.ofInt position) = (lostBetween newest position).map UInt16.ofInt := by
  have gap : UInt16.ofInt position - n.highest - 1 = UInt16.ofInt (position - newest - 1) := by
    rw [hn, Serial.ofInt_sub, Serial.ofInt_sub, UInt16.ofInt_one]
  have hgap := Serial.toNat_ofInt (position - newest - 1)
  have count : min (UInt16.ofInt position - n.highest - 1) window =
      UInt16.ofInt (min (position - newest - 1) 100) := by
    have hw : window.toNat = 100 := rfl
    rw [gap]
    change (if UInt16.ofInt (position - newest - 1) ≤ window then _ else window) = _
    split
    · rename_i hle
      have := UInt16.le_iff_toNat_le.1 hle
      rw [show min (position - newest - 1) 100 = position - newest - 1 by omega]
    · rename_i hle
      have := mt UInt16.le_iff_toNat_le.2 hle
      rw [show min (position - newest - 1) 100 = 100 by omega]
      rfl
  have hcount := Serial.toNat_ofInt (min (position - newest - 1) 100)
  simp only [lost, count, lostBetween, List.map_map]
  rw [show (UInt16.ofInt (min (position - newest - 1) 100)).toNat =
    (min (position - newest - 1) 100).toNat by omega]
  refine List.map_congr_left fun i _ => ?_
  rw [Function.comp_apply, UInt16.ofInt_add, Serial.ofInt_sub, Serial.ofInt_natCast]

/-- The numbering has come to the position `newest` of its source, has left out so
many packets before each position, and awaits some lost ones. -/
structure At (n : Numbering) (newest : Int) (leftOut : Int → Nat) (awaited : List Int) : Prop where
  highest : n.highest = UInt16.ofInt newest
  offset : n.offset = UInt16.ofNat (leftOut (newest + 1))
  missing : n.missing =
    Backlog.tabulate UInt16.ofInt (fun p => UInt16.ofNat (leftOut p)) awaited
  sorted : awaited.Pairwise (· < ·)
  near : ∀ p ∈ awaited, p < newest ∧ newest ≤ p + 100

theorem At.start (a : Arrival) :
    (({} : Numbering).start a).At (a.number.toNat - 1) (fun _ => 0) [] where
  highest := by rw [Serial.ofInt_sub, Serial.ofInt_toNat, UInt16.ofInt_one]; rfl
  offset := rfl
  missing := rfl
  sorted := .nil
  near := by simp

/-- What is awaited after the packet at `position` has come. -/
def awaitedAfter (newest position : Int) (awaited : List Int) : List Int :=
  (awaited ++ lostBetween newest position).filter fun p => position ≤ p + 100

namespace At

variable {n : Numbering} {newest position : Int} {leftOut : Int → Nat} {awaited : List Int}
  {a : Arrival}

theorem place_number (h : n.At newest leftOut awaited) (ha : a.number = UInt16.ofInt position) :
    (n.placeOf a).number = UInt16.ofInt (position - leftOut (newest + 1)) := by
  rw [placeOf, ha, h.offset, Serial.ofInt_sub, Serial.ofInt_natCast]

theorem key_inj (h : n.At newest leftOut awaited) (h1 : position ≤ newest)
    (h2 : newest - position ≤ 0x8000) :
    ∀ q ∈ awaited, UInt16.ofInt q = UInt16.ofInt position → q = position := by
  intro q hq e
  have := h.near q hq
  exact (Serial.ofInt_inj_of_near (by omega) (by omega)).1 e

/-- A late packet that is awaited is placed by what was left out before it. -/
theorem placeLate_awaited (h : n.At newest leftOut awaited) (ha : a.number = UInt16.ofInt position)
    (h1 : position ≤ newest) (h2 : newest - position ≤ 0x8000) (hp : position ∈ awaited) :
    ∃ p : Placement, (n.placeLate a).2 = .ok p ∧
      p.number = UInt16.ofInt (position - leftOut position) ∧
      (n.placeLate a).1.At newest leftOut (awaited.erase position) := by
  have found := Backlog.find?_tabulate (fun p => UInt16.ofNat (leftOut p)) (h.key_inj h1 h2)
  rw [if_pos hp] at found
  simp only [placeLate, h.missing, ha, found]
  refine ⟨_, rfl, ?_, ?_⟩
  · rw [Serial.ofInt_sub, Serial.ofInt_natCast]
  · exact ⟨h.highest, h.offset, Backlog.erase_tabulate _ (h.key_inj h1 h2),
      h.sorted.sublist List.erase_sublist, fun p hp => h.near p (List.mem_of_mem_erase hp)⟩

/-- A late packet that is not awaited changes nothing. -/
theorem placeLate_other (h : n.At newest leftOut awaited) (ha : a.number = UInt16.ofInt position)
    (h1 : position ≤ newest) (h2 : newest - position ≤ 0x8000) (hp : position ∉ awaited) :
    n.placeLate a = (n, .error .lateSequence) := by
  have found := Backlog.find?_tabulate (fun p => UInt16.ofNat (leftOut p)) (h.key_inj h1 h2)
  rw [if_neg hp] at found
  simp only [placeLate, h.missing, ha, found]

/-- A late packet is placed if and only if it is awaited, by what was left out before
it, and is awaited no longer. -/
theorem placeLate (h : n.At newest leftOut awaited) (ha : a.number = UInt16.ofInt position)
    (h1 : position ≤ newest) (h2 : newest - position ≤ 0x8000) :
    (n.placeLate a).1.At newest leftOut (awaited.erase position) ∧
      ((n.placeLate a).2.isOk = true ↔ position ∈ awaited) ∧
      ∀ p, (n.placeLate a).2 = .ok p → p.number = UInt16.ofInt (position - leftOut position) := by
  by_cases hp : position ∈ awaited
  · obtain ⟨p, hok, hnum, hat⟩ := h.placeLate_awaited ha h1 h2 hp
    refine ⟨hat, ?_, fun q hq => ?_⟩
    · rw [hok]
      exact iff_of_true rfl hp
    · rw [hok] at hq
      cases hq
      exact hnum
  · rw [h.placeLate_other ha h1 h2 hp, List.erase_of_not_mem hp]
    exact ⟨h, iff_of_false (by simp [Except.isOk, Except.toBool]) hp, fun q hq => by cases hq⟩

/-! ## The newest packet -/

theorem step_toNat (h : n.At newest leftOut awaited) (ha : a.number = UInt16.ofInt position)
    (h1 : newest < position) (h2 : position - newest < 0x8000) :
    ((a.number - n.highest).toNat : Int) = position - newest := by
  rw [ha, h.highest]
  exact Serial.toNat_ofInt_sub (by omega) (by omega)

/-- The lost packets join those that are awaited. -/
theorem noteLost_missing (h : n.At newest leftOut awaited) (ha : a.number = UInt16.ofInt position)
    (h1 : newest < position) (h2 : position - newest < 0x8000)
    (hl : ∀ p, newest < p → p ≤ position → leftOut p = leftOut (newest + 1)) :
    (n.noteLost a).missing = Backlog.tabulate UInt16.ofInt (fun p => UInt16.ofNat (leftOut p))
      (awaited ++ lostBetween newest position) := by
  simp only [noteLost, h.missing, ha, lost_eq h.highest h1 h2]
  refine Backlog.insertEach_tabulate _ (fun p hp q hq e => ?_) fun q hq => ?_
  · have hp := h.near p hp
    have hq := (mem_lostBetween h1).1 hq
    have := (Serial.ofInt_inj_of_near (by omega) (by omega)).1 e
    omega
  · have hq := (mem_lostBetween h1).1 hq
    rw [hl q hq.1 (by omega), h.offset]

/-- With `position` the newest one, what is too far behind is forgotten. -/
theorem prune_missing {m : Numbering} (h : n.At newest leftOut awaited) (h1 : newest < position)
    (h2 : position - newest < 0x8000) (hm : m.highest = UInt16.ofInt position)
    (hmm : m.missing = Backlog.tabulate UInt16.ofInt (fun p => UInt16.ofNat (leftOut p))
      (awaited ++ lostBetween newest position)) :
    m.prune.missing = Backlog.tabulate UInt16.ofInt (fun p => UInt16.ofNat (leftOut p))
      (awaitedAfter newest position awaited) := by
  simp only [prune, hmm, awaitedAfter]
  have near : ∀ p ∈ awaited ++ lostBetween newest position, p < position ∧ position < p + 0x10000 := by
    intro p hp
    rcases List.mem_append.1 hp with hp | hp
    · have := h.near p hp
      omega
    · have := (mem_lostBetween h1).1 hp
      omega
  refine Backlog.dropOldestWhile_tabulate _ (fun p hp => ?_) ?_
  · obtain ⟨hp1, hp2⟩ := near p hp
    have hd := Serial.toNat_ofInt_sub (show p ≤ position by omega) (by omega)
    have hw : window < m.highest - UInt16.ofInt p ↔ ¬position ≤ p + 100 := by
      have hw : window.toNat = 100 := rfl
      rw [hm, UInt16.lt_iff_toNat_lt]
      omega
    rw [decide_eq_decide.2 hw, decide_not]
  · have sorted : (awaited ++ lostBetween newest position).Pairwise (· < ·) := by
      refine List.pairwise_append.2 ⟨h.sorted, lostBetween_sorted _ _, fun p hp q hq => ?_⟩
      have := h.near p hp
      have := (mem_lostBetween h1).1 hq
      omega
    exact sorted.imp fun hab ha => by simp only [decide_eq_true_eq] at ha ⊢; omega

theorem mem_awaitedAfter (h1 : newest < position) {p : Int} :
    p ∈ awaitedAfter newest position awaited ↔
      position ≤ p + 100 ∧ (p ∈ awaited ∨ newest < p ∧ p < position) := by
  simp only [awaitedAfter, List.mem_filter, List.mem_append, mem_lostBetween h1, decide_eq_true_eq]
  constructor
  · rintro ⟨hp | hp, h⟩
    · exact ⟨h, .inl hp⟩
    · exact ⟨h, .inr ⟨hp.1, hp.2.1⟩⟩
  · rintro ⟨h, hp | hp⟩
    · exact ⟨.inl hp, h⟩
    · exact ⟨.inr ⟨hp.1, hp.2, h⟩, h⟩

/-- The numbering stands at `position` once its newest number, its offset and its
backlog do. -/
theorem advance_to {m : Numbering} {leftOut' : Int → Nat} (h : n.At newest leftOut awaited)
    (h1 : newest < position) (hh : m.highest = UInt16.ofInt position)
    (ho : m.offset = UInt16.ofNat (leftOut' (position + 1)))
    (hm : m.missing = Backlog.tabulate UInt16.ofInt (fun p => UInt16.ofNat (leftOut p))
      (awaitedAfter newest position awaited))
    (hl : ∀ p ≤ position, leftOut' p = leftOut p) :
    m.At position leftOut' (awaitedAfter newest position awaited) where
  highest := hh
  offset := ho
  missing := by
    rw [hm]
    refine Backlog.tabulate_congr fun p hp => ?_
    have := (mem_awaitedAfter h1).1 hp
    rcases this with ⟨-, hp | hp⟩
    · have := h.near p hp
      rw [hl p (by omega)]
    · rw [hl p (by omega)]
  sorted := by
    refine List.Pairwise.filter _ (List.pairwise_append.2 ⟨h.sorted, lostBetween_sorted _ _, ?_⟩)
    intro p hp q hq
    have := h.near p hp
    have := (mem_lostBetween h1).1 hq
    omega
  near p hp := by
    obtain ⟨h3, hp | hp⟩ := (mem_awaitedAfter h1).1 hp
    · have := h.near p hp
      omega
    · omega

/-- A packet of its own source that is sent: what the numbering is then, but for the
last place. -/
theorem placeHead_sent (h : n.At newest leftOut awaited) (ha : a.number = UInt16.ofInt position)
    (h1 : newest < position) (h2 : position - newest < 0x8000)
    (hl : ∀ p, newest < p → p ≤ position → leftOut p = leftOut (newest + 1))
    (hs : newest + 1 < position ∨ a.carriesMedia = true) :
    (∃ p : Placement, (n.placeHead a).2 = .ok p ∧
      p.number = UInt16.ofInt (position - leftOut (newest + 1))) ∧
    ∀ leftOut' : Int → Nat, (∀ p ≤ position, leftOut' p = leftOut p) →
      leftOut' (position + 1) = leftOut (newest + 1) →
      (n.placeHead a).1.At position leftOut' (awaitedAfter newest position awaited) := by
  have step := h.step_toNat ha h1 h2
  have number := h.place_number ha
  by_cases hg : newest + 1 < position
  · have gap : 1 < a.number - n.highest := by
      rw [UInt16.lt_iff_toNat_lt]
      change 1 < _
      omega
    simp only [placeHead, gap, if_true]
    refine ⟨⟨_, rfl, number⟩, fun leftOut' hle hnew => ?_⟩
    refine h.advance_to h1 ha ?_ ?_ hle
    · exact h.offset.trans (by rw [hnew])
    · exact h.prune_missing h1 h2 ha (h.noteLost_missing ha h1 h2 hl)
  · obtain rfl : position = newest + 1 := by omega
    have next : a.number - n.highest = 1 := by
      rw [← UInt16.toNat_inj]
      change _ = 1
      omega
    simp only [placeHead, next, show ¬(1 : UInt16) < 1 by decide, show (1 : UInt16) ≠ 0 by decide,
      if_false, hs.resolve_left hg, if_true]
    refine ⟨⟨_, rfl, number⟩, fun leftOut' hle hnew => ?_⟩
    refine h.advance_to h1 ha ?_ ?_ hle
    · exact h.offset.trans (by rw [hnew])
    · exact h.prune_missing h1 h2 ha (by rw [lostBetween_succ, List.append_nil]; exact h.missing)

/-- A packet without media that follows directly is absorbed. -/
theorem placeHead_padding (h : n.At newest leftOut awaited)
    (ha : a.number = UInt16.ofInt (newest + 1)) (hs : a.carriesMedia = false) :
    (n.placeHead a).2 = .error .paddingOnly ∧
    ∀ leftOut' : Int → Nat, (∀ p ≤ newest + 1, leftOut' p = leftOut p) →
      leftOut' (newest + 1 + 1) = leftOut (newest + 1) + 1 →
      (n.placeHead a).1.At (newest + 1) leftOut' (awaitedAfter newest (newest + 1) awaited) := by
  have h1 : newest < newest + 1 := by omega
  have step := h.step_toNat ha h1 (by omega)
  have next : a.number - n.highest = 1 := by
    rw [← UInt16.toNat_inj]
    change _ = 1
    omega
  simp only [placeHead, next, show ¬(1 : UInt16) < 1 by decide, show (1 : UInt16) ≠ 0 by decide,
    if_false, hs, Bool.false_eq_true, true_and]
  intro leftOut' hle hnew
  refine h.advance_to h1 ha ?_ ?_ hle
  · rw [hnew, UInt16.ofNat_add, ← h.offset]
    rfl
  · exact h.prune_missing h1 (by omega) ha (by rw [lostBetween_succ, List.append_nil]; exact h.missing)

/-- To leave the newest packet out after it was placed counts one more. -/
theorem leaveOut {leftOut' : Int → Nat} (h : n.At newest leftOut awaited)
    (ha : a.number = UInt16.ofInt newest) (hle : ∀ p ≤ newest, leftOut' p = leftOut p)
    (hnew : leftOut' (newest + 1) = leftOut (newest + 1) + 1) :
    (n.leaveOut a).At newest leftOut' awaited where
  highest := ha
  offset := by
    rw [hnew, UInt16.ofNat_add, ← h.offset]
    rfl
  missing := by
    have kept : ∀ p ∈ awaited, (window < a.number - UInt16.ofInt p : Bool) = !true := by
      intro p hp
      have hp := h.near p hp
      have hd := Serial.toNat_ofInt_sub (show p ≤ newest by omega) (by omega)
      have hw : ¬window < a.number - UInt16.ofInt p := by
        have hw : window.toNat = 100 := rfl
        rw [ha, UInt16.lt_iff_toNat_lt]
        omega
      simp [hw]
    simp only [Numbering.leaveOut, prune, h.missing]
    rw [Backlog.dropOldestWhile_tabulate _ kept (h.sorted.imp fun _ h => h),
      List.filter_eq_self.2 fun _ _ => rfl]
    refine Backlog.tabulate_congr fun p hp => ?_
    have := h.near p hp
    rw [hle p (by omega)]
  sorted := h.sorted
  near := h.near

end At
end Simulcast.Numbering
