import Simulcast.Proofs.Forwarding.Behind

/-!
# Drift

A subscriber sees no hole as long as the next number given out is the successor of the
last one sent. `Drift` follows how far a numbering is from that, by what happens to it:
packets of a source are sent or filtered out, sources change, and packets of the relay's
own are added.

A packet that is filtered out gives its number back to the source, but not to the two
that go on behind the last number given out: so a generated packet would then skip one
number, and a change of the source makes up for it for good.

`Stands` ties a drift to a numbering and to the numbers sent so far; each happening
keeps it (`Stands.sent`, `Stands.filtered`, `Stands.absorbed`, `Stands.generated`, and
`Stands.resourced` for a source).
-/

namespace Simulcast

/-- What happens to the numbers of a stream. -/
inductive Happening where
  /-- A packet of the source is sent. -/
  | sent
  /-- A packet of the source that has media is not sent. -/
  | filtered
  /-- The source changes. -/
  | resourced
  /-- A source is taken up as the first one, so many numbers beyond where the source
  before it stopped. -/
  | restarted (jump : UInt16)
  /-- Packets of the relay's own are sent. -/
  | generated
  deriving DecidableEq, Repr

/-- How far the numbers are from going on without a hole. -/
inductive Drift where
  /-- Nothing was sent so far. -/
  | fresh
  /-- The next packet of the source skips `source` numbers, and one that is generated
  skips `ahead` more. -/
  | held (source ahead : UInt16)
  /-- Two numbers that were sent in turn do not follow each other. -/
  | broken
  deriving DecidableEq, Repr

namespace Drift

/-- The drift after a happening. -/
def next : Drift → Happening → Drift
  | fresh, .sent => held 0 0
  | fresh, _ => fresh
  | held source _, .sent => if source = 0 then held 0 0 else broken
  | held source _, .filtered => held source 1
  | held source ahead, .resourced => held (source + ahead) 0
  | held source _, .restarted jump => held (source + jump) 0
  | held source ahead, .generated => if source + ahead = 0 then held source ahead else broken
  | broken, _ => broken

/-- The drift after some happenings. -/
def nextAll (d : Drift) (hs : List Happening) : Drift := hs.foldl next d

theorem nextAll_append (d : Drift) (hs hs' : List Happening) :
    d.nextAll (hs ++ hs') = (d.nextAll hs).nextAll hs' := List.foldl_append

/-- The numbers sent follow each other so far, and the newest packet of the source stands
so far beyond the last one. -/
def Reaches (d : Drift) (n : Numbering) (numbers : List UInt16) : Prop :=
  match d with
  | fresh => numbers = []
  | held source _ =>
    Consecutive numbers ∧ ∃ l, numbers.getLast? = some l ∧ n.reach = l + source
  | broken => ¬Consecutive numbers

/-- The drift is the one of the numbering. -/
def Stands (d : Drift) (n : Numbering) (numbers : List UInt16) : Prop :=
  d.Reaches n numbers ∧ ∀ source ahead, d = held source ahead → n.last.number = n.reach + ahead

variable {d : Drift} {n : Numbering} {numbers : List UInt16} {a : Arrival}

/-- Nothing is sent if and only if nothing was. -/
theorem Stands.fresh_iff (h : d.Stands n numbers) : d = fresh ↔ numbers = [] := by
  obtain ⟨h, -⟩ := h
  cases d with
  | fresh => exact iff_of_true rfl h
  | held =>
    obtain ⟨-, l, hl, -⟩ := h
    refine iff_of_false Drift.noConfusion fun he => ?_
    rw [he] at hl
    cases hl
  | broken => exact iff_of_false Drift.noConfusion fun he => h (he ▸ List.isChain_nil)

/-- The numbers follow each other as long as the drift is not broken. -/
theorem Stands.consecutive_iff (h : d.Stands n numbers) : Consecutive numbers ↔ d ≠ broken := by
  obtain ⟨h, -⟩ := h
  cases d with
  | fresh =>
    obtain rfl : numbers = [] := h
    exact iff_of_true List.isChain_nil Drift.noConfusion
  | held => exact iff_of_true h.1 Drift.noConfusion
  | broken => exact iff_of_false h (not_not_intro rfl)

/-- With the last number given out where the source stands, no packet is ahead. -/
theorem stands_of_reaches {source : UInt16} (h : (held source 0).Reaches n numbers)
    (hl : n.last.number = n.reach) : (held source 0).Stands n numbers :=
  ⟨h, fun _ _ he => by cases he; rw [hl, UInt16.add_zero]⟩

/-- Before the first packet, and once the numbers are broken, no packet is ahead. -/
theorem stands_fresh (h : numbers = []) : fresh.Stands n numbers :=
  ⟨h, fun _ _ he => Drift.noConfusion he⟩

theorem stands_broken (h : ¬Consecutive numbers) : broken.Stands n numbers :=
  ⟨h, fun _ _ he => Drift.noConfusion he⟩

/-- The numbering as it stands tells where it reaches. -/
theorem Reaches.congr {n' : Numbering} (h : d.Reaches n numbers) (hr : n'.reach = n.reach) :
    d.Reaches n' numbers := by
  cases d with
  | fresh => exact h
  | held =>
    obtain ⟨hc, l, hl, hreach⟩ := h
    exact ⟨hc, l, hl, hr.trans hreach⟩
  | broken => exact h

/-! ## Packets of the source -/

/-- A packet is sent: it takes the next number of the source. -/
theorem Reaches.sent {p : Placement} (h : d.Reaches n numbers) (hm : a.carriesMedia = true)
    (hn : a.number ≠ n.highest) (hp : (n.placeHead a).2 = .ok p)
    (hnext : d ≠ fresh → a.number = n.highest + 1) :
    (d.next .sent).Stands (n.placeHead a).1 (numbers ++ [p.number]) := by
  obtain ⟨p', hp', hnum, -, -, hreach, hlast⟩ := Numbering.placeHead_media hm hn
  obtain rfl : p = p' := Except.ok.inj (hp.symm.trans hp')
  cases d with
  | fresh =>
    obtain rfl : numbers = [] := h
    refine stands_of_reaches ⟨List.isChain_singleton _, p.number, rfl, ?_⟩ (hlast.trans hreach.symm)
    rw [hreach, hnum, UInt16.add_zero]
  | held source ahead =>
    obtain ⟨hc, l, hl, hr⟩ := h
    have number : p.number = l + source + 1 := by
      have := hnext Drift.noConfusion
      simp only [Numbering.reach] at hr
      grind
    have goesOn : Consecutive (numbers ++ [p.number]) ↔ Consecutive numbers ∧ p.number = l + 1 :=
      consecutive_append_iff hl rfl (List.isChain_singleton _)
    by_cases hs : source = 0
    · subst hs
      rw [next, if_pos rfl]
      refine stands_of_reaches ⟨goesOn.2 ⟨hc, ?_⟩, p.number, List.getLast?_concat, ?_⟩
        (hlast.trans hreach.symm)
      · rw [number, UInt16.add_zero]
      · rw [hreach, hnum, UInt16.add_zero]
    · rw [next, if_neg hs]
      refine stands_broken fun hc' => hs ?_
      have := (goesOn.1 hc').2
      grind
  | broken => exact stands_broken (mt List.IsChain.left_of_append h)

/-- A packet is filtered out: the source gets its number back. -/
theorem Reaches.filtered (h : d.Reaches n numbers) (hm : a.carriesMedia = true)
    (hn : a.number ≠ n.highest) (hnext : d ≠ fresh → a.number = n.highest + 1) :
    (d.next .filtered).Stands ((n.placeHead a).1.leaveOut a) numbers := by
  obtain ⟨p, -, -, -, -, hreach, hlast⟩ := Numbering.placeHead_media hm hn
  cases d with
  | fresh => exact stands_fresh h
  | held source ahead =>
    have number := hnext Drift.noConfusion
    have offset : (n.placeHead a).1.offset = n.offset := by
      have := Numbering.placeHead_media hm hn
      grind [Numbering.reach]
    have back : ((n.placeHead a).1.leaveOut a).reach = n.reach := by
      rw [Numbering.reach_leaveOut.1, offset, Numbering.reach, number]
      grind
    refine ⟨h.congr back, fun _ _ he => ?_⟩
    cases he
    rw [back, Numbering.reach_leaveOut.2.2, hlast, Numbering.reach, number]
    grind
  | broken => exact stands_broken h

/-- A packet without media is absorbed: nothing changes. -/
theorem Stands.absorbed (h : d.Stands n numbers) (hn : a.number = n.highest + 1) :
    d.Stands (n.leaveOut a) numbers := by
  have same : (n.leaveOut a).reach = n.reach := by
    rw [Numbering.reach_leaveOut.1, Numbering.reach, hn]
    grind
  refine ⟨h.1.congr same, fun source ahead he => ?_⟩
  rw [Numbering.reach_leaveOut.2.2, same]
  exact h.2 source ahead he

/-- Whatever becomes of the newest packet of the source, the drift follows it. -/
theorem Reaches.outcome {n' : Numbering} {r : Except Fault Decision} (h : d.Reaches n numbers)
    (ho : PacketOutcome n a n' r) (hnext : d ≠ fresh → a.number = n.highest + 1)
    (hpad : a.carriesMedia = false → d.Stands n numbers) :
    ∃ out, r = .ok out ∧
      ((∃ p, out.drop = false ∧ out.place = some p ∧ a.carriesMedia = true ∧ out.Writable a ∧
          (d.next .sent).Stands n' (numbers ++ [p.number])) ∨
        out.drop = true ∧
          (d.nextAll (if a.carriesMedia = true then [.filtered] else [])).Stands n' numbers) := by
  cases ho with
  | sent out p hm hn hp hd place hw =>
    exact ⟨out, rfl, .inl ⟨p, hd, place, hm, hw, h.sent hm hn hp hnext⟩⟩
  | filtered out hm hn hd =>
    rw [if_pos hm]
    exact ⟨out, rfl, .inr ⟨hd, h.filtered hm hn hnext⟩⟩
  | absorbed out hm hn hd =>
    rw [if_neg (Bool.eq_false_iff.1 hm)]
    exact ⟨out, rfl, .inr ⟨hd, (hpad hm).absorbed hn⟩⟩
  | repeated out hm hn hd =>
    rw [if_pos hm]
    refine ⟨out, rfl, .inr ⟨hd, ?_⟩⟩
    have first : d = fresh := by
      refine of_not_not fun hne => ?_
      have := hnext hne
      grind
    subst first
    exact stands_fresh h

/-! ## Packets of the relay's own -/

/-- Packets are generated: they go on behind the last number given out. -/
theorem Stands.generated {n' : Numbering} {count : Nat} (h : d.Stands n numbers) (hd : d ≠ fresh)
    (hc : 0 < count) (hreach : n'.reach = n.reach + UInt16.ofNat count)
    (hlast : n'.last.number = n.last.number + UInt16.ofNat count) :
    (d.next .generated).Stands n' (numbers ++ numbersAfter n.last.number count) := by
  cases d with
  | fresh => exact absurd rfl hd
  | held source ahead =>
    obtain ⟨⟨hchain, l, hl, hr⟩, hahead⟩ := h
    have last := hahead source ahead rfl
    have goesOn : Consecutive (numbers ++ numbersAfter n.last.number count) ↔
        Consecutive numbers ∧ n.last.number + 1 = l + 1 :=
      consecutive_append_iff hl (head?_numbersAfter hc) (consecutive_numbersAfter _ count)
    by_cases hs : source + ahead = 0
    · rw [next, if_pos hs]
      refine ⟨⟨goesOn.2 ⟨hchain, ?_⟩, n.last.number + UInt16.ofNat count, ?_, ?_⟩, fun _ _ he => ?_⟩
      · grind
      · rw [List.getLast?_append, getLast?_numbersAfter hc]
        rfl
      · grind
      · cases he
        grind
    · rw [next, if_neg hs]
      refine stands_broken fun hc' => hs ?_
      have := (goesOn.1 hc').2
      grind
  | broken => exact stands_broken (mt List.IsChain.left_of_append h.1)

/-! ## Sources -/

/-- The source changes: it goes on behind the last number given out. -/
theorem Stands.resourced (h : d.Stands n numbers) (ticks : UInt32) :
    (d.next .resourced).Reaches (n.changeSource a 1 ticks) numbers := by
  cases d with
  | fresh => exact h.1
  | held source ahead =>
    obtain ⟨⟨hchain, l, hl, hr⟩, hahead⟩ := h
    refine ⟨hchain, l, hl, ?_⟩
    rw [Numbering.reach_changeSource, hahead source ahead rfl, hr]
    exact UInt16.add_assoc l source ahead
  | broken => exact h.1

/-- A source is taken up as the first one: it keeps its own numbers. -/
theorem Stands.restarted (h : d.Stands n numbers) :
    (d.next (.restarted (a.number - 1 - n.highest))).Reaches (n.start a) numbers := by
  cases d with
  | fresh => exact h.1
  | held source ahead =>
    obtain ⟨⟨hchain, l, hl, hr⟩, hahead⟩ := h
    refine ⟨hchain, l, hl, ?_⟩
    rw [Numbering.reach_start]
    simp only [Numbering.reach] at hr
    grind
  | broken => exact h.1

/-! ## Steady streams -/

/-- Neither another source nor packets of the relay's own come while the last packet of
the source was filtered out, and every source has an identifier of its own. -/
def Steady (pending : Bool) : List Happening → Prop
  | [] => True
  | .sent :: hs => Steady false hs
  | .filtered :: hs => Steady true hs
  | .resourced :: hs => pending = false ∧ Steady false hs
  | .generated :: hs => pending = false ∧ Steady false hs
  | .restarted _ :: _ => False

/-- A steady stream has no hole and repeats no number. -/
theorem nextAll_ne_broken_of_steady {pending : Bool} {hs : List Happening} (h : Steady pending hs)
    (hd : d = fresh ∨ d = held 0 (if pending then 1 else 0)) : d.nextAll hs ≠ broken := by
  induction hs generalizing d pending with
  | nil => rcases hd with rfl | rfl <;> exact Drift.noConfusion
  | cons e hs ih =>
    cases e with
    | sent =>
      refine ih h (.inr ?_)
      rcases hd with rfl | rfl <;> rfl
    | filtered =>
      refine ih h ?_
      rcases hd with rfl | rfl
      · exact .inl rfl
      · exact .inr rfl
    | resourced =>
      obtain ⟨rfl, h⟩ := h
      refine ih h ?_
      rcases hd with rfl | rfl
      · exact .inl rfl
      · exact .inr rfl
    | restarted => exact absurd h id
    | generated =>
      obtain ⟨rfl, h⟩ := h
      refine ih h ?_
      rcases hd with rfl | rfl
      · exact .inl rfl
      · exact .inr rfl

end Drift
end Simulcast
