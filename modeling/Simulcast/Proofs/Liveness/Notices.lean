import Simulcast.Liveness.LayerWatch
import Simulcast.Proofs.Timers
import Mathlib.Data.List.Basic

/-!
# Notices of a layer watch

A notice that a layer flows, or flows no more, changes the list of the layers that flow and what is
announced, and nothing else (`notice_eq`); so does the delivery of all notices (`deliver_eq`), which
can be done one at a time (`deliverNext_of_append`). The list holds each layer once, in order, and
`mem_noticed` says which. Every change of it is announced (`Tells`), also those that come with time
(`tells_advance`).
-/

namespace Simulcast

theorem get_set {α : Type} {n : Nat} (v : Vector α n) (i j : Fin n) (x : α) :
    (v.set i x i.isLt).get j = if i = j then x else v.get j := by
  change (v.set i x i.isLt)[j.val] = if i = j then x else v[j.val]
  simp only [Vector.getElem_set, Fin.ext_iff]

namespace LayerWatch

variable {w v : LayerWatch} {ls : List Int} {n : LayerIndex × LayerStatus} {l : Int}

/-- The layers that flow after a notice. -/
def noticed (ls : List Int) (n : LayerIndex × LayerStatus) : List Int :=
  match n.2 with
  | .active => if ls.contains n.1.val then ls else insertLayer n.1.val ls
  | .stopped => if ls.contains n.1.val then ls.filter fun l => l != n.1.val else ls

/-- What is announced after a notice. -/
def news (ls : List Int) (n : LayerIndex × LayerStatus) : List (List Int) :=
  match n.2 with
  | .active => if ls.contains n.1.val then [] else [noticed ls n]
  | .stopped => if ls.contains n.1.val then [noticed ls n] else []

theorem notice_eq (w : LayerWatch) (n : LayerIndex × LayerStatus) :
    w.notice n.1 n.2 = { w with
      available := noticed w.available n
      announcements := w.announcements ++ news w.available n } := by
  obtain ⟨layer, status⟩ := n
  cases flows : w.available.contains (layer.val : Int) <;> cases status <;>
    simp only [notice, addAvailable, removeAvailable, announce, noticed, news, flows, if_true,
      if_false, Bool.false_eq_true, List.append_nil]

/-! ## The delivery of notices -/

/-- The layers that flow after some notices. -/
def noticedAll (ls : List Int) (ns : List (LayerIndex × LayerStatus)) : List Int :=
  ns.foldl noticed ls

/-- What is announced after some notices. -/
def newsAll : List Int → List (LayerIndex × LayerStatus) → List (List Int)
  | _, [] => []
  | ls, n :: ns => news ls n ++ newsAll (noticed ls n) ns

theorem deliver_eq (w : LayerWatch) : w.deliver = { w with
    available := noticedAll w.available w.pending
    announcements := w.announcements ++ newsAll w.available w.pending
    pending := [] } := by
  suffices all : ∀ (ns : List (LayerIndex × LayerStatus)) (w : LayerWatch),
      ns.foldl (fun w n => w.notice n.1 n.2) w = { w with
        available := noticedAll w.available ns
        announcements := w.announcements ++ newsAll w.available ns } from
    all w.pending { w with pending := [] }
  intro ns
  induction ns with
  | nil =>
    intro w
    simp only [List.foldl_nil, noticedAll, newsAll, List.append_nil]
  | cons n ns ih =>
    intro w
    rw [List.foldl_cons, ih, notice_eq]
    simp only [noticedAll, newsAll, List.foldl_cons, List.append_assoc]

/-- Acts on the notice of a layer that has waited longest. Each tracker has a queue of its own, so that
notices of other layers may have come before it. -/
def deliverNext (w : LayerWatch) (layer : LayerIndex) : LayerWatch :=
  match w.pending.find? fun n => n.1 == layer with
  | none => w
  | some n => { w with pending := w.pending.eraseP fun n => n.1 == layer }.notice n.1 n.2

/-- A notice is acted on that is the first of its layer. -/
theorem deliverNext_of_append {before later : List (LayerIndex × LayerStatus)}
    (h : w.pending = before ++ n :: later) (first : ∀ m ∈ before, m.1 ≠ n.1) :
    w.deliverNext n.1 = { w with
      available := noticed w.available n
      announcements := w.announcements ++ news w.available n
      pending := before ++ later } := by
  have others : ∀ m ∈ before, ¬(m.1 == n.1) = true := fun m hm => by
    rw [beq_iff_eq]
    exact first m hm
  have found : w.pending.find? (fun m => m.1 == n.1) = some n := by
    rw [h, List.find?_append, List.find?_eq_none.2 others, Option.none_or]
    exact List.find?_cons_of_pos (beq_self_eq_true n.1)
  have left : w.pending.eraseP (fun m => m.1 == n.1) = before ++ later := by
    rw [h, List.eraseP_append_right _ others]
    exact congrArg (before ++ ·) (List.eraseP_cons_of_pos (beq_self_eq_true n.1))
  rw [deliverNext, found, left]
  exact notice_eq { w with pending := before ++ later } n

/-- Either no notice of the layer waits, or the first of them is acted on. -/
theorem deliverNext_cases (w : LayerWatch) (layer : LayerIndex) : w.deliverNext layer = w ∨
    ∃ before n later, w.pending = before ++ n :: later ∧ (∀ m ∈ before, m.1 ≠ n.1) ∧
      w.deliverNext layer = { w with
        available := noticed w.available n
        announcements := w.announcements ++ news w.available n
        pending := before ++ later } := by
  cases found : w.pending.find? fun n => n.1 == layer with
  | none =>
    left
    rw [deliverNext, found]
  | some n =>
    obtain ⟨own, before, later, h, others⟩ := List.find?_eq_some_iff_append.1 found
    obtain rfl : n.1 = layer := beq_iff_eq.1 own
    have first : ∀ m ∈ before, m.1 ≠ n.1 := fun m hm same => by
      have other := others m hm
      rw [same, beq_self_eq_true] at other
      cases other
    exact .inr ⟨before, n, later, h, first, deliverNext_of_append h first⟩

/-! ## The list of layers that flow -/

theorem mem_insertLayer {layer : Int} : l ∈ insertLayer layer ls ↔ l = layer ∨ l ∈ ls := by
  induction ls with
  | nil => exact List.mem_singleton.trans (or_iff_left List.not_mem_nil).symm
  | cons k ls ih =>
    rw [insertLayer]
    split
    · exact List.mem_cons
    · rw [List.mem_cons, ih, List.mem_cons, or_left_comm]

theorem pairwise_insertLayer {layer : Int} (h : ls.Pairwise (· < ·)) (new : layer ∉ ls) :
    (insertLayer layer ls).Pairwise (· < ·) := by
  induction ls with
  | nil => exact List.pairwise_singleton _ _
  | cons k ls ih =>
    obtain ⟨above, rest⟩ := List.pairwise_cons.1 h
    rw [List.mem_cons, not_or] at new
    obtain ⟨other, new⟩ := new
    rw [insertLayer]
    split
    · rename_i below
      have less : layer < k := Int.lt_iff_le_and_ne.2 ⟨below, other⟩
      refine List.pairwise_cons.2 ⟨fun m hm => ?_, h⟩
      rcases List.mem_cons.1 hm with rfl | hm
      · exact less
      · exact Int.lt_trans less (above m hm)
    · rename_i below
      refine List.pairwise_cons.2 ⟨fun m hm => ?_, ih rest new⟩
      rcases mem_insertLayer.1 hm with rfl | hm
      · exact Int.not_le.1 below
      · exact above m hm

/-- After a notice its layer flows as it says, and the others as before. -/
theorem mem_noticed :
    l ∈ noticed ls n ↔ l = n.1.val ∧ n.2 = .active ∨ l ≠ n.1.val ∧ l ∈ ls := by
  obtain ⟨layer, status⟩ := n
  by_cases here : l = layer.val
  · cases status <;> simp only [noticed, here, ne_eq, not_true_eq_false, false_and, or_false,
      true_and, reduceCtorEq, List.contains_eq_mem, decide_eq_true_eq, iff_true, iff_false]
    · split
      · simp only [List.mem_filter, bne_self_eq_false, Bool.false_eq_true, and_false,
          not_false_eq_true]
      · assumption
    · split
      · assumption
      · exact mem_insertLayer.2 (.inl rfl)
  · cases status <;> simp only [noticed, here, ne_eq, not_false_eq_true, true_and, false_and,
      false_or]
    · split
      · simp only [List.mem_filter, bne_iff_ne, ne_eq, here, not_false_eq_true, and_true]
      · rfl
    · split
      · rfl
      · exact mem_insertLayer.trans (or_iff_right here)

theorem pairwise_noticed (h : ls.Pairwise (· < ·)) : (noticed ls n).Pairwise (· < ·) := by
  unfold noticed
  split <;> split
  · exact h
  · rename_i new
    exact pairwise_insertLayer h (by rwa [List.contains_eq_mem, decide_eq_true_eq] at new)
  · exact h.filter _
  · exact h

theorem pairwise_noticedAll {ns : List (LayerIndex × LayerStatus)} (h : ls.Pairwise (· < ·)) :
    (noticedAll ls ns).Pairwise (· < ·) := by
  induction ns generalizing ls with
  | nil => exact h
  | cons n ns ih => exact ih (pairwise_noticed h)

/-! ## Announcements -/

/-- The list of layers that flow has changed as announced, the newest announcement last. -/
def Tells (w v : LayerWatch) : Prop :=
  ∃ lists, v.announcements = w.announcements ++ lists ∧ lists.getLast?.getD w.available = v.available

theorem Tells.of_eq (announcements : v.announcements = w.announcements)
    (available : v.available = w.available) : Tells w v :=
  ⟨[], announcements.trans (List.append_nil _).symm, available.symm⟩

theorem Tells.trans {u : LayerWatch} (h : Tells w v) (h' : Tells v u) : Tells w u := by
  obtain ⟨lists, told, last⟩ := h
  obtain ⟨later, told', last'⟩ := h'
  refine ⟨lists ++ later, by rw [told', told, List.append_assoc], ?_⟩
  rw [← last', ← last, List.getLast?_append]
  cases later.getLast? <;> rfl

/-- The last list to be announced is the one that holds, also where nothing was to be announced. -/
theorem getLast?_news (ls : List Int) (n : LayerIndex × LayerStatus) :
    (news ls n).getLast?.getD ls = noticed ls n := by
  obtain ⟨layer, status⟩ := n
  cases flows : ls.contains (layer.val : Int) <;> cases status <;>
    simp only [news, noticed, flows, if_true, if_false, Bool.false_eq_true, List.getLast?_nil,
      List.getLast?_singleton, Option.getD_none, Option.getD_some]

theorem tells_notice (w : LayerWatch) (n : LayerIndex × LayerStatus) : Tells w (w.notice n.1 n.2) := by
  rw [notice_eq]
  exact ⟨_, rfl, getLast?_news _ _⟩

theorem tells_deliverNext (w : LayerWatch) (layer : LayerIndex) : Tells w (w.deliverNext layer) := by
  rcases w.deliverNext_cases layer with same | ⟨_, _, _, -, -, acted⟩
  · rw [same]
    exact .of_eq rfl rfl
  · rw [acted]
    exact ⟨_, rfl, getLast?_news _ _⟩

theorem tells_deliver (w : LayerWatch) : Tells w w.deliver := by
  suffices all : ∀ (ns : List (LayerIndex × LayerStatus)) (w : LayerWatch),
      Tells w (ns.foldl (fun w n => w.notice n.1 n.2) w) from
    all w.pending { w with pending := [] }
  intro ns
  induction ns with
  | nil => exact fun w => .of_eq rfl rfl
  | cons n ns ih => exact fun w => (tells_notice w n).trans (ih _)

/-! ## Changes of trackers -/

/-- What trackers report waits to be acted on, and changes nothing at once. -/
structure Waits (w v : LayerWatch) : Prop where
  available : v.available = w.available
  announcements : v.announcements = w.announcements

theorem waits_modify (w : LayerWatch) (layer : LayerIndex) (change : Tracker → Tracker) :
    Waits w (w.modify layer change) := by
  unfold modify
  split <;> exact ⟨rfl, rfl⟩

theorem waits_foldl_modify (change : Tracker → Tracker) (layers : List LayerIndex) (w : LayerWatch) :
    Waits w (layers.foldl (fun w i => w.modify i change) w) := by
  induction layers generalizing w with
  | nil => exact ⟨rfl, rfl⟩
  | cons i layers ih =>
    obtain ⟨available, announcements⟩ := waits_modify w i change
    exact ⟨(ih _).available.trans available, (ih _).announcements.trans announcements⟩

theorem waits_observe (w : LayerWatch) (key : WatchKey) (number : UInt16) :
    Waits w (w.observe key number) := by
  unfold observe
  split
  · exact ⟨rfl, rfl⟩
  · dsimp only
    split <;> exact ⟨(waits_modify _ _ _).available, (waits_modify _ _ _).announcements⟩

theorem tells_ring (w : LayerWatch) (key : WatchKey × Nat) : Tells w (w.ring key).1 := by
  unfold ring
  dsimp only
  split
  · exact .of_eq rfl rfl
  · obtain ⟨available, announcements⟩ := waits_modify w key.1.layer fun t => t.cycleEnd key.2
    exact (Tells.of_eq announcements available).trans (tells_deliver _)

theorem tells_advance (w : LayerWatch) (nanos : Nat) : Tells w (w.advance nanos) := by
  have rung : Tells w (w.timers.advance ring (w.now + nanos) w).2 :=
    Timers.advance_induction (P := fun _ v => Tells w v)
      (fun told _ => told.trans (tells_ring _ _)) (.of_eq rfl rfl) _
  obtain ⟨lists, told, last⟩ := rung
  exact ⟨lists, told, last⟩

end LayerWatch
end Simulcast
