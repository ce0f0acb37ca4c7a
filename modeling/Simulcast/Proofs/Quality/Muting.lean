import Simulcast.Proofs.Quality.Feeding
import Simulcast.Quality.Meter
import Mathlib.Data.List.Induction
import Mathlib.Data.List.Pairwise

/-!
# Muted streams

A muted stream should be reported as flawless until it is unmuted. Whether it is muted is not
remembered, but worked out from the moments at which it was last muted and unmuted. If these are
the same, the stream counts as not muted, whichever came last, and is scored.

* `Scorer.Silenced`: what a mute that is later than any unmuting brings about. Nothing but an
  unmuting ends it (`QualityMeter.silenced_play`).
* `not_staysFlawless`: what comes after a mute is scored when the stream was last unmuted at that
  very moment.
* `staysFlawless_iff`: these are all the cases. A mute holds if and only if there was no unmuting at
  the same moment.
-/

namespace Simulcast

namespace Scorer

variable {α : Type} [Score α] {s : Scorer α} {t moment : Int}

/-! ## Muting after any unmuting -/

/-- The stream was muted at a moment or since, was last unmuted before that moment, and is reported
as flawless. -/
structure Silenced (s : Scorer α) (since : Int) : Prop where
  score : s.score = Score.full
  muted : ∃ m, s.mutedAt = some m ∧ since ≤ m
  unmuted : ∀ u, s.unmutedAt = some u → u < since

/-- A mute silences a stream that was last unmuted before. -/
theorem silenced_mute (unmuted : ∀ u, s.unmutedAt = some u → u < t) : (s.mute t).Silenced t :=
  ⟨rfl, ⟨t, rfl, le_rfl⟩, unmuted⟩

namespace Silenced

theorem isMuted (h : s.Silenced t) : s.isMuted = true := by
  obtain ⟨m, muted, since⟩ := h.muted
  rw [Scorer.isMuted, muted]
  cases unmuted : s.unmutedAt with
  | none => rfl
  | some u => exact decide_eq_true ((h.unmuted u unmuted).trans_le since)

theorem start (h : s.Silenced t) (moment : Int) : (s.start moment).Silenced t :=
  ⟨h.score, h.muted, h.unmuted⟩

theorem mute (h : s.Silenced t) (later : t ≤ moment) : (s.mute moment).Silenced t :=
  ⟨rfl, ⟨moment, rfl, later⟩, h.unmuted⟩

theorem update (h : s.Silenced t) (w : Option (Window α)) (moment : Int) :
    (s.update w moment).Silenced t := by
  rw [Scorer.update, passesOver, h.isMuted]
  exact h.start moment

end Silenced

/-! ## Muting at the moment of an unmuting -/

/-- Of a mute and an unmuting at one moment, the unmuting counts. -/
theorem isMuted_mute (unmuted : s.unmutedAt = some t) : (s.mute t).isMuted = false := by
  unfold isMuted mute
  rw [unmuted]
  exact decide_eq_false (lt_irrefl t)

omit [Score α] in
/-- A stream that was unmuted at the moment of the last update is scored a second later. -/
theorem scored_after_second (notMuted : s.isMuted = false) (unmuted : s.unmutedAt = some t)
    (updated : s.lastUpdate = some t) : s.passesOver (t + nanosPerSecond) = false := by
  have second : elapsed t (t + nanosPerSecond) = nanosPerSecond := by
    unfold elapsed
    omega
  have one : inSeconds nanosPerSecond = 1.0 := rfl
  rw [passesOver, notMuted, isUnmutedEnough, unmuted, updated]
  dsimp only
  rw [second, one]
  decide

theorem missing_lt_full :
    Score.quality (Score.missing : Float) < Score.quality (Score.full : Float) := by decide

theorem missing_ne_full : (Score.missing : Float) ≠ Score.full := fun same =>
  absurd missing_lt_full (same ▸ lt_irrefl _)

/-- A stream for which nothing comes is no longer flawless. -/
theorem score_update_none {s : Scorer Float} (flawless : s.score = Score.full)
    (scored : s.passesOver moment = false) : (s.update none moment).score = Score.missing := by
  have lower : Score.quality (s.missingWindow moment).score < (s.start moment).quality := by
    rw [quality, show (s.start moment).score = s.score from rfl, flawless]
    exact missing_lt_full
  rw [Scorer.update, scored]
  exact congrArg score (if_pos lower)

theorem update_mutes (s : Scorer α) (w : Option (Window α)) (moment : Int) :
    (s.update w moment).mutedAt = s.mutedAt ∧ (s.update w moment).unmutedAt = s.unmutedAt := by
  unfold update
  split
  · exact ⟨rfl, rfl⟩
  · exact take_mutes s _ moment

end Scorer

namespace QualityMeter

/-! ## Runs of a meter -/

/-- What a meter may be asked to do. -/
inductive Event where
  | start (moment : Int)
  | mute (moment : Int)
  | unmute (moment : Int)
  | update (stats : Option WindowStats) (moment : Int)

namespace Event

/-- When it is asked. -/
def moment : Event → Int
  | start moment | mute moment | unmute moment | update _ moment => moment

/-- The moment at which the stream is unmuted, if it is. -/
def unmuting? : Event → Option Int
  | unmute moment => some moment
  | _ => none

theorem eq_unmute {e : Event} {u : Int} (h : e.unmuting? = some u) : e = unmute u := by
  cases e with
  | unmute => exact congrArg unmute (Option.some.inj h)
  | _ => cases h

end Event

/-- A meter after an event. -/
def perform (m : QualityMeter) : Event → QualityMeter
  | .start moment => m.onScorer (·.start moment)
  | .mute moment => m.onScorer (·.mute moment)
  | .unmute moment => m.onScorer (·.unmute moment)
  | .update stats moment => m.update stats moment

/-- A meter after some events. -/
def play (m : QualityMeter) (es : List Event) : QualityMeter := es.foldl perform m

/-- The events are in order of time. -/
def InTime (es : List Event) : Prop := es.Pairwise fun e e' => e.moment ≤ e'.moment

instance (es : List Event) : Decidable (InTime es) := inferInstanceAs (Decidable (es.Pairwise _))

variable {m : QualityMeter} {es before later : List Event} {t u : Int}

theorem unmutedAt_perform (e : Event) :
    (m.perform e).scorer.unmutedAt = e.unmuting?.or m.scorer.unmutedAt := by
  cases e with
  | update => exact (Scorer.update_mutes _ _ _).2
  | _ => rfl

/-- The last event that unmutes tells when a stream was last unmuted. -/
theorem unmutedAt_play : (m.play es).scorer.unmutedAt =
    (es.filterMap Event.unmuting?).getLast?.or m.scorer.unmutedAt := by
  induction es using List.reverseRecOn with
  | nil => rfl
  | append_singleton es e ih =>
    have last : m.play (es ++ [e]) = (m.play es).perform e := List.foldl_concat ..
    rw [last, unmutedAt_perform, ih, List.filterMap_append]
    cases unmuting : e.unmuting? with
    | none => simp [unmuting]
    | some u => simp [unmuting]

theorem mem_unmutings : u ∈ es.filterMap Event.unmuting? ↔ Event.unmute u ∈ es := by
  rw [List.mem_filterMap]
  constructor
  · rintro ⟨e, he, unmuting⟩
    exact Event.eq_unmute unmuting ▸ he
  · exact fun h => ⟨_, h, rfl⟩

theorem mem_of_unmutedAt (fresh : m.scorer.unmutedAt = none)
    (h : (m.play before).scorer.unmutedAt = some u) : Event.unmute u ∈ before := by
  rw [unmutedAt_play, fresh, Option.or_none] at h
  exact mem_unmutings.1 (List.mem_of_getLast? h)

/-- In order of time, a stream that was unmuted at the last moment was not unmuted later. -/
theorem unmutedAt_of_mem (fresh : m.scorer.unmutedAt = none) (order : InTime before)
    (bounded : ∀ e ∈ before, e.moment ≤ t) (h : Event.unmute t ∈ before) :
    (m.play before).scorer.unmutedAt = some t := by
  have rising : (before.filterMap Event.unmuting?).Pairwise (· ≤ ·) := by
    refine order.filterMap _ fun e e' le u hu u' hu' => ?_
    rw [Event.eq_unmute hu, Event.eq_unmute hu'] at le
    exact le
  have mem := mem_unmutings.2 h
  have upper := rising.rel_getLast mem
  have lower := bounded _ (mem_unmutings.1 (List.getLast_mem (List.ne_nil_of_mem mem)))
  rw [unmutedAt_play, fresh, Option.or_none, List.getLast?_eq_some_getLast (List.ne_nil_of_mem mem)]
  exact congrArg some (le_antisymm lower upper)

/-! ## How long a mute holds -/

theorem silenced_perform (h : m.scorer.Silenced t) {e : Event} (plain : e.unmuting? = none)
    (after : t ≤ e.moment) : (m.perform e).scorer.Silenced t := by
  cases e with
  | start moment => exact h.start moment
  | mute moment => exact h.mute after
  | unmute => cases plain
  | update stats moment => exact h.update _ moment

theorem silenced_play (h : m.scorer.Silenced t) (plain : ∀ e ∈ later, e.unmuting? = none)
    (after : ∀ e ∈ later, t ≤ e.moment) : (m.play later).scorer.Silenced t := by
  induction later generalizing m with
  | nil => exact h
  | cons e later ih =>
    obtain ⟨plain, plains⟩ := List.forall_mem_cons.1 plain
    obtain ⟨after, afters⟩ := List.forall_mem_cons.1 after
    exact ih (silenced_perform h plain after) plains afters

/-- When it is muted at a moment, and until it is unmuted, the stream is reported as flawless,
whatever it is fed. -/
def StaysFlawless (m : QualityMeter) (t : Int) : Prop :=
  ∀ later : List Event, (∀ e ∈ later, e.unmuting? = none) → InTime (.mute t :: later) →
    (m.play (.mute t :: later)).scorer.score = Score.full ∧
      (m.play (.mute t :: later)).scorer.quality = .excellent

theorem staysFlawless_of_unmuted_before (unmuted : ∀ u, m.scorer.unmutedAt = some u → u < t) :
    m.StaysFlawless t := by
  intro later plain order
  have silenced : (m.play (.mute t :: later)).scorer.Silenced t :=
    silenced_play (m := m.perform (.mute t)) (Scorer.silenced_mute unmuted) plain
      (List.pairwise_cons.1 order).1
  refine ⟨silenced.score, ?_⟩
  rw [Scorer.quality, silenced.score]
  decide

theorem not_staysFlawless (unmuted : m.scorer.unmutedAt = some t) : ¬m.StaysFlawless t := by
  intro flawless
  -- Nothing comes until the moment of muting, nor in the second after it.
  let s := m.scorer.mute t
  have once : (s.update none t).score = Score.full :=
    (flawless [.update none t] (by simp [Event.unmuting?]) (by simp [InTime, Event.moment])).1
  have twice : ((s.update none t).update none (t + nanosPerSecond)).score = Score.full :=
    (flawless [.update none t, .update none (t + nanosPerSecond)] (by simp [Event.unmuting?])
      (by simp [InTime, Event.moment])).1
  -- If the first update is scored, it is the one that lowers the score, and otherwise the second.
  cases passed : s.passesOver t with
  | false =>
    have lowered := Scorer.score_update_none (s := s) rfl passed
    exact Scorer.missing_ne_full (lowered.symm.trans once)
  | true =>
    have started : s.update none t = s.start t := by
      rw [Scorer.update, passed]
      rfl
    have scored : (s.start t).passesOver (t + nanosPerSecond) = false :=
      Scorer.scored_after_second (Scorer.isMuted_mute unmuted) unmuted rfl
    have lowered := Scorer.score_update_none (s := s.start t) rfl scored
    rw [started] at twice
    exact Scorer.missing_ne_full (lowered.symm.trans twice)

/-- On every run in order of time, a mute holds until the stream is unmuted if and only if the stream
was not unmuted at that same moment before. -/
theorem staysFlawless_iff (lossWeight : Float) (before : List Event) (t : Int)
    (order : InTime (before ++ [.mute t])) :
    (play { lossWeight } before).StaysFlawless t ↔ Event.unmute t ∉ before := by
  obtain ⟨order, -, bounded⟩ := List.pairwise_append.1 order
  have bounded : ∀ e ∈ before, e.moment ≤ t := fun e he => bounded e he _ (List.mem_singleton_self _)
  constructor
  · intro flawless together
    exact not_staysFlawless (unmutedAt_of_mem rfl order bounded together) flawless
  · intro other
    refine staysFlawless_of_unmuted_before fun u unmuted => ?_
    have hu : Event.unmute u ∈ before := mem_of_unmutedAt rfl unmuted
    have notAt : u ≠ t := fun same => other (same ▸ hu)
    exact lt_of_le_of_ne (bounded _ hu) notAt

/-! ## A mute that does not hold -/

/-- A stream that is muted and unmuted when it starts. -/
def toggled : List Event := [.start 0, .mute 0, .unmute 0]

/-- The stream is muted, last of all at its start, and a second later it is reported as poor. -/
theorem scored_toggled :
    let run := toggled ++ [.mute 0, .update none nanosPerSecond]
    let m := play { lossWeight := 20.0 }
    InTime run ∧ (m (toggled ++ [.mute 0])).scorer.score = Score.full ∧
      (m run).scorer.score = Score.missing ∧ (m run).scorer.quality = .poor := by
  intro run m
  have scored : (m (toggled ++ [.mute 0])).scorer.passesOver nanosPerSecond = false := by
    rw [← zero_add (nanosPerSecond : Int)]
    exact Scorer.scored_after_second rfl rfl rfl
  have lowered : (m run).scorer.score = Score.missing := Scorer.score_update_none rfl scored
  refine ⟨by decide, rfl, lowered, ?_⟩
  rw [Scorer.quality, lowered]
  decide

/-- A mute that comes later holds, and one at that moment does not. -/
theorem staysFlawless_iff_toggled :
    InTime (toggled ++ [.mute 0]) ∧ ¬(play { lossWeight := 20.0 } toggled).StaysFlawless 0 ∧
      InTime (toggled ++ [.mute 1]) ∧ (play { lossWeight := 20.0 } toggled).StaysFlawless 1 := by
  have now : InTime (toggled ++ [.mute 0]) := by decide
  have later : InTime (toggled ++ [.mute 1]) := by decide
  refine ⟨now, fun flawless => ?_, later, (staysFlawless_iff 20.0 toggled 1 later).2 ?_⟩
  · exact (staysFlawless_iff 20.0 toggled 0 now).1 flawless (by simp [toggled])
  · simp [toggled]

end QualityMeter

end Simulcast
