import Simulcast.Quality.Scorer

/-!
# Measuring quality

What is measured over a window of time becomes a score: a hundred, less what is
deducted for delay and for loss. Loss counts for less on a stream that runs well
below its peak rate of packets.
-/

namespace Simulcast

/-- What was measured over a window of time. -/
structure WindowStats where
  /-- When it started, in nanoseconds. -/
  start : Int
  /-- How long it was, in nanoseconds. -/
  duration : Nat
  /-- Packets that should have come. -/
  expected : UInt32
  /-- Packets that did not. -/
  lost : UInt32
  /-- The longest round trip, in milliseconds. -/
  roundTrip : UInt32
  /-- The greatest jitter, in microseconds. -/
  jitter : Float
  deriving Repr

namespace WindowStats

/-- Half of the round trip and twice the jitter, in milliseconds. -/
def delay (w : WindowStats) : Float :=
  w.roundTrip.toFloat / 2.0 + w.jitter * 2.0 / 1000.0

/-- What is deducted for a delay: little up to a knee, and more from there on. -/
def delayDeduction (delay : Float) : Float :=
  if 160.0 < delay then (delay - 120.0) / 10.0 else delay / 40.0

/-- The percentage of packets lost. -/
def lossPercent (w : WindowStats) : Float :=
  if 0 < w.expected then w.lost.toFloat * 100.0 / w.expected.toFloat else 0.0

/-- The score of a window, with a number of points for each percent of loss. -/
def score (w : WindowStats) (lossWeight : Float) : Float :=
  100.0 - delayDeduction w.delay - w.lossPercent * lossWeight

/-- The number of packets in a second, of a window that lasted. -/
def rate? (w : WindowStats) : Option Float :=
  if inSeconds w.duration ≤ 0.0 then none
  else some (w.expected.toFloat / inSeconds w.duration)

end WindowStats

/-- A scorer together with what it takes to score a window. -/
structure QualityMeter where
  /-- Points deducted for each percent of loss at the peak rate. -/
  lossWeight : Float
  /-- The highest rate of packets seen. -/
  peakRate : Float := 0.0
  scorer : Scorer Float := Scorer.new
  deriving Repr

namespace QualityMeter

/-- The highest rate of packets, a window included. -/
def peakWith (m : QualityMeter) (w : WindowStats) : Float :=
  match w.rate? with
  | some r => if m.peakRate < r then r else m.peakRate
  | none => m.peakRate

/-- The weight of loss in a window. -/
def weightFor (m : QualityMeter) (w : WindowStats) : Float :=
  match w.rate? with
  | some r => (r / m.peakWith w).sqrt * m.lossWeight
  | none => m.lossWeight

/-- A window with its score. One without packets has the score of a missing one. -/
def window (m : QualityMeter) (w : WindowStats) : Window Float :=
  { start := w.start
    score := if w.expected = 0 then Score.missing else w.score (m.weightFor w) }

/-- Changes the scorer. -/
def onScorer (m : QualityMeter) (change : Scorer Float → Scorer Float) : QualityMeter :=
  { m with scorer := change m.scorer }

/-- The peak rate after an update. Only what is scored counts. -/
def nextPeak (m : QualityMeter) (stats : Option WindowStats) (moment : Int) : Float :=
  if m.scorer.passesOver moment then m.peakRate
  else match stats with
    | some w => if w.expected = 0 then m.peakRate else m.peakWith w
    | none => m.peakRate

/-- Feeds what was measured over the window that ends at a moment. -/
def update (m : QualityMeter) (stats : Option WindowStats) (moment : Int) : QualityMeter :=
  { m with
    peakRate := m.nextPeak stats moment
    scorer := m.scorer.update (stats.map m.window) moment }

/-- The mean opinion that the reported score stands for. -/
def meanOpinion (m : QualityMeter) : Float32 := Simulcast.meanOpinion m.scorer.score

end QualityMeter
end Simulcast
