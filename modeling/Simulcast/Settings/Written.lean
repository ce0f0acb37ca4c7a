import Simulcast.Settings.Basic

/-!
# Settings as documents

Each section of the settings is written with the names under which it is read.
-/

namespace Simulcast

namespace ReceiverSection

/-- What publishers get, as a table. -/
def document (r : ReceiverSection) : Document :=
  .table [("pli_throttle_ms", .int r.requestIntervalMillis),
    ("load_balance_threshold", .int r.sharingThreshold),
    ("use_stream_trackers", .bool r.watchesLiveness),
    ("packet_buffer_size", .int r.packetBufferSize),
    ("bitrate_interval_ms", .int r.bitrateIntervalMillis)]

end ReceiverSection

namespace Thresholds

/-- Thresholds as a table. -/
def document (t : Thresholds) : Document :=
  .table [("samples_required", .int t.samples), ("cycles_required", .int t.cycles)]

end Thresholds

namespace LivenessSection

/-- How liveness is judged, as a table. -/
def document (l : LivenessSection) : Document :=
  .table [("base_layer", l.base.document), ("higher_layers", l.higher.document),
    ("cycle_duration_ms", .int l.cycleMillis)]

end LivenessSection

namespace SubscriptionSettings

/-- What subscribers get, as a table. -/
def document (s : SubscriptionSettings) : Document :=
  .table [("sequencer_size", .int s.logCapacity), ("max_padding_size", .int s.maxPadding)]

end SubscriptionSettings

namespace LoggingSection

/-- What is logged, as a table. -/
def document (l : LoggingSection) : Document :=
  .table [("level", .text l.level), ("format", .text l.format),
    ("file_path", match l.filePath with
      | some path => .text path
      | none => .null)]

end LoggingSection

namespace Settings

/-- All settings, as a table. -/
def document (s : Settings) : Document :=
  .table [("receiver", s.receiver.document), ("stream_tracker", s.liveness.document),
    ("down_track", s.subscription.document),
    ("quality", .table [("packet_loss_weight", .float s.lossWeight)]),
    ("logging", s.logging.document)]

end Settings
end Simulcast
