import Simulcast.Document.Basic
import Simulcast.Publication.Basic
import Simulcast.Subscription.Basic

/-!
# Reports

What a subscription and a publication tell an operator about their state, as
documents.
-/

namespace Simulcast

namespace Layers

/-- A pair as a table. -/
def report (l : Layers) : Document :=
  .table [("spatial", .int l.spatial), ("temporal", .int l.temporal)]

end Layers

namespace Document

/-- A number of any width. -/
def nat (n : Nat) : Document := .int n

/-- A value that may be missing. -/
def ofOption {α : Type} (f : α → Document) : Option α → Document
  | some a => f a
  | none => .null

end Document

namespace Numbering

/-- Where the numbering of a stream stands. -/
def report (n : Numbering) : Document :=
  .table [("last_sn", .nat n.last.number.toNat), ("sn_offset", .nat n.offset.toNat),
    ("last_ts", .nat n.last.timestamp.toNat), ("ts_offset", .nat n.timestampOffset.toNat),
    ("last_marker", .bool n.lastMarker)]

end Numbering

namespace SendStats

/-- What has been sent. -/
def report (n : SendStats) : Document :=
  .table [("packets_sent", .nat n.packets), ("bytes_sent", .nat n.octets),
    ("packets_dropped", .nat n.dropped), ("padding_packets", .nat n.paddingPackets),
    ("padding_bytes", .nat n.paddingOctets), ("loss_fraction", .nat n.lossFraction.toNat)]

end SendStats

namespace Subscription

/-- The state of a subscription. -/
def report (s : Subscription) : Document :=
  let f := s.forwarder
  .table [("peer_id", .text s.peer), ("track_id", .text s.name.track),
    ("stream_id", .text s.name.stream), ("kind", .text s.kind.name),
    ("mime", .text s.codec.mime),
    ("ssrc", .ofOption (fun b => .nat b.ssrc.toNat) s.binding),
    ("payload_type", .ofOption (fun b => .nat b.payloadType.toNat) s.binding),
    ("bound", .bool s.bound), ("muted", .bool f.muted), ("simulcast", .bool s.simulcast),
    ("current_layers", f.current.report), ("target_layers", f.target.report),
    ("max_layers", f.bound.report), ("forwarding_status", .text f.status.name),
    ("allocation_state", .text f.state.label), ("last_pli_ms", .nat s.lastKeyFrameRequest),
    ("last_rtp_ms", .nat s.lastPacket), ("rtp_munger", f.numbering.report),
    ("stats", s.stats.report)]

end Subscription

namespace UpTrack

/-- Where the packets of a layer come from. -/
def report (layer : Int) (u : UpTrack) : Document :=
  .table [("layer", .int layer), ("rid", .text u.rid), ("ssrc", .nat u.ssrc.toNat)]

end UpTrack

namespace Publication

/-- The state of a publication. -/
def report (p : Publication) : Document :=
  let upTracks := (layerRange 0 Layers.maxSpatial).filterMap fun l =>
    (p.upTrack? l).map (UpTrack.report l)
  .table [("track_id", .text p.track), ("stream_id", .text p.stream),
    ("kind", .text p.kind.name), ("simulcast", .bool p.simulcast), ("closed", .bool p.closed),
    ("available_layers", .list (p.available.map .int)), ("up_tracks", .list upTracks),
    ("down_tracks", .list (p.subscribers.peers.map .text))]

end Publication
end Simulcast
