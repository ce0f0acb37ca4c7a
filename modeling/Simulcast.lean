import Simulcast.Forwarding.Decision
import Simulcast.Liveness.Monitor
import Simulcast.Quality.Meter
import Simulcast.Relay
import Simulcast.Report
import Simulcast.Rtp.SendTime
import Simulcast.Settings.Logging
import Simulcast.Settings.Written
import Simulcast.Proofs.Forwarding.Resumption
import Simulcast.Proofs.Numbering.OneSource
import Simulcast.Proofs.Forwarding.Behind
import Simulcast.Proofs.Numbering.Drift
import Simulcast.Proofs.Subscription.Contiguity
import Simulcast.Proofs.Subscription.FrameData
import Simulcast.Proofs.Forwarding.Interruption
import Simulcast.Proofs.Forwarding.Splicing
import Simulcast.Proofs.Vp8.PictureOrder
import Simulcast.Proofs.Forwarding.Failure
import Simulcast.Proofs.Forwarding.LockIn
import Simulcast.Proofs.Forwarding.WholePictures
import Simulcast.Proofs.Subscription.Retransmission
import Simulcast.Proofs.Forwarding.Availability
import Simulcast.Proofs.Forwarding.Unfunded
import Simulcast.Proofs.Forwarding.Muted
import Simulcast.Proofs.Quality.Feeding
import Simulcast.Proofs.Quality.Hysteresis
import Simulcast.Proofs.Quality.Recovery
import Simulcast.Proofs.SubscriberTable
import Simulcast.Proofs.Publication.Act
import Simulcast.Proofs.Publication.Outcome
import Simulcast.Proofs.Publication.Subscribers
import Simulcast.Proofs.Publication.Turns
import Simulcast.Proofs.Publication.Closing
import Simulcast.Proofs.Publication.Announcing
import Simulcast.Proofs.Liveness.Reports
import Simulcast.Proofs.Liveness.Change
import Simulcast.Proofs.Publication.Leftover
import Simulcast.Proofs.Publication.Requests
import Simulcast.Proofs.Liveness.Detection
import Simulcast.Proofs.Liveness.Delivery
import Simulcast.Proofs.Liveness.Traffic
import Simulcast.Proofs.Liveness.Cycles
import Simulcast.Proofs.Liveness.Attendance
import Simulcast.Proofs.Liveness.Announcements
import Simulcast.Proofs.Liveness.Pausing
import Simulcast.Proofs.PacketRing.LookUp
import Simulcast.Proofs.Intake.Queueing
import Simulcast.Proofs.Intake.Storage
import Simulcast.Proofs.H264
import Simulcast.Proofs.SendLog.Budget
import Simulcast.Proofs.Vp8.WellFormed
import Simulcast.Proofs.SendQueue.Traffic
import Simulcast.Proofs.Subscription.Act
import Simulcast.Proofs.Subscription.Overrun
import Simulcast.Proofs.Subscription.Accounting
import Simulcast.Proofs.Subscription.WireOctets
import Simulcast.Proofs.Subscription.Closing
import Simulcast.Proofs.Vp8.TornPictures
import Simulcast.Proofs.Vp8.LatePackets
import Simulcast.Proofs.Vp8.FilteredPackets
import Simulcast.Proofs.Vp8.Unwrapping
import Simulcast.Proofs.Vp8.Layout
import Simulcast.Proofs.Forwarding.Headroom
import Simulcast.Proofs.Forwarding.LeastStep
import Simulcast.Proofs.Forwarding.Finalizing
import Simulcast.Proofs.Quality.Relapse
import Simulcast.Proofs.Quality.Muting
