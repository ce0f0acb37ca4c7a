import Simulcast.Document.Json
import Simulcast.Intake.Basic
import Simulcast.Liveness.LayerWatch
import Simulcast.Publication.Basic
import Simulcast.Settings.Conversion
import Simulcast.Subscription.Basic

/-!
# Settings

The settings of a relay come from a file and from the environment, which has the last
word. What is given in neither keeps its default.
-/

namespace Simulcast

/-- How publishers are served. -/
structure ReceiverSection where
  /-- The least time between two requests for a key frame of one layer. -/
  requestIntervalMillis : Nat := 500
  sharingThreshold : Nat := 20
  watchesLiveness : Bool := true
  packetBufferSize : Nat := 500
  bitrateIntervalMillis : Nat := 1000
  deriving DecidableEq, Repr

/-- How the liveness of layers is judged. -/
structure LivenessSection where
  base : Thresholds := ⟨1, 4⟩
  higher : Thresholds := ⟨5, 60⟩
  cycleMillis : Nat := 500
  deriving DecidableEq, Repr

/-- What is logged, and where to. -/
structure LoggingSection where
  level : String := "info"
  format : String := "pretty"
  /-- The file to log to, instead of the console. -/
  filePath : Option String := none
  deriving DecidableEq, Repr

/-- All settings. -/
structure Settings where
  receiver : ReceiverSection := {}
  liveness : LivenessSection := {}
  subscription : SubscriptionSettings := {}
  /-- Points of quality deducted for each percent of loss. -/
  lossWeight : Float := 20.0
  logging : LoggingSection := {}
  deriving Repr

/-! ## Use -/

namespace ReceiverSection

/-- How a publication treats its publisher and its subscribers. -/
def publication (r : ReceiverSection) : PublicationSettings :=
  { requestInterval := r.requestIntervalMillis * nanosPerMilli
    sharingThreshold := r.sharingThreshold
    watchesLiveness := r.watchesLiveness }

/-- How an intake keeps packets and measures bitrates. -/
def intake (r : ReceiverSection) : IntakeSettings :=
  { capacity := r.packetBufferSize
    bitrateInterval := r.bitrateIntervalMillis * nanosPerMilli }

end ReceiverSection

namespace LivenessSection

/-- How layers are watched. -/
def watch (l : LivenessSection) : WatchSettings :=
  { base := l.base, higher := l.higher, cycle := l.cycleMillis * nanosPerMilli }

end LivenessSection

/-! ## Reading -/

namespace Settings

open Reader

/-- Reads what publishers get. -/
def readReceiver (d : Document) : Option ReceiverSection := do
  guard (isSection d)
  let default : ReceiverSection := {}
  return {
    requestIntervalMillis :=
      ← fieldOr word64 d 0 "pli_throttle_ms" default.requestIntervalMillis
    sharingThreshold := ← fieldOr word64 d 1 "load_balance_threshold" default.sharingThreshold
    watchesLiveness := ← fieldOr bool d 2 "use_stream_trackers" default.watchesLiveness
    packetBufferSize := ← fieldOr word64 d 3 "packet_buffer_size" default.packetBufferSize
    bitrateIntervalMillis :=
      ← fieldOr word64 d 4 "bitrate_interval_ms" default.bitrateIntervalMillis }

/-- Reads thresholds, which are given whole or not at all. -/
def readThresholds (d : Document) : Option Thresholds := do
  guard (isSection d)
  return { samples := ← field word32 d 0 "samples_required"
           cycles := ← field word32 d 1 "cycles_required" }

/-- Reads how liveness is judged. -/
def readLiveness (d : Document) : Option LivenessSection := do
  guard (isSection d)
  let default : LivenessSection := {}
  return {
    base := ← fieldOr readThresholds d 0 "base_layer" default.base
    higher := ← fieldOr readThresholds d 1 "higher_layers" default.higher
    cycleMillis := ← fieldOr word64 d 2 "cycle_duration_ms" default.cycleMillis }

/-- Reads what subscribers get. -/
def readSubscription (d : Document) : Option SubscriptionSettings := do
  guard (isSection d)
  let default : SubscriptionSettings := {}
  return {
    logCapacity := ← fieldOr word64 d 0 "sequencer_size" default.logCapacity
    maxPadding := ← fieldOr word64 d 1 "max_padding_size" default.maxPadding }

/-- Reads the weight of loss. -/
def readQuality (default : Float) (d : Document) : Option Float := do
  guard (isSection d)
  fieldOr float d 0 "packet_loss_weight" default

/-- Reads what is logged. -/
def readLogging (d : Document) : Option LoggingSection := do
  guard (isSection d)
  let default : LoggingSection := {}
  return {
    level := ← fieldOr text d 0 "level" default.level
    format := ← fieldOr text d 1 "format" default.format
    filePath := ← fieldOr (optional text) d 2 "file_path" default.filePath }

/-- Reads settings from a document. -/
def ofDocument? (d : Document) : Option Settings := do
  let default : Settings := {}
  return {
    receiver := ← fieldOr readReceiver d 0 "receiver" default.receiver
    liveness := ← fieldOr readLiveness d 1 "stream_tracker" default.liveness
    subscription := ← fieldOr readSubscription d 2 "down_track" default.subscription
    lossWeight := ← fieldOr (readQuality default.lossWeight) d 3 "quality" default.lossWeight
    logging := ← fieldOr readLogging d 4 "logging" default.logging }

/-! ## Sources -/

/-- What the names of environment variables for this program start with. -/
def environmentLead : String := "mediarelay_"

/-- Cuts a name at each pair of underscores. -/
def cutPairs : List Char → List (List Char)
  | '_' :: '_' :: cs => [] :: cutPairs cs
  | c :: cs => match cutPairs cs with
    | [] => [[c]]
    | part :: parts => (c :: part) :: parts
  | [] => [[]]

/-- Cuts a name at each point. -/
def cutPoints : List Char → List (List Char)
  | '.' :: cs => [] :: cutPoints cs
  | c :: cs => match cutPoints cs with
    | [] => [[c]]
    | part :: parts => (c :: part) :: parts
  | [] => [[]]

/-- Whether a character can be part of a name on a path. -/
def isNameChar (c : Char) : Bool := c.isAlphanum || c = '_' || c = '-'

/-- The path that a name stands for. Its parts are separated by points; a name that
is no path is a field of its own. -/
def pathOf (name : List Char) : List String :=
  let parts := cutPoints name
  if parts.all fun p => !p.isEmpty && p.all isNameChar then parts.map String.ofList
  else [String.ofList name]

/-- The path of the setting that an environment variable is for, if it is for any.
Pairs of underscores separate the parts. -/
def environmentPath? (name : String) : Option (List String) :=
  let cs := (Reader.lower name).toList
  let lead := environmentLead.toList
  if lead.isPrefixOf cs then
    some (pathOf ((cutPairs (cs.drop lead.length)).intersperse ['.']).flatten)
  else none

/-- The value that a text in the environment stands for: yes or no, a whole number of
64 bits, another number, or else the text itself. -/
def environmentValue (text : String) : Document :=
  match Reader.lower text with
  | "true" => .bool true
  | "false" => .bool false
  | _ =>
    let fits (n : Int) : Bool := -0x8000000000000000 ≤ n ∧ n < 0x8000000000000000
    match (Decimal.integer? text).filter fits with
    | some n => .int n
    | none => match Decimal.float? text with
      | some x => .float x
      | none => .text text

/-- Lays the environment over settings. -/
def withEnvironment (environment : List (String × String)) (d : Document) : Document :=
  environment.foldl (fun d (name, text) => match environmentPath? name with
    | some path => Document.setPath (environmentValue text) path d
    | none => d) d

/-- A byte order mark at the start of a file does not count. -/
def withoutMark (text : String) : String :=
  match text.toList with
  | c :: cs => if c = '\ufeff' then String.ofList cs else text
  | [] => text

/-- The document of a file, which has to be a table. Its fields may be named by
paths. -/
def fileDocument? (text : String) : Option Document :=
  match Document.ofJson? (withoutMark text) with
  | some (.table fields) =>
    some (fields.foldl (fun d (name, value) => Document.setPath value (pathOf name.toList) d)
      (.table []))
  | _ => none

/-- Loads settings from the text of a file, if there is one, and from the variables
of the environment. -/
def load? (file : Option String) (environment : List (String × String)) : Option Settings := do
  let d ← match file with
    | some text => fileDocument? text
    | none => some (.table [])
  ofDocument? (withEnvironment environment d)

end Settings
end Simulcast
