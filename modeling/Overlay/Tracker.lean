import Overlay.Peer
import Overlay.Settings.Basic

/-!
What is known about one tracked neighbor.

The distance of a neighbor is a function of its ping history: unreachable once the tracker was
ended or too many pings in a row failed, unknown until the window of samples is full, and the
summary of that window otherwise.
-/

set_option autoImplicit false

namespace Overlay

/-- The history of one neighbor. -/
structure Tracker where
  /-- The peer that the tracker was made for. -/
  id : PeerId
  /-- What the peer at that address said last about itself. -/
  record : PeerRecord
  window : SampleWindow
  /-- Failed pings since the last one that went well. -/
  failures : UInt32
  ended : Bool
deriving DecidableEq, Inhabited, Repr

namespace Tracker

/-- A tracker that has not pinged yet. -/
def start (record : PeerRecord) (settings : Settings) : Tracker :=
  { id := record.id
    record
    window := SampleWindow.empty settings.sampleWindow.toNat
    failures := 0
    ended := false }

def distance (tracker : Tracker) (settings : Settings) : Distance :=
  if tracker.ended || settings.maxPingFailures < tracker.failures then .unreachable
  else tracker.window.distance settings.distanceMode

/-- After a ping that took the given number of milliseconds. -/
def succeeded (tracker : Tracker) (roundTrip : Binary64) : Tracker :=
  { tracker with window := tracker.window.push roundTrip, failures := 0 }

/-- After a ping that failed; the count stops at its largest value. -/
def failed (tracker : Tracker) : Tracker :=
  { tracker with
    failures :=
      if tracker.failures = UInt32.ofNat (UInt32.size - 1) then tracker.failures
      else tracker.failures + 1 }

/-- After the peer told its record. -/
def refreshed (tracker : Tracker) (record : PeerRecord) : Tracker := { tracker with record }

/-- After the owner gave the neighbor up. -/
def retired (tracker : Tracker) : Tracker := { tracker with ended := true }

end Tracker

end Overlay
