import SegmentPump.Line
import SegmentPump.Segment

/-! A sink takes one segment at a time. A sink is any state with an `offer`:
it accepts the segment, refuses it, or breaks down over it. The end of an
accepted append is reported later, by a signal. The simplest sink follows a
script, and never asks whether an earlier append is still under way. -/
namespace SegmentPump

inductive Refusal
  | invalidState
  | quotaExceeded (bytes : Nat)
  | closed
  deriving DecidableEq, Repr

def Refusal.message : Refusal → String
  | .invalidState => "Sink rejected append: invalid state"
  | .quotaExceeded bytes => s!"Sink quota exceeded appending {bytes} bytes"
  | .closed => "Sink closed"

inductive Reply
  | accepted
  | refused (refusal : Refusal)
  | crashed
  deriving DecidableEq, Repr

class Sink (σ : Type) where
  offer : σ → Segment → Reply × σ

structure Offer where
  segment : Segment
  reply : Reply
  deriving DecidableEq

structure Observed (σ : Type) where
  sink : σ
  offers : Line Offer := .empty

instance [Sink σ] : Sink (Observed σ) where
  offer o segment :=
    match Sink.offer o.sink segment with
    | (reply, sink) => (reply, { sink, offers := o.offers.push ⟨segment, reply⟩ })

namespace Observed

def offered (o : Observed σ) : List Segment := o.offers.toList.map Offer.segment

end Observed

inductive Cue
  | accept
  | refuse (refusal : Refusal)
  | refuseSize
  | crash
  deriving DecidableEq, Repr

def Cue.reply (segment : Segment) : Cue → Reply
  | .accept => .accepted
  | .refuse refusal => .refused refusal
  | .refuseSize => .refused (.quotaExceeded segment.size)
  | .crash => .crashed

structure Script where
  cues : List Cue := []
  deriving DecidableEq, Repr

def Script.extend (s : Script) (cues : List Cue) : Script := { cues := s.cues ++ cues }

/-- Each offer takes the next entry, and once the script has run out every offer is
accepted. -/
instance : Sink Script where
  offer s segment :=
    match s.cues with
    | [] => (.accepted, s)
    | cue :: rest => (cue.reply segment, { cues := rest })

end SegmentPump
