import SegmentPump.Proofs.Pump.Course
import SegmentPump.Proofs.Rehearsal.Walk

/-! Walks with the same bytes, one of which signals readiness three times where
the other does once. Apart from the readiness on their tapes they look alike at
every step, so that each byte picks the same move in both. -/
namespace SegmentPump

namespace Tape

def mute (t : Tape) : Tape := { t with events := .ofList t.trace.withoutReady }

@[simp] theorem muteTrace (t : Tape) : t.mute.trace = t.trace.withoutReady := Line.toListOfList _

theorem muteMute (t : Tape) : t.mute.mute = t.mute := by
  have twice : t.mute.trace.withoutReady = t.trace.withoutReady := by
    simp [Trace.withoutReady]
  rw [mute, twice]
  rfl

theorem muteRecord {e : TraceEvent} (heard : e ≠ .ready) (t : Tape) :
    (t.record e).mute = t.mute.record e := by
  have trace : (t.record e).trace.withoutReady = t.trace.withoutReady ++ [e] := by
    simp [Trace.withoutReady, trace, record, heard]
  rw [mute, trace, ← Line.pushOfList]
  rfl

theorem muteReady (t : Tape) : (t.record .ready).mute = t.mute := by
  have trace : (t.record .ready).trace.withoutReady = t.trace.withoutReady := by
    simp [Trace.withoutReady, trace, record]
  rw [mute, trace]
  rfl

theorem muteComplete (t : Tape) : t.complete.2.mute = t.mute.complete.2 := by
  have recorded := muteRecord (e := .completed) nofun t
  exact congrArg (fun t : Tape => { t with busy := false }) recorded

theorem muteOffer (t : Tape) (segment : Segment) :
    Sink.offer t.mute segment = ((Sink.offer t segment).1, (Sink.offer t segment).2.mute) := by
  have busy : t.mute.busy = t.busy := rfl
  simp only [Sink.offer, busy]
  split
  · rfl
  · split
    · rfl
    · rename_i sequence _
      have recorded := muteRecord (e := .appended sequence) nofun t
      exact congrArg (fun u : Tape => (Reply.accepted,
        { u with busy := true, payloads := t.payloads.push segment })) recorded.symm

end Tape

namespace Rehearsal

/- All but the log and the readiness on the tape. -/
def mute (r : Rehearsal) : Rehearsal := { r with pump := r.pump.withSink Tape.mute, log := .empty }

variable {r s : Rehearsal}

theorem mutePlay {mark mark' : Tape → Tape} (marks : ∀ t, (mark t).mute = mark' t.mute)
    (r : Rehearsal) (event : Event) :
    (r.play mark event).map mute = (r.mute.play mark' event).map mute := by
  have pump : r.mute.pump.mapSink mark' = (r.pump.mapSink mark).withSink Tape.mute := by
    simp [mute, Pump.mapSink, Pump.withSink, marks]
  have step : ((r.pump.mapSink mark).withSink Tape.mute).apply event =
      ((r.pump.mapSink mark).apply event).withSink Tape.mute :=
    Pump.applyWithSink Tape.muteOffer _ event
  rw [play, play, pump]
  simp only [Pump.reactPump, Pump.reactResult, step, Step.withSink]
  cases ((r.pump.mapSink mark).apply event).result with
  | error => rfl
  | ok => simp [Except.map, mute, Pump.withSink, Tape.muteMute]

theorem playFields {mark : Tape → Tape} {event : Event} {q : Rehearsal}
    (played : r.play mark event = .ok q) : q.next = r.next ∧ q.readySent = r.readySent := by
  rw [play] at played
  split at played
  · cases played
    exact ⟨rfl, rfl⟩
  · cases played

theorem alikePlay (mark mark' : Tape → Tape) (marks : ∀ t, (mark t).mute = mark' t.mute)
    (alike : r.mute = s.mute) (event : Event) :
    (r.play mark event).map mute = (s.play mark event).map mute := by
  rw [mutePlay marks, mutePlay marks, alike]

theorem alikeFields (alike : r.mute = s.mute) :
    r.next = s.next ∧ r.readySent = s.readySent ∧ r.busy = s.busy ∧ r.generator = s.generator := by
  have next := congrArg Rehearsal.next alike
  have sent := congrArg Rehearsal.readySent alike
  have busy := congrArg Rehearsal.busy alike
  have generator := congrArg Rehearsal.generator alike
  exact ⟨next, sent, busy, generator⟩

theorem alikeArrive (alike : r.mute = s.mute) (segment : Segment) :
    (r.arrive segment).map mute = (s.arrive segment).map mute := by
  have next := (alikeFields alike).1
  have later : { r with next := s.next + 1 }.mute = { s with next := s.next + 1 }.mute :=
    congrArg (fun m : Rehearsal => { m with next := s.next + 1 }) alike
  have heard : TraceEvent.arrived s.next ≠ .ready := nofun
  rw [arrive, arrive, next]
  exact alikePlay _ _ (Tape.muteRecord heard) later _

theorem alikeReady (alike : r.mute = s.mute) : (r.ready).map mute = (s.ready).map mute := by
  have later : { r with readySent := true }.mute = { s with readySent := true }.mute :=
    congrArg (fun m : Rehearsal => { m with readySent := true }) alike
  exact alikePlay _ id Tape.muteReady later _

theorem alikeComplete (alike : r.mute = s.mute) : (r.complete).map mute = (s.complete).map mute :=
  alikePlay _ (fun tape => tape.complete.2) Tape.muteComplete alike _

theorem readyAgain (going : r.Going) (sent : r.readySent = true) {q : Rehearsal}
    (ready : r.ready = .ok q) : q.mute = r.mute := by
  obtain ⟨_, faultless⟩ := going.faultless
  have intact := Pump.intactMap faultless.intact (Tape.record .ready)
  obtain ⟨ok, same⟩ := Pump.reactReadyAgain intact (going.sent.trans sent)
  rw [Rehearsal.ready, play] at ready
  simp only [ok, same] at ready
  cases ready
  simp [mute, Pump.withSink, Pump.mapSink, Tape.muteReady, sent]

end Rehearsal

namespace Walk

def next? (w : Walk) (r : Rehearsal) : List UInt8 → Option (Move × List UInt8)
  | choice :: rest => (w.pick r choice).map fun move => (move, rest)
  | [] =>
    if r.next < w.segmentCount then some (.arrive, [])
    else if !r.readySent then some (.ready, [])
    else if r.busy then some (.complete, [])
    else none

inductive Trail (w : Walk) :
    List UInt8 → Rehearsal → List Move → List Rehearsal → Rehearsal → Prop where
  | done {choices : List UInt8} {r : Rehearsal} (none : w.next? r choices = none) :
      Trail w choices r [] [] r
  | move {choices rest : List UInt8} {r q last : Rehearsal} {move : Move} {moves : List Move}
      {stages : List Rehearsal} (next : w.next? r choices = some (move, rest))
      (performed : w.perform r move = .ok q) (later : Trail w rest q moves stages last) :
      Trail w choices r (move :: moves) (r :: stages) last

variable {w : Walk} {r q last : Rehearsal} {moves : List Move} {stages : List Rehearsal}

theorem nextAllowed {choices rest : List UInt8} {move : Move}
    (next : w.next? r choices = some (move, rest)) : w.Allows r move := by
  cases choices with
  | cons choice tail =>
    obtain ⟨_, picked, same⟩ := Option.map_eq_some_iff.mp next
    cases same
    exact pickAllowed picked
  | nil =>
    simp only [next?] at next
    split at next
    case isTrue more =>
      cases next
      exact more
    split at next
    case isTrue unsent =>
      cases next
      simpa [Allows] using unsent
    split at next
    case isTrue busy =>
      cases next
      exact busy
    cases next

theorem nextStuck (stuck : w.legal r = []) (choices : List UInt8) : w.next? r choices = none := by
  cases choices with
  | cons choice rest => rw [next?, (pickNone w r choice).mpr stuck, Option.map_none]
  | nil =>
    simp only [legal, List.append_eq_nil_iff, ite_eq_right_iff, ite_eq_left_iff, List.cons_ne_nil,
      imp_false, not_not] at stuck
    simp [next?, stuck]

theorem trailFollow {choices : List UInt8} {r : Rehearsal} (follow : w.follow choices r = .ok q)
    (later : w.Trail [] q moves stages last) :
    ∃ moves stages, w.Trail choices r moves stages last := by
  induction choices generalizing r with
  | nil =>
    cases follow
    exact ⟨_, _, later⟩
  | cons choice rest ih =>
    rw [Walk.follow] at follow
    cases picked : w.pick r choice with
    | none =>
      simp only [picked] at follow
      cases follow
      have stuck := nextStuck ((pickNone w _ choice).mp picked)
      cases later with
      | done => exact ⟨_, _, .done (stuck _)⟩
      | move next =>
        rw [stuck] at next
        cases next
    | some move =>
      have next : w.next? r (choice :: rest) = some (move, rest) := by
        rw [next?, picked, Option.map_some]
      cases performed : w.perform r move with
      | error => simp [picked, performed] at follow
      | ok first =>
        simp only [picked, performed] at follow
        obtain ⟨moves, stages, trail⟩ := ih follow
        exact ⟨_, _, .move next performed trail⟩

theorem trailArrive {count : Nat} {r : Rehearsal} (arrive : w.arriveAll count r = .ok q)
    (left : r.next + count = w.segmentCount) (later : w.Trail [] q moves stages last) :
    ∃ moves stages, w.Trail [] r moves stages last := by
  induction count generalizing r with
  | zero =>
    cases arrive
    exact ⟨_, _, later⟩
  | succ count ih =>
    rw [arriveAll] at arrive
    cases performed : w.perform r .arrive with
    | error => simp [performed] at arrive
    | ok first =>
      simp only [performed] at arrive
      have next : first.next = r.next + 1 := (Rehearsal.playFields performed).1
      obtain ⟨moves, stages, trail⟩ := ih arrive (by omega)
      exact ⟨_, _, .move (by rw [next?, if_pos (by omega)]) performed trail⟩

theorem trailReady (signal : (if r.readySent then .ok r else w.perform r .ready) = .ok q)
    (all : r.next = w.segmentCount) (later : w.Trail [] q moves stages last) :
    ∃ moves stages, w.Trail [] r moves stages last := by
  by_cases sent : r.readySent = true
  · rw [if_pos sent] at signal
    cases signal
    exact ⟨_, _, later⟩
  · rw [if_neg sent] at signal
    exact ⟨_, _, .move (by simp [next?, all, sent]) signal later⟩

theorem trailDone (all : r.next = w.segmentCount) (sent : r.readySent = true)
    (idle : ¬ r.busy = true) : w.Trail [] r [] [] r :=
  .done (by simp [next?, all, sent, idle])

theorem trailComplete {fuel : Nat} {r : Rehearsal} (complete : w.completeAll fuel r = .ok last)
    (all : r.next = w.segmentCount) (sent : r.readySent = true) :
    ∃ moves stages, w.Trail [] r moves stages last := by
  induction fuel generalizing r with
  | zero =>
    unfold completeAll at complete
    split at complete
    case isTrue => cases complete
    case isFalse idle =>
      cases complete
      exact ⟨_, _, trailDone all sent idle⟩
  | succ fuel ih =>
    unfold completeAll at complete
    split at complete
    case isFalse idle =>
      cases complete
      exact ⟨_, _, trailDone all sent idle⟩
    case isTrue busy =>
      cases performed : w.perform r .complete with
      | error => simp [performed] at complete
      | ok first =>
        simp only [performed] at complete
        obtain ⟨next, still⟩ : first.next = r.next ∧ first.readySent = r.readySent := by
          rw [perform, if_pos busy] at performed
          exact Rehearsal.playFields performed
        obtain ⟨moves, stages, trail⟩ := ih complete (next.trans all) (still.trans sent)
        exact ⟨_, _, .move (by simp [next?, all, sent, busy]) performed trail⟩

theorem ran (fits : w.segmentCount ≤ 256 ^ Header.size) (choices : List UInt8) :
    ∃ moves stages last, w.Trail choices start moves stages last ∧
      w.run choices = .ok last.trace := by
  obtain ⟨walked, follow, sound⟩ := followed fits choices (soundStart w)
  have left := Nat.add_sub_of_le sound.bound
  obtain ⟨full, arrive, sound, all⟩ := allArrive fits (w.segmentCount - walked.next) sound left
  obtain ⟨signalled, signal, sound, next, sent⟩ := readied sound
  obtain ⟨last, sound, -, sent', idle, ends⟩ := allComplete _ sound sent rfl
  have finished := Rehearsal.goingFinished sound.going sent' idle
  have empty : last.pump.backlog.isEmpty = true := (Bool.and_eq_true_iff.mp finished.drained).1
  have line : signalled.pump.waiting.length = signalled.pump.backlog.size :=
    (Backlog.sizeToList _).symm
  have complete := ends (signalled.pump.backlog.size + 1)
  rw [line, if_pos (Nat.add_le_add_left (Bool.toNat_le _) _)] at complete
  have finish := finishes arrive signal complete empty
  obtain ⟨_, _, trail⟩ := trailComplete complete (next.trans all) sent
  obtain ⟨_, _, trail⟩ := trailReady signal all trail
  obtain ⟨_, _, trail⟩ := trailArrive arrive left trail
  obtain ⟨moves, stages, trail⟩ := trailFollow follow trail
  exact ⟨moves, stages, last, trail, by simp only [run, follow, finish, bind, Except.bind]⟩

variable {w v : Walk} {s : Rehearsal}

theorem signalsAgain (times : Nat) {r : Rehearsal} (going : r.Going) (sent : r.readySent = true)
    {q : Rehearsal} (signal : signalReady times r = .ok q) : q.mute = r.mute := by
  induction times generalizing r with
  | zero =>
    cases signal
    rfl
  | succ times ih =>
    obtain ⟨first, ready, moved⟩ := Rehearsal.readies going
    rw [signalReady, ready] at signal
    have still : first.readySent = true := by simp [moved.sent]
    exact (ih moved.going still signal).trans (Rehearsal.readyAgain going sent ready)

theorem readyOnce (going : r.Going) {q : Rehearsal} (performed : w.perform r .ready = .ok q) :
    ∃ first, r.ready = .ok first ∧ q.mute = first.mute := by
  obtain ⟨times, count⟩ : ∃ times, (if w.repeatReady then 3 else 1) = times + 1 := by
    cases w.repeatReady
    · exact ⟨0, rfl⟩
    · exact ⟨2, rfl⟩
  obtain ⟨first, ready, moved⟩ := Rehearsal.readies going
  rw [perform, count, signalReady, ready] at performed
  exact ⟨first, ready, signalsAgain times moved.going (by simp [moved.sent]) performed⟩

theorem alikePerform (going : r.Going) (going' : s.Going) (alike : r.mute = s.mute) {move : Move}
    {q q' : Rehearsal} (performed : w.perform r move = .ok q)
    (performed' : v.perform s move = .ok q') : q.mute = q'.mute := by
  obtain ⟨next, -, busy, generator⟩ := Rehearsal.alikeFields alike
  cases move with
  | arrive =>
    have draw : Segment.simulated r.next payloadSize r.generator =
        Segment.simulated s.next payloadSize s.generator := by rw [next, generator]
    simp only [perform, draw] at performed performed'
    generalize Segment.simulated s.next payloadSize s.generator = drawn at performed performed'
    have later : { r with generator := drawn.2 }.mute = { s with generator := drawn.2 }.mute :=
      congrArg (fun m : Rehearsal => { m with generator := drawn.2 }) alike
    have same := Rehearsal.alikeArrive later drawn.1
    rw [performed, performed'] at same
    exact Except.ok.inj same
  | ready =>
    obtain ⟨first, ready, once⟩ := readyOnce going performed
    obtain ⟨first', ready', once'⟩ := readyOnce going' performed'
    have same := Rehearsal.alikeReady alike
    rw [ready, ready'] at same
    rw [once, once']
    exact Except.ok.inj same
  | complete =>
    have same := Rehearsal.alikeComplete alike
    by_cases free : s.busy = true
    · rw [perform, busy, if_pos free] at performed
      rw [perform, if_pos free] at performed'
      rw [performed, performed'] at same
      exact Except.ok.inj same
    · rw [perform, if_neg free] at performed'
      cases performed'

theorem alikeLegal (same : w.segmentCount = v.segmentCount) (alike : r.mute = s.mute) :
    w.legal r = v.legal s := by
  obtain ⟨next, sent, busy, -⟩ := Rehearsal.alikeFields alike
  rw [legal, legal, same, next, sent, busy]

theorem alikeNext (same : w.segmentCount = v.segmentCount) (alike : r.mute = s.mute)
    (choices : List UInt8) : w.next? r choices = v.next? s choices := by
  obtain ⟨next, sent, busy, -⟩ := Rehearsal.alikeFields alike
  cases choices with
  | nil => rw [next?, next?, same, next, sent, busy]
  | cons choice rest => rw [next?, next?, pick, pick, alikeLegal same alike]

theorem alikeTrails (fits : w.segmentCount ≤ 256 ^ Header.size)
    (same : w.segmentCount = v.segmentCount) {choices : List UInt8} {moves moves' : List Move}
    {stages stages' : List Rehearsal} {last last' : Rehearsal} (sound : w.Sound r)
    (sound' : v.Sound s) (alike : r.mute = s.mute) (trail : w.Trail choices r moves stages last)
    (trail' : v.Trail choices s moves' stages' last') :
    moves = moves' ∧ stages.map Rehearsal.mute = stages'.map Rehearsal.mute ∧
      stages.map w.legal = stages'.map v.legal ∧ last.mute = last'.mute := by
  induction trail generalizing s moves' stages' with
  | done none =>
    rw [alikeNext same alike] at none
    cases trail' with
    | done => exact ⟨rfl, rfl, rfl, alike⟩
    | move next =>
      rw [none] at next
      cases next
  | move next performed later ih =>
    have allowed := nextAllowed next
    rw [alikeNext same alike] at next
    cases trail' with
    | done none =>
      rw [none] at next
      cases next
    | move next' performed' later' =>
      rw [next'] at next
      cases next
      obtain ⟨_, made, after⟩ := performs fits sound allowed
      obtain ⟨_, made', after'⟩ := performs (same ▸ fits) sound' (nextAllowed next')
      cases performed.symm.trans made
      cases performed'.symm.trans made'
      have still := alikePerform sound.going sound'.going alike performed performed'
      obtain ⟨rfl, stages, legal, last⟩ := ih after after' still later'
      exact ⟨rfl, by rw [List.map_cons, List.map_cons, alike, stages],
        by rw [List.map_cons, List.map_cons, alikeLegal same alike, legal], last⟩

theorem repeatsUnnoticed (segmentCount : UInt64) (choices : List UInt8) :
    let once : Walk := { segmentCount := segmentCount.toNat, repeatReady := false }
    let thrice : Walk := { segmentCount := segmentCount.toNat, repeatReady := true }
    ∃ moves stages stages' last last', once.Trail choices start moves stages last ∧
      thrice.Trail choices start moves stages' last' ∧
      stages.map Rehearsal.mute = stages'.map Rehearsal.mute ∧
      stages.map once.legal = stages'.map thrice.legal ∧ last.mute = last'.mute ∧
      once.run choices = .ok last.trace ∧ thrice.run choices = .ok last'.trace ∧
      last.trace.withoutReady = last'.trace.withoutReady := by
  intro once thrice
  have fits : segmentCount.toNat ≤ 256 ^ Header.size := Nat.le_of_lt segmentCount.toNat_lt
  obtain ⟨moves, stages, last, trail, run⟩ := ran (w := once) fits choices
  obtain ⟨moves', stages', last', trail', run'⟩ := ran (w := thrice) fits choices
  obtain ⟨rfl, same, legal, alike⟩ :=
    alikeTrails (w := once) (v := thrice) fits rfl (soundStart once) (soundStart thrice) rfl trail trail'
  have tapes := congrArg Rehearsal.trace alike
  exact ⟨moves, stages, stages', last, last', trail, trail', same, legal, alike, run, run',
    (Tape.muteTrace _).symm.trans (tapes.trans (Tape.muteTrace _))⟩

end Walk
end SegmentPump
