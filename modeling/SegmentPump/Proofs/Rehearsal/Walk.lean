import SegmentPump.Proofs.Rehearsal.Going
import SegmentPump.Proofs.Simulation.Numbering
import SegmentPump.Rehearsal.Walk

/-! A walk completes, whatever its bytes pick and wherever they run out: a sound
rehearsal is brought to its end from every state. -/
namespace SegmentPump

namespace Walk

variable {w : Walk} {r : Rehearsal}

def signals (w : Walk) : Nat := if w.repeatReady then 3 else 1

structure Sound (w : Walk) (r : Rehearsal) : Prop where
  going : r.Going
  bound : r.next ≤ w.segmentCount
  readies : r.trace.count .ready = if r.readySent then w.signals else 0

def Allows (w : Walk) (r : Rehearsal) : Move → Prop
  | .arrive => r.next < w.segmentCount
  | .ready => r.readySent = false
  | .complete => r.busy = true

theorem soundStart (w : Walk) : w.Sound start where
  going := Rehearsal.goingNew _ _
  bound := Nat.zero_le _
  readies := rfl

theorem pickNone (w : Walk) (r : Rehearsal) (choice : UInt8) :
    w.pick r choice = none ↔ w.legal r = [] := by
  rw [pick, List.getElem?_eq_none_iff]
  constructor
  · intro outside
    by_contra more
    exact absurd (Nat.mod_lt choice.toNat (List.length_pos_iff.mpr more)) (Nat.not_lt.mpr outside)
  · intro empty
    rw [empty]
    exact Nat.zero_le _

theorem pickAllowed {choice : UInt8} {move : Move} (picked : w.pick r choice = some move) :
    w.Allows r move := by
  have member : move ∈ w.legal r := List.mem_of_getElem? picked
  simp only [legal, List.mem_append, List.mem_ite_nil_right, List.mem_ite_nil_left,
    List.mem_singleton] at member
  rcases member with (⟨more, rfl⟩ | ⟨unsent, rfl⟩) | ⟨busy, rfl⟩
  · exact more
  · exact eq_false_of_ne_true unsent
  · exact busy

theorem performArrive (fits : w.segmentCount ≤ 256 ^ Header.size) (sound : w.Sound r)
    (more : r.next < w.segmentCount) :
    ∃ q, w.perform r .arrive = .ok q ∧ w.Sound q ∧ q.next = r.next + 1 := by
  have number := Segment.simulatedSequence r.next payloadSize r.generator
  rw [Nat.mod_eq_of_lt (Nat.lt_of_lt_of_le more fits)] at number
  obtain ⟨q, arrive, moved⟩ := Rehearsal.arrives sound.going
    (Segment.simulated r.next payloadSize r.generator).2 number
  refine ⟨q, arrive, { going := moved.going, bound := ?_, readies := ?_ }, moved.next⟩
  · rw [moved.next]
    exact more
  · obtain ⟨sent, readies⟩ := Rehearsal.movedSilent moved nofun
    rw [readies, sent, sound.readies]

theorem performComplete (sound : w.Sound r) (busy : r.busy = true) :
    ∃ q, w.perform r .complete = .ok q ∧ w.Sound q ∧ r.Moved .complete q := by
  obtain ⟨q, complete, moved⟩ := Rehearsal.completes sound.going busy
  refine ⟨q, by rw [perform, if_pos busy, complete],
    { going := moved.going, bound := ?_, readies := ?_ }, moved⟩
  · rw [moved.next]
    exact sound.bound
  · obtain ⟨sent, readies⟩ := Rehearsal.movedSilent moved nofun
    rw [readies, sent, sound.readies]

theorem signalled (times : Nat) {r : Rehearsal} (going : r.Going) :
    ∃ q, signalReady times r = .ok q ∧ q.Going ∧ q.next = r.next ∧
      q.readySent = (r.readySent || decide (0 < times)) ∧
      q.trace.count .ready = r.trace.count .ready + times := by
  induction times generalizing r with
  | zero => exact ⟨r, rfl, going, rfl, by simp, rfl⟩
  | succ times ih =>
    obtain ⟨first, ready, moved⟩ := Rehearsal.readies going
    obtain ⟨q, rest, after, next, sent, readies⟩ := ih moved.going
    refine ⟨q, by rw [signalReady, ready]; exact rest, after, next.trans moved.next, ?_, ?_⟩
    · rw [sent, moved.sent]
      simp
    · rw [readies, Rehearsal.movedCount moved rfl]
      simp
      omega

theorem performReady (sound : w.Sound r) (unsent : r.readySent = false) :
    ∃ q, w.perform r .ready = .ok q ∧ w.Sound q ∧ q.next = r.next ∧ q.readySent = true := by
  obtain ⟨q, ready, going, next, sent, readies⟩ := signalled w.signals sound.going
  have positive : 0 < w.signals := by
    rw [signals]
    split <;> decide
  have on : q.readySent = true := by simp [sent, positive]
  refine ⟨q, ready, { going, bound := next ▸ sound.bound, readies := ?_ }, next, on⟩
  rw [readies, sound.readies, unsent, on]
  simp

theorem performs (fits : w.segmentCount ≤ 256 ^ Header.size) (sound : w.Sound r) {move : Move}
    (allowed : w.Allows r move) : ∃ q, w.perform r move = .ok q ∧ w.Sound q := by
  cases move with
  | arrive =>
    obtain ⟨q, performed, after, _⟩ := performArrive fits sound allowed
    exact ⟨q, performed, after⟩
  | ready =>
    obtain ⟨q, performed, after, _⟩ := performReady sound allowed
    exact ⟨q, performed, after⟩
  | complete =>
    obtain ⟨q, performed, after, _⟩ := performComplete sound allowed
    exact ⟨q, performed, after⟩

theorem followed (fits : w.segmentCount ≤ 256 ^ Header.size) (choices : List UInt8) {r : Rehearsal}
    (sound : w.Sound r) : ∃ q, w.follow choices r = .ok q ∧ w.Sound q := by
  induction choices generalizing r with
  | nil => exact ⟨r, rfl, sound⟩
  | cons choice rest ih =>
    rw [follow]
    cases picked : w.pick r choice with
    | none => exact ⟨r, rfl, sound⟩
    | some move =>
      obtain ⟨first, performed, after⟩ := performs fits sound (pickAllowed picked)
      simpa only [performed] using ih after

theorem allArrive (fits : w.segmentCount ≤ 256 ^ Header.size) (count : Nat) {r : Rehearsal}
    (sound : w.Sound r) (left : r.next + count = w.segmentCount) :
    ∃ q, w.arriveAll count r = .ok q ∧ w.Sound q ∧ q.next = w.segmentCount := by
  induction count generalizing r with
  | zero => exact ⟨r, rfl, sound, left⟩
  | succ count ih =>
    obtain ⟨first, performed, after, next⟩ := performArrive fits sound (by omega)
    rw [arriveAll, performed]
    exact ih after (by omega)

/- Each completion frees the slot for the next in line, so that what is left of
the run is the line and the append under way. -/
theorem allComplete (left : Nat) {r : Rehearsal} (sound : w.Sound r) (sent : r.readySent = true)
    (remaining : r.pump.waiting.length + r.busy.toNat = left) :
    ∃ q, w.Sound q ∧ q.next = r.next ∧ q.readySent = true ∧ q.busy = false ∧
      ∀ fuel, w.completeAll fuel r = if left ≤ fuel then .ok q else .error .unfinished := by
  induction left generalizing r with
  | zero =>
    have idle : r.busy = false := by
      cases busy : r.busy with
      | false => rfl
      | true => simp [busy] at remaining
    refine ⟨r, sound, rfl, sent, idle, fun fuel => ?_⟩
    unfold completeAll
    simp [idle]
  | succ left ih =>
    have busy : r.busy = true := by
      by_contra idle
      rw [Bool.not_eq_true] at idle
      rw [Rehearsal.goingRested sound.going sent idle, idle] at remaining
      cases remaining
    obtain ⟨first, performed, after, moved⟩ := performComplete sound busy
    have before := Rehearsal.goingShare sound.going
    have share := Rehearsal.goingShare moved.going
    have completed : first.trace.count .completed = r.trace.count .completed + 1 :=
      Rehearsal.movedCount moved rfl
    have next : first.next = r.next := moved.next
    obtain ⟨q, last, same, on, idle, ends⟩ := ih after (by simp [moved.sent, sent]) (by omega)
    refine ⟨q, last, same.trans next, on, idle, fun fuel => ?_⟩
    unfold completeAll
    rw [if_pos busy]
    cases fuel with
    | zero => simp
    | succ fuel => simpa [performed] using ends fuel

theorem readied (sound : w.Sound r) :
    ∃ q, (if r.readySent then .ok r else w.perform r .ready) = .ok q ∧ w.Sound q ∧
      q.next = r.next ∧ q.readySent = true := by
  by_cases sent : r.readySent = true
  · exact ⟨r, if_pos sent, sound, rfl, sent⟩
  · rw [if_neg sent]
    exact performReady sound (eq_false_of_ne_true sent)

theorem finishes {walked full signalled last : Rehearsal}
    (arrive : w.arriveAll (w.segmentCount - walked.next) walked = .ok full)
    (signal : (if full.readySent then .ok full else w.perform full .ready) = .ok signalled)
    (complete : w.completeAll (signalled.pump.backlog.size + 1) signalled = .ok last)
    (empty : last.pump.backlog.isEmpty = true) : w.finish walked = .ok last := by
  by_cases sent : full.readySent = true
  · rw [if_pos sent] at signal
    cases signal
    simp [finish, arrive, sent, complete, empty, bind, Except.bind]
  · rw [if_neg sent] at signal
    simp [finish, arrive, sent, signal, complete, empty, bind, Except.bind]

theorem everyWalkCompletes (w : Walk) (fits : w.segmentCount ≤ 256 ^ Header.size)
    (choices : List UInt8) :
    (∀ r choice, w.pick r choice = none ↔ w.legal r = []) ∧
      ∃ walked full signalled last, w.follow choices start = .ok walked ∧
        w.arriveAll (w.segmentCount - walked.next) walked = .ok full ∧
        full.next = w.segmentCount ∧
        (if full.readySent then .ok full else w.perform full .ready) = .ok signalled ∧
        (∀ fuel, w.completeAll fuel signalled =
          if signalled.pump.backlog.size + signalled.busy.toNat ≤ fuel then .ok last
          else .error .unfinished) ∧
        w.finish walked = .ok last ∧ w.run choices = .ok last.trace ∧
        last.trace.violations = [] ∧
        last.trace.arrived = List.range w.segmentCount ∧
        last.trace.appended = List.range w.segmentCount ∧
        last.trace.count .completed = w.segmentCount ∧
        last.trace.count .ready = (if w.repeatReady then 3 else 1) ∧
        last.busy = false ∧ last.pump.drained = true := by
  obtain ⟨walked, follow, sound⟩ := followed fits choices (soundStart w)
  obtain ⟨full, arrive, sound, all⟩ :=
    allArrive fits (w.segmentCount - walked.next) sound (Nat.add_sub_of_le sound.bound)
  obtain ⟨signalled, signal, sound, next, sent⟩ := readied sound
  obtain ⟨last, sound, same, sent, idle, ends⟩ := allComplete _ sound sent rfl
  rw [← show signalled.pump.backlog.size = signalled.pump.waiting.length from
    Backlog.sizeToList _] at ends
  have finished := Rehearsal.goingFinished sound.going sent idle
  rw [same, next, all] at finished
  have readies := sound.readies
  rw [sent, if_pos rfl, signals] at readies
  have empty : last.pump.backlog.isEmpty = true := (Bool.and_eq_true_iff.mp finished.drained).1
  have enough := ends (signalled.pump.backlog.size + 1)
  rw [if_pos (Nat.add_le_add_left (Bool.toNat_le _) _)] at enough
  have finish := finishes arrive signal enough empty
  have run : w.run choices = .ok last.trace := by
    simp only [run, follow, finish, bind, Except.bind]
  exact ⟨pickNone w, walked, full, signalled, last, follow, arrive, all, signal, ends, finish, run,
    finished.violations, finished.arrived, finished.appended, finished.completed, readies, idle,
    finished.drained⟩

theorem everyWalkCompletesRepeated :
    let w : Walk := { segmentCount := 2, repeatReady := true }
    w.segmentCount ≤ 256 ^ Header.size ∧
      ∃ trace, w.run [2, 255] = .ok trace ∧ trace.violations = [] ∧ trace.appended = [0, 1] ∧
        trace.count .ready = 3 := by
  intro w
  have fits : w.segmentCount ≤ 256 ^ Header.size := by decide
  obtain ⟨_, _, _, _, last, _, _, _, _, _, _, run, violations, _, appended, _, readies, _⟩ :=
    everyWalkCompletes w fits [2, 255]
  exact ⟨fits, last.trace, run, violations, appended, readies⟩

end Walk
end SegmentPump
