import SegmentPump.Proofs.Session.Refinement

/-! When the worker of a session is let run makes no difference to anybody. Two
sessions that are used in the same way, and whose workers run at whatever points
between the uses, stay `Abreast`: both follow the same commands, sent or refused.
A worker that runs less often can only leave the mailbox open for longer. -/
namespace SegmentPump

variable {σ : Type}

def Use.holders (holders : Nat) : Use → Nat
  | .retain | .ask _ => holders + 1
  | .release => holders - 1
  | _ => holders

def Use.tickets (next : Ticket) : Use → Ticket
  | .ask _ => next + 1
  | _ => next

/- Uses of a session by somebody who holds it: whoever has given up every handle
can do nothing more. -/
inductive Held : Nat → List Use → Prop where
  | none (holders : Nat) : Held holders []
  | use {holders : Nat} {u : Use} {rest : List Use} (holding : holders ≠ 0)
      (outside : u ≠ .turn ∧ u ≠ .settle) (later : Held (u.holders holders) rest) :
      Held holders (u :: rest)

namespace Session

def sending (s : Session σ) (u : Use) : Option (Except SessionError Unit) :=
  (u.command? s.nextTicket).map fun c => (s.send c).map fun _ => ()

variable [Sink σ]

def pause (s : Session σ) (runs : Bool) : Session σ := if runs then s.settle else s

/- Lets the worker run before those uses whose places are among the points, and
at the end. -/
def play (points : Nat → Bool) (place : Nat) (s : Session σ) : List Use → Session σ
  | [] => s.settle
  | u :: rest => play points (place + 1) ((s.pause (points place)).use u) rest

def sendings (points : Nat → Bool) (place : Nat) (s : Session σ) :
    List Use → List (Option (Except SessionError Unit))
  | [] => []
  | u :: rest =>
    let s := s.pause (points place)
    s.sending u :: sendings points (place + 1) (s.use u) rest

/- A session that has not retired. What it refuses changes nothing any more. -/
structure Tracks (start : Worker σ) (commands : List Command) (s : Session σ) : Prop where
  follows : Follows start commands s
  kept : (start.run commands).ending = none → s.ending = none

variable {start : Worker σ} {commands : List Command} {s : Session σ}

theorem tracksNew (sink : σ) (warnDepth : Nat) :
    Tracks { pump := .new sink warnDepth } [] (new sink warnDepth) :=
  ⟨followsNew sink warnDepth, fun _ => rfl⟩

theorem tracksUse (tracks : Tracks start commands s) {u : Use}
    (outside : u ≠ .turn ∧ u ≠ .settle) :
    Tracks start (commands ++ (u.command? s.nextTicket).toList) (s.use u) := by
  obtain ⟨worker, answers, ending, mailbox⟩ := useOutside s outside
  cases tracks.follows with
  | running _ _ goes =>
    rw [← postedRunning goes u]
    exact ⟨followsUse tracks.follows u, fun _ => ending.trans goes⟩
  | ended ran fell ends =>
    have same := Worker.runCut fell (u.command? s.nextTicket).toList
    have still : Ran start (commands ++ (u.command? s.nextTicket).toList) (s.use u) := by
      constructor
      · rw [same, worker, ran.worker]
      · rw [same, answers, ran.answers]
    refine ⟨.ended still (same ▸ fell) (ending.trans ends), fun on => ?_⟩
    rw [same, fell] at on
    cases on
  | retired _ on ends =>
    rw [tracks.kept on] at ends
    cases ends

theorem tracksServe (tracks : Tracks start commands s) : Tracks start commands s.serve := by
  refine ⟨followsServe tracks.follows, fun on => ?_⟩
  have goes := tracks.kept on
  cases tracks.follows with
  | ended _ _ ends => rw [goes] at ends; cases ends
  | retired _ _ ends => rw [goes] at ends; cases ends
  | @running handled ran before _ split =>
    cases mailbox : s.mailbox.toList with
    | nil => rw [serveIdle mailbox, goes]
    | cons c rest =>
      have turn := (ranTurn ran before c (.ofList rest)).2
      have whole : handled ++ [c] ++ rest = commands := by simp [← split, mailbox]
      rw [serveHead goes mailbox]
      exact turn.symm.trans (Worker.runGoesOn (whole ▸ on))

theorem tracksServeAll (tracks : Tracks start commands s) (count : Nat) :
    Tracks start commands (s.serveAll count) := by
  induction count generalizing s with
  | zero => exact tracks
  | succ count ih => exact ih (tracksServe tracks)

omit [Sink σ] in
theorem startEnding (s : Session σ) : s.start.ending = s.ending := by
  unfold Session.start
  split <;> rfl

theorem settledEnding (tracks : Tracks start commands s) :
    s.settle.ending =
      match (start.run commands).ending with
      | some fate => some fate
      | none =>
        if s.holders = 0 then some (.stopped (start.run commands).worker.pump.stats) else none := by
  have rested := restedSettle tracks.follows
  have holders := (handsSettle s).2
  cases fell : (start.run commands).ending with
  | some fate =>
    rcases rested.fate with same | ⟨on, _⟩
    · exact same.trans fell
    · rw [on] at fell
      cases fell
  | none =>
    by_cases alone : s.holders = 0
    case pos =>
      rcases rested.fate with same | ⟨_, stopped⟩
      · exact absurd (holders.trans alone) (rested.held (same.trans fell))
      · simp only [if_pos alone, stopped, rested.ran.worker]
    case neg =>
      have begun : Tracks start commands s.start :=
        ⟨followsStart tracks.follows, fun on => (startEnding s).trans (tracks.kept on)⟩
      have served := tracksServeAll begun s.start.mailbox.size
      have holders := (handsServeAll s.start.mailbox.size s.start).2.trans (handsStart s).2
      simp only [if_neg alone, settle]
      rw [retireIf, if_neg fun retires => alone (holders.symm.trans retires.2.1), served.kept fell]

theorem settleOpen (tracks : Tracks start commands s) (running : s.settle.ending = none) :
    s.ending = none := by
  rw [settledEnding tracks] at running
  split at running
  · cases running
  · next on => exact tracks.kept on

theorem tracksPause (tracks : Tracks start commands s) (held : s.holders ≠ 0) (runs : Bool) :
    Tracks start commands (s.pause runs) ∧ (s.pause runs).holders = s.holders ∧
      (s.pause runs).nextTicket = s.nextTicket := by
  obtain ⟨tickets, holders⟩ := handsSettle s
  cases runs with
  | false => exact ⟨tracks, rfl, rfl⟩
  | true =>
    refine ⟨⟨followsSettle tracks.follows, fun on => ?_⟩, holders, tickets⟩
    rw [pause, if_pos rfl, settledEnding tracks, on]
    exact if_neg held

theorem handsUse (s : Session σ) {u : Use} (outside : u ≠ .turn ∧ u ≠ .settle) :
    (s.use u).holders = u.holders s.holders ∧ (s.use u).nextTicket = u.tickets s.nextTicket := by
  cases ending : s.ending with
  | none =>
    cases u <;> simp [use, Use.holders, Use.tickets, retain, release, tellRunning, askRunning,
      ending] at outside ⊢
  | some fate =>
    cases u <;> simp [use, Use.holders, Use.tickets, retain, release, tellClosed ending,
      askClosed ending] at outside ⊢

structure Abreast (start : Worker σ) (commands : List Command) (p q : Session σ) : Prop where
  left : Tracks start commands p
  right : Tracks start commands q
  holders : q.holders = p.holders
  tickets : q.nextTicket = p.nextTicket

variable {p q : Session σ}

theorem abreastPause (abreast : Abreast start commands p q) (held : p.holders ≠ 0)
    (runs others : Bool) : Abreast start commands (p.pause runs) (q.pause others) := by
  obtain ⟨left, holders, tickets⟩ := tracksPause abreast.left held runs
  obtain ⟨right, holders', tickets'⟩ := tracksPause abreast.right (abreast.holders ▸ held) others
  refine ⟨left, right, ?_, ?_⟩
  · rw [holders', holders, abreast.holders]
  · rw [tickets', tickets, abreast.tickets]

theorem abreastUse (abreast : Abreast start commands p q) {u : Use}
    (outside : u ≠ .turn ∧ u ≠ .settle) :
    Abreast start (commands ++ (u.command? p.nextTicket).toList) (p.use u) (q.use u) := by
  obtain ⟨holders, tickets⟩ := handsUse p outside
  obtain ⟨holders', tickets'⟩ := handsUse q outside
  refine ⟨tracksUse abreast.left outside, ?_, ?_, ?_⟩
  · rw [← abreast.tickets]
    exact tracksUse abreast.right outside
  · rw [holders', holders, abreast.holders]
  · rw [tickets', tickets, abreast.tickets]

theorem abreastSettle (abreast : Abreast start commands p q) :
    p.settle.worker = q.settle.worker ∧ p.settle.answers.toList = q.settle.answers.toList ∧
      p.settle.ending = q.settle.ending := by
  have left := (restedSettle abreast.left.follows).ran
  have right := (restedSettle abreast.right.follows).ran
  refine ⟨left.worker.trans right.worker.symm, left.answers.trans right.answers.symm, ?_⟩
  rw [settledEnding abreast.left, settledEnding abreast.right, abreast.holders]

theorem abreastPlay (abreast : Abreast start commands p q) {ops : List Use}
    (held : Held p.holders ops) (points others : Nat → Bool) (place : Nat) :
    (p.play points place ops).worker = (q.play others place ops).worker ∧
      (p.play points place ops).answers.toList = (q.play others place ops).answers.toList ∧
      (p.play points place ops).ending = (q.play others place ops).ending := by
  induction ops generalizing commands p q place with
  | nil => exact abreastSettle abreast
  | cons u rest ih =>
    cases held with
    | use holding outside later =>
      have paused := abreastPause abreast holding (points place) (others place)
      refine ih (abreastUse paused outside) ?_ (place + 1)
      rwa [(handsUse _ outside).1, (tracksPause abreast.left holding (points place)).2.1]

omit [Sink σ] in
theorem sendingOk {s : Session σ} {u : Use} :
    s.sending u = some (.ok ()) ↔ u.command? s.nextTicket ≠ none ∧ s.ending = none := by
  rw [sending]
  cases ending : s.ending <;> cases u.command? s.nextTicket <;> simp [send, ending, Except.map]

theorem pauseAhead (abreast : Abreast start commands p q) (ahead : p.ending = none → q.ending = none)
    {runs others : Bool} (fewer : others = true → runs = true)
    (running : (p.pause runs).ending = none) : (q.pause others).ending = none := by
  cases others with
  | true =>
    rw [fewer rfl] at running
    exact (abreastSettle abreast).2.2.symm.trans running
  | false =>
    cases runs with
    | true => exact ahead (settleOpen abreast.left running)
    | false => exact ahead running

theorem abreastSendings (abreast : Abreast start commands p q)
    (ahead : p.ending = none → q.ending = none) {ops : List Use} (held : Held p.holders ops)
    {points others : Nat → Bool} (fewer : ∀ place, others place = true → points place = true)
    (place : Nat) :
    List.Forall₂ (fun more fewer => more = some (.ok ()) → fewer = some (.ok ()))
      (p.sendings points place ops) (q.sendings others place ops) := by
  induction ops generalizing commands p q place with
  | nil => exact .nil
  | cons u rest ih =>
    cases held with
    | use holding outside later =>
      have paused := abreastPause abreast holding (points place) (others place)
      have running := pauseAhead abreast ahead (fewer place)
      refine .cons ?_ (ih (abreastUse paused outside) ?_ ?_ (place + 1))
      · rw [sendingOk, sendingOk, paused.tickets]
        exact fun ⟨command, more⟩ => ⟨command, running more⟩
      · rw [(useOutside _ outside).2.2.1, (useOutside _ outside).2.2.1]
        exact running
      · rwa [(handsUse _ outside).1, (tracksPause abreast.left holding (points place)).2.1]

/- Calls are refused or left unanswered according to the pace, and come to the
same in the end. -/
theorem pacesAgree (sink : σ) (warnDepth : Nat) {ops : List Use} (held : Held 1 ops)
    (points others : Nat → Bool) :
    let begun := Session.new ({ sink } : Observed σ) warnDepth
    let left := begun.play points 0 ops
    let right := begun.play others 0 ops
    left.worker.pump.sink.offers = right.worker.pump.sink.offers ∧ left.join = right.join ∧
      (∀ ticket, left.outcome ticket = right.outcome ticket) ∧
      ((∀ place, others place = true → points place = true) →
        List.Forall₂ (fun more fewer => more = some (.ok ()) → fewer = some (.ok ()))
          (begun.sendings points 0 ops) (begun.sendings others 0 ops)) := by
  intro begun left right
  have abreast : Abreast { pump := .new ({ sink } : Observed σ) warnDepth } [] begun begun :=
    ⟨tracksNew _ _, tracksNew _ _, rfl, rfl⟩
  obtain ⟨worker, answers, ending⟩ := abreastPlay abreast held points others 0
  refine ⟨congrArg (fun w => w.pump.sink.offers) worker, congrArg (Option.map Ending.outcome) ending,
    fun ticket => ?_, fun fewer => abreastSendings abreast id held fewer 0⟩
  rw [outcome, outcome, answers, isRunning, isRunning, ending]

/- A worker that runs at once refuses what comes after the shutdown. One that
waits takes it and loses it. -/
theorem pacesAgreeShutdown :
    let ops : List Use := [.ask .shutdown, .deliver ⟨⟨#[1]⟩⟩, .ask .stats]
    let begun := Session.new ({ sink := ({} : Script) } : Observed Script) 4
    Held 1 ops ∧ begun.sendings (fun _ => true) 0 ops =
        [some (.ok ()), some (.error .closed), some (.error .closed)] ∧
      begun.sendings (fun _ => false) 0 ops = [some (.ok ()), some (.ok ()), some (.ok ())] ∧
      (begun.play (fun _ => true) 0 ops).outcome 1 = (begun.play (fun _ => false) 0 ops).outcome 1 := by
  intro ops begun
  have held : Held 1 ops :=
    .use (by decide) (by decide) (.use (by decide) (by decide)
      (.use (by decide) (by decide) (.none _)))
  exact ⟨held, by decide, by decide, (pacesAgree ({} : Script) 4 held _ _).2.2.1 1⟩

end Session
end SegmentPump
