import SegmentPump.Proofs.Session.Run
import SegmentPump.Session

/-! What a session has become after any history: sends through any of its
handles, in any merge, and turns of its worker at any time between them. The
worker has run over a beginning of what was sent, and the mailbox is the rest.
`followsAll` carries this over a history. -/
namespace SegmentPump

variable {σ : Type}

inductive Use
  | retain
  | release
  | deliver (segment : Segment)
  | signal (sign : Signal)
  | ask (query : Query)
  | turn
  | settle
  deriving DecidableEq

def Use.command? (ticket : Ticket) : Use → Option Command
  | .deliver segment => some (.arrived segment)
  | .signal sign => some (.signal sign)
  | .ask query => some (.query ticket query)
  | _ => none

theorem Use.sides (u : Use) : (u ≠ .turn ∧ u ≠ .settle) ∨ u = .turn ∨ u = .settle := by
  cases u <;> simp

namespace Session

theorem sendRunning {s : Session σ} (running : s.ending = none) (c : Command) :
    s.send c = .ok { s with mailbox := s.mailbox.push c } := by
  rw [send, running]

theorem sendClosed {s : Session σ} {fate : Ending} (ended : s.ending = some fate) (c : Command) :
    s.send c = .error .closed := by
  rw [send, ended]

theorem tellRunning {s : Session σ} (running : s.ending = none) (c : Command) :
    s.tell c = { s with mailbox := s.mailbox.push c } := by
  rw [tell, sendRunning running]

theorem tellClosed {s : Session σ} {fate : Ending} (ended : s.ending = some fate) (c : Command) :
    s.tell c = s := by
  rw [tell, sendClosed ended]

theorem askRunning {s : Session σ} (running : s.ending = none) (q : Query) :
    s.ask q = (s.nextTicket, { s.retain with
      nextTicket := s.nextTicket + 1
      mailbox := s.mailbox.push (.query s.nextTicket q) }) := by
  simp [ask, send, retain, running]

theorem askClosed {s : Session σ} {fate : Ending} (ended : s.ending = some fate) (q : Query) :
    s.ask q = (s.nextTicket, { s.retain with nextTicket := s.nextTicket + 1 }) := by
  simp [ask, send, retain, ended]

/- The command that a use gets into the mailbox. An ended session takes none. -/
def posted (s : Session σ) (u : Use) : Option Command :=
  if s.isRunning then u.command? s.nextTicket else none

variable [Sink σ]

def use (s : Session σ) : Use → Session σ
  | .retain => s.retain
  | .release => s.release
  | .deliver segment => s.tell (.arrived segment)
  | .signal sign => s.tell (.signal sign)
  | .ask query => (s.ask query).2
  | .turn => s.serve
  | .settle => s.settle

def useAll (s : Session σ) (uses : List Use) : Session σ := uses.foldl use s

theorem useAllAppend (s : Session σ) (before later : List Use) :
    s.useAll (before ++ later) = (s.useAll before).useAll later :=
  List.foldl_append

def sent (s : Session σ) : List Use → List Command
  | [] => []
  | u :: rest => (s.posted u).toList ++ (s.use u).sent rest

theorem serveIdle {s : Session σ} (empty : s.mailbox.toList = []) : s.serve = s := by
  have line : s.mailbox = .ofList [] := Line.ext empty
  cases ending : s.ending <;> simp [serve, ending, line]

theorem serveEnded {s : Session σ} {fate : Ending} (ended : s.ending = some fate) :
    s.serve = s := by
  simp [serve, ended]

theorem serveHead {s : Session σ} (running : s.ending = none) {c : Command}
    {rest : List Command} (head : s.mailbox.toList = c :: rest) :
    s.serve = { s with mailbox := .ofList rest }.absorb (s.worker.handle c) := by
  have line : s.mailbox = .ofList (c :: rest) := Line.ext (by simpa using head)
  simp [serve, running, line]

theorem serveMailbox {s : Session σ} (running : s.serve.ending = none) :
    s.serve.mailbox.toList = s.mailbox.toList.tail := by
  cases ending : s.ending with
  | some fate =>
    rw [serveEnded ending, ending] at running
    cases running
  | none =>
    cases mailbox : s.mailbox.toList with
    | nil => rw [serveIdle mailbox, mailbox, List.tail_nil]
    | cons c rest =>
      rw [serveHead ending mailbox] at *
      have goes : (s.worker.handle c).ending = none := running
      simp [absorb, goes]

theorem serveAllEnded (count : Nat) {s : Session σ} {fate : Ending} (ended : s.ending = some fate) :
    s.serveAll count = s := by
  induction count with
  | zero => rfl
  | succ count ih => rw [serveAll, serveEnded ended, ih]

theorem serveAllMailbox (count : Nat) {s : Session σ} (running : (s.serveAll count).ending = none) :
    (s.serveAll count).mailbox.toList = s.mailbox.toList.drop count := by
  induction count generalizing s with
  | zero => rfl
  | succ count ih =>
    cases ending : s.serve.ending with
    | none => rw [serveAll, ih running, serveMailbox ending, List.drop_tail]
    | some fate =>
      rw [serveAll, serveAllEnded count ending, ending] at running
      cases running

structure Ran (start : Worker σ) (commands : List Command) (s : Session σ) : Prop where
  worker : s.worker = (start.run commands).worker
  answers : s.answers.toList = (start.run commands).answers

inductive Follows (start : Worker σ) (commands : List Command) (s : Session σ) : Prop where
  | running {handled : List Command} (ran : Ran start handled s)
      (on : (start.run handled).ending = none) (goes : s.ending = none)
      (split : handled ++ s.mailbox.toList = commands)
  | ended {fate : Ending} (ran : Ran start commands s)
      (fell : (start.run commands).ending = some fate) (ends : s.ending = some fate)
  | retired (ran : Ran start commands s) (on : (start.run commands).ending = none)
      (ends : s.ending = some (.stopped s.worker.pump.stats))

variable {start : Worker σ} {commands : List Command} {s : Session σ}

theorem followsNew (sink : σ) (warnDepth : Nat) :
    Follows { pump := .new sink warnDepth } [] (new sink warnDepth) := by
  have ran : Ran { pump := .new sink warnDepth } [] (new sink warnDepth) := ⟨rfl, rfl⟩
  exact .running ran rfl rfl rfl

/- Only these four matter, so that whoever changes nothing else changes nothing. -/
theorem followsSame (s' : Session σ) (follows : Follows start commands s)
    (worker : s'.worker = s.worker) (answers : s'.answers = s.answers)
    (ending : s'.ending = s.ending) (new : List Command)
    (mailbox : s'.mailbox.toList = s.mailbox.toList ++ new)
    (closed : s.ending ≠ none → new = []) : Follows start (commands ++ new) s' := by
  have carried {handled : List Command} (ran : Ran start handled s) : Ran start handled s' :=
    ⟨worker.trans ran.worker, (congrArg Line.toList answers).trans ran.answers⟩
  cases follows with
  | running ran on goes split =>
    refine .running (carried ran) on (ending.trans goes) ?_
    rw [mailbox, ← List.append_assoc, split]
  | ended ran fell ends =>
    rw [closed (by simp [ends]), List.append_nil]
    exact .ended (carried ran) fell (ending.trans ends)
  | retired ran on ends =>
    rw [closed (by simp [ends]), List.append_nil]
    refine .retired (carried ran) on ?_
    rw [ending, ends, worker]

theorem ranTurn {handled : List Command} (ran : Ran start handled s)
    (on : (start.run handled).ending = none) (c : Command) (mailbox : Line Command) :
    Ran start (handled ++ [c]) ({ s with mailbox }.absorb (s.worker.handle c)) ∧
      (start.run (handled ++ [c])).ending = (s.worker.handle c).ending := by
  have turn := Worker.runSplit on [c]
  rw [Worker.runOne, ← ran.worker, ← ran.answers] at turn
  rw [turn]
  refine ⟨⟨?_, ?_⟩, rfl⟩
  · rw [turn, absorb]
  · rw [turn, absorb, Line.toListAppend]

theorem followsServe (follows : Follows start commands s) : Follows start commands s.serve := by
  cases follows with
  | @running handled ran on goes split =>
    cases mailbox : s.mailbox.toList with
    | nil =>
      rw [serveIdle mailbox]
      exact .running ran on goes split
    | cons c rest =>
      obtain ⟨further, fate⟩ := ranTurn ran on c (.ofList rest)
      have whole : handled ++ [c] ++ rest = commands := by
        rw [← split, mailbox, List.append_assoc, List.singleton_append]
      rw [serveHead goes mailbox]
      cases ending : (s.worker.handle c).ending with
      | none =>
        rw [ending] at fate
        refine .running further fate ending ?_
        simp [absorb, ending, ← whole]
      | some ends =>
        rw [ending] at fate
        have same := Worker.runCut fate rest
        rw [whole] at same
        exact .ended ⟨further.worker.trans (by rw [same]), further.answers.trans (by rw [same])⟩
          (by rw [same, fate]) ending
  | ended ran fell ends =>
    rw [serveEnded ends]
    exact .ended ran fell ends
  | retired ran on ends =>
    rw [serveEnded ends]
    exact .retired ran on ends

theorem followsServeAll (follows : Follows start commands s) (count : Nat) :
    Follows start commands (s.serveAll count) := by
  induction count generalizing s with
  | zero => exact follows
  | succ count ih => exact ih (followsServe follows)

theorem serveFell (follows : Follows start commands s) (goes : s.ending = none) {fate : Ending}
    (fell : s.serve.ending = some fate) : (start.run commands).ending = some fate := by
  cases follows with
  | @running handled ran on _ split =>
    cases mailbox : s.mailbox.toList with
    | nil =>
      rw [serveIdle mailbox, goes] at fell
      cases fell
    | cons c rest =>
      rw [serveHead goes mailbox] at fell
      have met := (ranTurn ran on c (.ofList rest)).2.trans fell
      have same := Worker.runCut met rest
      rw [List.append_assoc, List.singleton_append, ← mailbox, split] at same
      rw [same, met]
  | ended _ _ ends => rw [goes] at ends; cases ends
  | retired _ _ ends => rw [goes] at ends; cases ends

theorem serveAllFell (count : Nat) (follows : Follows start commands s) (goes : s.ending = none)
    {fate : Ending} (fell : (s.serveAll count).ending = some fate) :
    (start.run commands).ending = some fate := by
  induction count generalizing s with
  | zero =>
    rw [serveAll, goes] at fell
    cases fell
  | succ count ih =>
    cases ending : s.serve.ending with
    | none => exact ih (followsServe follows) ending fell
    | some fate' =>
      rw [serveAll, serveAllEnded count ending, ending] at fell
      exact (serveFell follows goes ending).trans fell

omit [Sink σ] in
theorem retireIf (s : Session σ) :
    s.retire = if s.ending = none ∧ s.holders = 0 ∧ s.mailbox.toList = [] then
      s.absorb s.worker.stop else s := by
  have empty : s.mailbox.isEmpty = true ↔ s.mailbox.toList = [] := by
    rw [Line.isEmpty, Line.sizeToList, beq_iff_eq, List.length_eq_zero_iff]
  simp [retire, isRunning, empty, and_assoc]

theorem followsRetire (follows : Follows start commands s) : Follows start commands s.retire := by
  rw [retireIf]
  split
  case isFalse => exact follows
  case isTrue idle =>
    obtain ⟨goes, _, empty⟩ := idle
    cases follows with
    | running ran on _ split =>
      rw [empty, List.append_nil] at split
      subst split
      refine .retired ⟨ran.worker, ?_⟩ on rfl
      simp [absorb, Worker.stop, ran.answers]
    | ended _ _ ends => rw [goes] at ends; cases ends
    | retired _ _ ends => rw [goes] at ends; cases ends

theorem followsStart (follows : Follows start commands s) : Follows start commands s.start := by
  unfold Session.start
  split
  · exact follows
  · rw [← List.append_nil commands]
    exact followsSame { s with started := true, log := s.log.push .sessionStarted } follows
      rfl rfl rfl [] (List.append_nil _).symm fun _ => rfl

theorem followsSettle (follows : Follows start commands s) : Follows start commands s.settle :=
  followsRetire (followsServeAll (followsStart follows) _)

omit [Sink σ] in
theorem postedRunning (running : s.ending = none) (u : Use) :
    s.posted u = u.command? s.nextTicket := by
  rw [posted, isRunning, running]
  rfl

omit [Sink σ] in
theorem postedClosed (ended : s.ending ≠ none) (u : Use) : s.posted u = none := by
  obtain ⟨fate, ending⟩ := Option.ne_none_iff_exists'.mp ended
  rw [posted, isRunning, ending]
  rfl

theorem useOutside (s : Session σ) {u : Use} (outside : u ≠ .turn ∧ u ≠ .settle) :
    (s.use u).worker = s.worker ∧ (s.use u).answers = s.answers ∧
      (s.use u).ending = s.ending ∧
      (s.use u).mailbox.toList = s.mailbox.toList ++ (s.posted u).toList := by
  cases ending : s.ending with
  | none =>
    rw [postedRunning ending]
    cases u <;> simp [use, Use.command?, retain, release, tellRunning, askRunning, ending] at outside ⊢
  | some fate =>
    rw [postedClosed (by simp [ending])]
    cases u <;> simp [use, retain, release, tellClosed ending, askClosed ending, ending] at outside ⊢

theorem followsUse (follows : Follows start commands s) (u : Use) :
    Follows start (commands ++ (s.posted u).toList) (s.use u) := by
  rcases u.sides with outside | rfl | rfl
  · obtain ⟨worker, answers, ending, mailbox⟩ := useOutside s outside
    refine followsSame _ follows worker answers ending _ mailbox fun ended => ?_
    rw [postedClosed ended]
    rfl
  · simpa [posted, Use.command?, use] using followsServe follows
  · simpa [posted, Use.command?, use] using followsSettle follows

theorem followsAll (follows : Follows start commands s) (uses : List Use) :
    Follows start (commands ++ s.sent uses) (s.useAll uses) := by
  induction uses generalizing commands s with
  | nil => simpa [sent, useAll] using follows
  | cons u rest ih =>
    have later := ih (followsUse follows u)
    rwa [List.append_assoc] at later

end Session
end SegmentPump
