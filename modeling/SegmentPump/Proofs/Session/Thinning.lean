import SegmentPump.Proofs.Session.Pacing
import SegmentPump.Proofs.Session.Waiting

/-! Commands that nobody else notices: questions, changes of lifecycle that mean
nothing, and readiness that has been signalled before. `Thinned` takes any of
them out of a mailbox. The worker of the thinner mailbox `Shadows` that of the
full one, and `thinnedAlike` is what this comes to for callers and the sink. -/
namespace SegmentPump

variable {σ : Type}

def Command.spare (opened : Bool) : Command → Bool
  | .query _ .stats | .query _ .waitDrained => true
  | .signal (.lifecycle state) => opened || state != .opened
  | _ => false

/- The flag tells whether readiness was signalled earlier in the mailbox. -/
inductive Thinned : Bool → List Command → List Command → Prop where
  | nil (opened : Bool) : Thinned opened [] []
  | keep {opened : Bool} {rest fewer : List Command} (c : Command)
      (later : Thinned (opened || c.opens) rest fewer) : Thinned opened (c :: rest) (c :: fewer)
  | drop {opened : Bool} {c : Command} {rest fewer : List Command}
      (spare : c.spare opened = true) (later : Thinned opened rest fewer) :
      Thinned opened (c :: rest) fewer

theorem thinnedTickets {opened : Bool} {commands fewer : List Command}
    (thinned : Thinned opened commands fewer) : tickets fewer ⊆ tickets commands := by
  induction thinned with
  | nil => exact List.Subset.refl _
  | @keep _ rest fewer c _ ih =>
    rw [ticketsCons c rest, ticketsCons c fewer]
    exact List.append_subset.mpr ⟨List.subset_append_left _ _, List.subset_append_of_subset_right _ ih⟩
  | drop _ _ ih =>
    rw [ticketsCons]
    exact List.subset_append_of_subset_right _ ih

def remaining (keep : Ticket → Bool) (answers : List (Ticket × Answer)) : List (Ticket × Answer) :=
  answers.filter fun answer => keep answer.1

theorem remainingAppend (keep : Ticket → Bool) (xs ys : List (Ticket × Answer)) :
    remaining keep (xs ++ ys) = remaining keep xs ++ remaining keep ys :=
  List.filter_append xs ys

theorem remainingLookup {keep : Ticket → Bool} {ticket : Ticket} (kept : keep ticket = true)
    (answers : List (Ticket × Answer)) :
    (remaining keep answers).lookup ticket = answers.lookup ticket := by
  induction answers with
  | nil => rfl
  | cons answer rest ih =>
    obtain ⟨other, reply⟩ := answer
    cases same : ticket == other with
    | true =>
      have keeps : keep other = true := eq_of_beq same ▸ kept
      simp [remaining, keeps, List.lookup_cons, same]
    | false =>
      rw [List.lookup_cons, same, ← ih]
      cases keeps : keep other with
      | false => simp [remaining, keeps]
      | true => simp [remaining, keeps, List.lookup_cons, same]

theorem remainingReply {keep : Ticket → Bool} {c : Command} (stats : Stats) :
    ((∀ ticket ∈ tickets [c], keep ticket = true) →
        remaining keep (c.reply stats) = c.reply stats ∧ c.waiter.filter keep = c.waiter) ∧
      ((∀ ticket ∈ tickets [c], keep ticket = false) →
        remaining keep (c.reply stats) = [] ∧ c.waiter.filter keep = []) := by
  rcases c with _ | _ | ⟨ticket, _ | _ | _⟩ <;>
    simp [tickets, Command.ticket?, Command.reply, Command.waiter, remaining]

namespace Worker

theorem tellRemaining (keep : Ticket → Bool) (waiters : List Ticket) (p : Pump σ)
    (fate : Option Ending) :
    (tell (waiters.filter keep) p fate).1 = remaining keep (tell waiters p fate).1 ∧
      (tell (waiters.filter keep) p fate).2 = (tell waiters p fate).2.filter keep := by
  unfold tell
  split
  · exact ⟨by simp [remaining, List.filter_map, Function.comp_def], rfl⟩
  · exact ⟨rfl, rfl⟩

variable [Sink σ]

theorem pumpedSpare {w : Worker σ} (intact : w.pump.Intact) {opened : Bool}
    (ready : opened = true → w.pump.ready = true) {c : Command} (spare : c.spare opened = true) :
    w.pumped c = w.pump ∧ w.verdict c = none := by
  rcases c with _ | ⟨⟨_ | _ | _⟩ | _⟩ | ⟨_, _ | _ | _⟩ <;> try cases spare
  all_goals try exact ⟨rfl, rfl⟩
  case signal.lifecycle.opened =>
    have again := ready (by simpa [Command.spare] using spare)
    obtain ⟨ok, same⟩ := Pump.reactReadyAgain intact again
    refine ⟨same, ?_⟩
    simp [verdict, Command.event?, ok, Ending.ofResult]

/- The worker `v` of a thinner mailbox beside that of the full one. -/
structure Shadows (keep : Ticket → Bool) (opened : Bool) (w v : Worker σ) : Prop where
  pump : v.pump = w.pump
  waiters : v.waiters = w.waiters.filter keep
  alert : w.Alert
  ready : opened = true → w.pump.ready = true

variable {keep : Ticket → Bool} {opened : Bool} {w v : Worker σ} {c : Command}

theorem shadowsKeep (shadows : Shadows keep opened w v)
    (kept : ∀ ticket ∈ tickets [c], keep ticket = true) :
    (v.handle c).ending = (w.handle c).ending ∧
      (v.handle c).worker.pump = (w.handle c).worker.pump ∧
      (v.handle c).answers = remaining keep (w.handle c).answers ∧
      ((w.handle c).ending = none →
        Shadows keep (opened || c.opens) (w.handle c).worker (v.handle c).worker) := by
  have full := handled w c
  have thin := handled v c
  have pumped : v.pumped c = w.pumped c := by rw [Worker.pumped, Worker.pumped, shadows.pump]
  have verdict : v.verdict c = w.verdict c := by rw [Worker.verdict, Worker.verdict, shadows.pump]
  obtain ⟨reply, waiter⟩ := (remainingReply w.pump.stats).1 kept
  have waiting : v.waiters ++ c.waiter = (w.waiters ++ c.waiter).filter keep := by
    rw [shadows.waiters, List.filter_append, waiter]
  obtain ⟨told, left⟩ := tellRemaining keep (w.waiters ++ c.waiter) (w.pumped c) (w.verdict c)
  rw [pumped, verdict] at thin
  have pump := thin.pump.trans full.pump.symm
  refine ⟨thin.ending.trans full.ending.symm, pump, ?_, fun on => ⟨pump, ?_, ?_, ?_⟩⟩
  · rw [thin.answers, full.answers, shadows.pump, waiting, told, remainingAppend, reply]
  · rw [thin.waiters, full.waiters, waiting, left]
  · exact alertTurn shadows.alert.intact on
  · rw [full.pump, pumpedReady shadows.alert.intact.latched]
    intro flag
    rcases Bool.or_eq_true_iff.mp flag with before | now
    · simp [shadows.ready before]
    · simp [now]

theorem shadowsDrop (shadows : Shadows keep opened w v) (spare : c.spare opened = true)
    (gone : ∀ ticket ∈ tickets [c], keep ticket = false) :
    (w.handle c).ending = none ∧ (w.handle c).worker.pump = w.pump ∧
      remaining keep (w.handle c).answers = [] ∧
      Shadows keep opened (w.handle c).worker v := by
  have turn := handled w c
  obtain ⟨pumped, verdict⟩ := pumpedSpare shadows.alert.intact shadows.ready spare
  obtain ⟨reply, waiter⟩ := (remainingReply w.pump.stats).2 gone
  rw [pumped, verdict] at turn
  have waiting : (w.waiters ++ c.waiter).filter keep = v.waiters := by
    rw [List.filter_append, waiter, List.append_nil, shadows.waiters]
  obtain ⟨told, left⟩ := tellRemaining keep (w.waiters ++ c.waiter) w.pump none
  rw [waiting] at told left
  -- Nobody waits at a drained pump, so that the extra look at it answers nobody.
  have silent : tell v.waiters w.pump none = ([], v.waiters) := by
    unfold tell
    split
    case isFalse => rfl
    case isTrue quiet =>
      have alone : w.waiters = [] := by
        by_contra waits
        rw [shadows.alert.patient waits] at quiet
        cases quiet.2
      simp [shadows.waiters, alone]
  rw [silent] at told left
  refine ⟨turn.ending, turn.pump, ?_, ⟨?_, ?_, ?_, ?_⟩⟩
  · rw [turn.answers, remainingAppend, reply, ← told, List.append_nil]
  · rw [turn.pump, shadows.pump]
  · rw [turn.waiters, ← left]
  · exact alertTurn shadows.alert.intact turn.ending
  · rw [turn.pump]
    exact shadows.ready

theorem shadowsRun {commands fewer : List Command} (thinned : Thinned opened commands fewer)
    (distinct : (tickets commands).Nodup) (kept : ∀ ticket ∈ tickets fewer, keep ticket = true)
    (gone : ∀ ticket ∈ tickets commands, ticket ∉ tickets fewer → keep ticket = false)
    (shadows : Shadows keep opened w v) :
    (v.run fewer).ending = (w.run commands).ending ∧
      (v.run fewer).worker.pump = (w.run commands).worker.pump ∧
      (v.run fewer).answers = remaining keep (w.run commands).answers := by
  induction thinned generalizing w v with
  | nil => exact ⟨rfl, shadows.pump, rfl⟩
  | @keep opened rest fewer c later ih =>
    simp only [ticketsCons c rest, ticketsCons c fewer, List.nodup_append, List.mem_append]
      at distinct kept gone
    obtain ⟨ending, pump, answers, after⟩ :=
      shadowsKeep shadows fun ticket member => kept ticket (.inl member)
    cases fate : (w.handle c).ending with
    | some end' =>
      rw [runEnded fate, runEnded (ending.trans fate)]
      exact ⟨ending, pump, answers⟩
    | none =>
      obtain ⟨same, equal, told⟩ := ih distinct.2.1 (fun ticket member => kept ticket (.inr member))
        (fun ticket member absent => gone ticket (.inr member) fun either =>
          either.elim (fun here => distinct.2.2 ticket here ticket member rfl) absent)
        (after fate)
      rw [runOn fate, runOn (ending.trans fate)]
      exact ⟨same, equal, by rw [answers, told, remainingAppend]⟩
  | @drop opened c rest fewer spare later ih =>
    simp only [ticketsCons c rest, List.nodup_append, List.mem_append] at distinct gone
    have absent : ∀ ticket ∈ tickets [c], ticket ∉ tickets fewer := fun ticket here member =>
      distinct.2.2 ticket here ticket (thinnedTickets later member) rfl
    obtain ⟨on, pump, answers, after⟩ := shadowsDrop shadows spare fun ticket here =>
      gone ticket (.inl here) (absent ticket here)
    obtain ⟨same, equal, told⟩ := ih distinct.2.1 kept
      (fun ticket member => gone ticket (.inr member)) after
    rw [runOn on]
    exact ⟨same, equal, by rw [told, remainingAppend, answers, List.nil_append]⟩

end Worker

namespace Session

def mailed (sink : σ) (warnDepth holders : Nat) (commands : List Command) : Session σ :=
  { Session.new sink warnDepth with mailbox := .ofList commands, holders }

variable [Sink σ]

theorem tracksMailed (sink : σ) (warnDepth holders : Nat) (commands : List Command) :
    Tracks { pump := .new sink warnDepth } commands (mailed sink warnDepth holders commands) := by
  have ran : Ran { pump := .new sink warnDepth } [] (mailed sink warnDepth holders commands) :=
    ⟨rfl, rfl⟩
  exact ⟨.running ran rfl rfl (by simp [mailed]), fun _ => rfl⟩

/- Tickets name calls, so that no two of them are the same. -/
theorem thinnedAlike (sink : σ) (warnDepth holders : Nat) {commands fewer : List Command}
    (distinct : (tickets commands).Nodup) (thinned : Thinned false commands fewer) :
    let full := (mailed ({ sink } : Observed σ) warnDepth holders commands).settle
    let thin := (mailed ({ sink } : Observed σ) warnDepth holders fewer).settle
    thin.worker.pump.sink.offers = full.worker.pump.sink.offers ∧ thin.join = full.join ∧
      ∀ ticket ∈ tickets fewer, thin.outcome ticket = full.outcome ticket := by
  intro full thin
  let start : Worker (Observed σ) := { pump := .new { sink } warnDepth }
  let keep (ticket : Ticket) : Bool := decide (ticket ∈ tickets fewer)
  have fresh : Worker.Shadows keep false start start :=
    ⟨rfl, rfl, ⟨Pump.intactNew _ _, fun waits => absurd rfl waits⟩, fun ready => by cases ready⟩
  obtain ⟨ending, pump, answers⟩ := Worker.shadowsRun thinned distinct
    (fun _ member => decide_eq_true member) (fun _ _ absent => decide_eq_false absent) fresh
  have whole := tracksMailed ({ sink } : Observed σ) warnDepth holders commands
  have part := tracksMailed ({ sink } : Observed σ) warnDepth holders fewer
  have ran := (restedSettle whole.follows).ran
  have ran' := (restedSettle part.follows).ran
  have fate : thin.ending = full.ending := by
    rw [settledEnding whole, settledEnding part, ending, pump]
    rfl
  refine ⟨?_, congrArg (Option.map Ending.outcome) fate, fun ticket member => ?_⟩
  · rw [ran'.worker, ran.worker, pump]
  · rw [outcome, outcome, isRunning, isRunning, fate, ran'.answers, ran.answers, answers,
      remainingLookup (decide_eq_true member)]

theorem thinnedAlikeReopened :
    let first : Segment := ⟨⟨#[1]⟩⟩
    let second : Segment := ⟨⟨#[2, 3]⟩⟩
    let commands : List Command :=
      [.query 0 .waitDrained, .arrived first, .signal (.lifecycle .opened), .arrived second,
        .signal (.lifecycle .opened), .signal (.lifecycle .ended), .query 1 .stats,
        .signal .updateEnd, .query 2 .shutdown]
    let fewer : List Command :=
      [.arrived first, .signal (.lifecycle .opened), .arrived second, .signal .updateEnd,
        .query 2 .shutdown]
    let full := (mailed ({ sink := {} } : Observed Script) 4 1 commands).settle
    let thin := (mailed ({ sink := {} } : Observed Script) 4 1 fewer).settle
    (tickets commands).Nodup ∧ Thinned false commands fewer ∧ thin.join = full.join ∧
      thin.outcome 2 = full.outcome 2 := by
  intro first second commands fewer full thin
  have distinct : (tickets commands).Nodup := by decide
  have thinned : Thinned false commands fewer :=
    .drop rfl <| .keep _ <| .keep _ <| .keep _ <| .drop rfl <| .drop rfl <| .drop rfl <| .keep _ <|
      .keep _ <| .nil _
  obtain ⟨_, joins, answers⟩ := thinnedAlike ({} : Script) 4 1 distinct thinned
  exact ⟨distinct, thinned, joins, answers 2 (by decide)⟩

end Session
end SegmentPump
