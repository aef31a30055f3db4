import SegmentPump.Proofs.Pump.Audit
import SegmentPump.Proofs.Session.History

/-! What a session writes at its end. A pump never writes it, a session that goes on has
not written it yet, and one that has ended has written it once: `Closing` says so, and
every use keeps it. `logsFaithfully` says of the whole log what can be told from it. -/
namespace SegmentPump

variable {σ : Type}

def Ending.farewell : Ending → List Notice
  | .stopped stats => [.sessionStopped stats.segmentsAppended stats.queueDepth]
  | .failed error => [.sessionFailed error]
  | .crashed => []

def farewells (log : List Notice) : List Notice :=
  entries ["Session terminated by pump error", "Session actor stopped"] log

theorem farewellsAppend (log later : List Notice) :
    farewells (log ++ later) = farewells log ++ farewells later :=
  entriesAppend ..

def farewellOf (fate : Option Ending) : List Notice := fate.toList.flatMap Ending.farewell

namespace Pump

theorem enterFarewell (p : Pump σ) (e : Event) : farewells (p.enter e).notices = [] := by
  obtain ⟨warnings, warns, entered⟩ := enterNotices p e
  rw [entered, farewells, entriesAppend, entriesAlike _ _ (warningsAlike warns), greetingEntries]
  simp

variable [Sink σ]

theorem advanceFarewell (p : Pump σ) : farewells p.advance.notices = [] := by
  unfold advance
  split
  · split
    · rfl
    · split
      · rfl
      · split <;> rfl
  · rfl

theorem applyFarewell (p : Pump σ) (e : Event) : farewells (p.apply e).notices = [] := by
  have further : farewells ((p.enter e).pump.advance.after (p.enter e).notices).notices = [] := by
    rw [Step.after, farewellsAppend, enterFarewell, advanceFarewell, List.append_nil]
  cases e with
  | arrived segment =>
    rw [apply]
    split
    · exact further
    · exact enterFarewell p (.arrived segment)
  | sinkReady =>
    rw [apply]
    split
    · exact further
    · exact enterFarewell p .sinkReady
  | completed =>
    rw [apply]
    split
    · rfl
    · exact advanceFarewell _

theorem reactFarewell (p : Pump σ) (e : Event) : farewells (p.react e).notices = [] :=
  applyFarewell p e

end Pump

namespace Worker

theorem stopFarewell (w : Worker σ) : farewells w.stop.notices = farewellOf w.stop.ending := rfl

theorem carryOnFarewell (w : Worker σ) (answers : List (Ticket × Answer)) {notices : List Notice}
    (silent : farewells notices = []) :
    farewells (w.carryOn answers notices).notices =
      farewellOf (w.carryOn answers notices).ending := by
  unfold carryOn
  split <;> exact silent

variable [Sink σ]

theorem passFarewell (w : Worker σ) (e : Event) {earlier : List Notice}
    (silent : farewells earlier = []) :
    farewells (w.pass e earlier).notices = farewellOf (w.pass e earlier).ending := by
  have written : farewells (earlier ++ (w.pump.react e).notices) = [] := by
    rw [farewellsAppend, silent, Pump.reactFarewell, List.append_nil]
  rw [pass]
  split
  · exact carryOnFarewell _ [] written
  · rw [farewellsAppend, written]
    rfl
  · exact written

theorem handleFarewell (w : Worker σ) (c : Command) :
    farewells (w.handle c).notices = farewellOf (w.handle c).ending := by
  cases c with
  | arrived segment => exact passFarewell w _ rfl
  | signal signal =>
    have silent : farewells (signal.read w.lifecycle).notices = [] := by
      cases signal with
      | lifecycle state =>
        change farewells (if w.lifecycle = state then [] else _) = []
        split <;> rfl
      | updateEnd => rfl
    rw [handle]
    split
    · exact passFarewell _ _ silent
    · exact carryOnFarewell _ [] silent
  | query ticket query =>
    cases query with
    | stats => exact carryOnFarewell w _ rfl
    | waitDrained => exact carryOnFarewell _ [] rfl
    | shutdown => rfl

end Worker

namespace Session

/- The log has the last word of the session if it has ended, and no such word before. -/
def Closing (s : Session σ) : Prop := farewells s.log.toList = farewellOf s.ending

variable {s : Session σ}

theorem closingSame (closing : s.Closing) (s' : Session σ) (log : s'.log = s.log)
    (ending : s'.ending = s.ending) : s'.Closing := by
  rw [Closing, log, ending]
  exact closing

theorem closingAbsorb (closing : s.Closing) (running : s.ending = none) {t : Turn σ}
    (told : farewells t.notices = farewellOf t.ending) : (s.absorb t).Closing := by
  rw [Closing, running] at closing
  rw [Closing, absorb, Line.toListAppend, farewellsAppend, closing, told]
  rfl

theorem closingStart (closing : s.Closing) : s.start.Closing := by
  rw [start]
  split
  · exact closing
  · rw [Closing, Line.toListPush, farewellsAppend, closing]
    exact List.append_nil _

theorem closingRetire (closing : s.Closing) : s.retire.Closing := by
  rw [retireIf]
  split
  case isTrue idle => exact closingAbsorb closing idle.1 (Worker.stopFarewell s.worker)
  case isFalse => exact closing

variable [Sink σ]

theorem closingServe (closing : s.Closing) : s.serve.Closing := by
  cases ending : s.ending with
  | some fate =>
    rw [serveEnded ending]
    exact closing
  | none =>
    cases mailbox : s.mailbox.toList with
    | nil =>
      rw [serveIdle mailbox]
      exact closing
    | cons c rest =>
      rw [serveHead ending mailbox]
      have taken : ({ s with mailbox := .ofList rest } : Session σ).Closing := closing
      exact closingAbsorb taken ending (Worker.handleFarewell s.worker c)

theorem closingServeAll (closing : s.Closing) (count : Nat) : (s.serveAll count).Closing := by
  induction count generalizing s with
  | zero => exact closing
  | succ count ih => exact ih (closingServe closing)

theorem useSilent (s : Session σ) {u : Use} (outside : u ≠ .turn ∧ u ≠ .settle) :
    (s.use u).log = s.log := by
  cases ending : s.ending with
  | none =>
    cases u <;> simp [use, retain, release, tellRunning, askRunning, ending] at outside ⊢
  | some fate =>
    cases u <;> simp [use, retain, release, tellClosed ending, askClosed ending] at outside ⊢

theorem closingUse (closing : s.Closing) (u : Use) : (s.use u).Closing := by
  rcases u.sides with outside | rfl | rfl
  · exact closingSame closing _ (useSilent s outside) (useOutside s outside).2.2.1
  · exact closingServe closing
  · exact closingRetire (closingServeAll (closingStart closing) _)

theorem closingUseAll (closing : s.Closing) (uses : List Use) : (s.useAll uses).Closing := by
  induction uses generalizing s with
  | nil => exact closing
  | cons u rest ih => exact ih (closingUse closing u)

theorem followsStopped {start : Worker σ} {commands : List Command}
    (follows : Follows start commands s) {stats : Stats}
    (stopped : s.ending = some (.stopped stats)) : stats = s.worker.pump.stats := by
  cases follows with
  | running _ _ goes => rw [goes] at stopped; cases stopped
  | retired _ _ ends => rw [ends] at stopped; cases stopped; rfl
  | ended ran fell ends =>
    obtain ⟨pump, close⟩ := Worker.runFollows start commands
    rw [← ends, stopped] at fell
    rw [fell, Worker.close] at close
    rw [ran.worker, pump]
    split at close
    · split at close <;> cases close
      rfl
    · rename_i fault _
      cases fault <;> cases close

omit [Sink σ] in
theorem closingJoined (closing : s.Closing) {outcome : Except SessionError Stats}
    (joined : s.join = some outcome) (whole : ∀ reason, outcome ≠ .error (.taskFailed reason)) :
    (∃ stats, s.ending = some (.stopped stats) ∧ outcome = .ok stats ∧
        farewells s.log.toList = [.sessionStopped stats.segmentsAppended stats.queueDepth]) ∨
      ∃ error, outcome = .error (.pump error) ∧
        farewells s.log.toList = [.sessionFailed error] := by
  obtain ⟨fate, ending, rfl⟩ := Option.map_eq_some_iff.mp joined
  rw [Closing, ending] at closing
  cases fate with
  | stopped stats => exact .inl ⟨stats, ending, rfl, closing⟩
  | failed error => exact .inr ⟨error, rfl, closing⟩
  | crashed => exact absurd rfl (whole _)

omit [Sink σ] in
theorem closingOpen (closing : s.Closing) (open' : s.join = none) :
    farewells s.log.toList = [] := by
  rw [Closing, Option.map_eq_none_iff.mp open'] at closing
  exact closing

/- The first part is about a pump that goes on after failures, the second about a
session, which ends at the first one. -/
theorem logsFaithfully (sink : σ) (warnDepth : Nat) :
    (∀ events : List Event,
      let p := Pump.new sink warnDepth
      let accepted (handled : List Event) :=
        ((Pump.observed sink warnDepth).after handled).sink.appended
      let noted := entries ["Appended segment"] (p.log events)
      noted.length = (p.after events).stats.segmentsAppended ∧
        (accepted events).length = (p.after events).stats.segmentsAppended ∧
        (∀ j segment, (accepted events)[j]? = some segment →
          ∃ before e later, events = before ++ e :: later ∧ (accepted before).length = j ∧
            (accepted (before ++ [e])).length = j + 1 ∧
            noted[j]? = some (.appended (j + 1) segment.size
              (p.after (before ++ [e])).stats.queueDepth)) ∧
        (.sinkReady ∉ events → entries ["Sink ready"] (p.log events) = []) ∧
        (∀ before later, events = before ++ .sinkReady :: later → .sinkReady ∉ before →
          entries ["Sink ready"] (p.log events) = [.sinkReady (arrivals before).length]) ∧
        entries ["Sink completed an append that was never issued"] (p.log events) =
          List.replicate ((p.outcomes events).countP fun outcome =>
            outcome.2 = .error (.pump .unexpectedCompletion)) .completionNeverIssued) ∧
      ∀ uses : List Use,
        let s := (Session.new sink warnDepth).useAll uses
        let closing :=
          entries ["Session terminated by pump error", "Session actor stopped"] s.log.toList
        (s.join = none → closing = []) ∧
          ∀ outcome, s.join = some outcome → (∀ reason, outcome ≠ .error (.taskFailed reason)) →
            (∃ stats, outcome = .ok stats ∧ stats = s.worker.pump.stats ∧
                closing = [.sessionStopped stats.segmentsAppended stats.queueDepth]) ∨
              ∃ error, outcome = .error (.pump error) ∧ closing = [.sessionFailed error] := by
  have latched : (Pump.observed sink warnDepth).Latched := Pump.newLatched _ warnDepth
  refine ⟨fun events => ?_, fun uses => ?_⟩
  · have books := Pump.ledgerAfter sink warnDepth events
    obtain ⟨length, told⟩ := Pump.appendsLogged sink warnDepth events
    have stats := Pump.statsUnobserved sink warnDepth
    obtain ⟨log, outcomes⟩ := Pump.courseUnobserved sink warnDepth events
    intro p accepted noted
    simp only [noted, p, log, outcomes, stats]
    refine ⟨length.trans books.appended.1.symm, books.appended.1.symm, told, ?_, ?_, ?_⟩
    · intro unset
      exact Pump.readinessSilent latched fun sent => absurd sent unset
    · rintro before later rfl first
      exact Pump.readinessLogged sink warnDepth first later
    · exact Pump.spuriousLogged latched events
  · have closing := closingUseAll (s := Session.new sink warnDepth) rfl uses
    have follows := followsAll (followsNew sink warnDepth) uses
    refine ⟨closingOpen closing, fun outcome joined whole => ?_⟩
    rcases closingJoined closing joined whole with ⟨stats, stopped, ok, last⟩ | failed
    · exact .inl ⟨stats, ok, followsStopped follows stopped, last⟩
    · exact .inr failed

/- A sink that refuses the first segment and accepts the second. The completion comes
before any append, and readiness comes twice. -/
theorem logsFaithfullyRefused :
    let refusing : Script := { cues := [.refuse .closed] }
    let p := Pump.new refusing 4
    let early : List Event := [.arrived ⟨⟨#[1, 2]⟩⟩, .completed]
    let events := early ++ [.sinkReady, .arrived ⟨⟨#[3]⟩⟩, .sinkReady]
    let titles := ["Session terminated by pump error", "Session actor stopped"]
    let failed := (Session.new refusing 4).useAll
      [.deliver ⟨⟨#[1, 2]⟩⟩, .signal (.lifecycle .opened), .settle]
    let stopped := (Session.new refusing 4).useAll
      [.deliver ⟨⟨#[1, 2]⟩⟩, .ask .shutdown, .settle]
    (p.after events).stats.segmentsAppended = 1 ∧
      (∃ before e later, events = before ++ e :: later ∧
        (entries ["Appended segment"] (p.log events))[0]? =
          some (.appended 1 1 (p.after (before ++ [e])).stats.queueDepth)) ∧
      entries ["Sink ready"] (p.log early) = [] ∧
      entries ["Sink ready"] (p.log events) = [.sinkReady 1] ∧
      entries ["Sink completed an append that was never issued"] (p.log events) =
        [.completionNeverIssued] ∧
      failed.join = some (.error (.pump (.sink .closed))) ∧
      entries titles failed.log.toList = [.sessionFailed (.sink .closed)] ∧
      entries titles stopped.log.toList = [.sessionStopped 0 1] := by
  intro refusing p early events titles failed stopped
  obtain ⟨course, session⟩ := logsFaithfully refusing 4
  have silent := (course early).2.2.2.1
  obtain ⟨_, _, told, _, ready, spurious⟩ := course events
  have unset : .sinkReady ∉ early := by decide
  have refused : failed.join = some (.error (.pump (.sink .closed))) := rfl
  have whole : stopped.join = some (.ok stopped.worker.pump.stats) := rfl
  refine ⟨rfl, ?_, silent unset, ready early _ rfl unset, spurious, refused, ?_, ?_⟩
  · obtain ⟨before, e, later, split, _, _, entry⟩ := told 0 ⟨⟨#[3]⟩⟩ rfl
    exact ⟨before, e, later, split, entry⟩
  · rcases (session _).2 _ refused nofun with ⟨_, ok, _⟩ | ⟨error, same, last⟩
    · cases ok
    · cases same
      exact last
  · rcases (session _).2 _ whole nofun with ⟨stats, ok, _, last⟩ | ⟨_, error, _⟩
    · cases ok
      exact last
    · cases error

end Session
end SegmentPump
