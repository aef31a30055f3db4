import SegmentPump.Proofs.Simulation.Flow
import SegmentPump.Proofs.Simulation.Numbering

/-! A simulated session under any settings and in any order of moves. Until a
shutdown is handled each append under way has exactly one token, no number is
lost, doubled or overtaken, and nobody is refused. -/
namespace SegmentPump.World

variable {feed : List Segment} {w : World}

theorem sentNumbers {count : Nat} (flows : Flows feed w)
    (numbers : feed.map Segment.sequence? = (List.range count).map some) :
    ∃ sent, sent ++ w.feed = feed ∧ w.numbers = (List.range sent.length).map some := by
  obtain ⟨sent, split⟩ := flows.left
  have order := flows.order
  rw [← split, List.map_append, List.append_cancel_right_eq] at order
  have length : sent.length ≤ count := by
    have whole := congrArg List.length numbers
    rw [← split] at whole
    simp at whole
    omega
  refine ⟨sent, split, ?_⟩
  calc w.numbers = sent.map Segment.sequence? := order
    _ = (feed.map Segment.sequence?).take sent.length := by rw [← split]; simp
    _ = (List.range sent.length).map some := by
      rw [numbers, ← List.map_take, List.take_range, Nat.min_eq_left length]

theorem reactsWell (flows : Flows feed w) {c : Command} {rest : List Command} {e : Event}
    (head : w.mail = c :: rest) (event : c.event? = some e) :
    (w.pump.react e).result = .ok () := by
  have expects : w.pump.Expects e := fun completed =>
    flowsExpects flows head (Command.completedEvent (event.trans (congrArg some completed)))
  exact (Pump.passes flows.connected expects).1

/- A move may come at any time, so that this is about every delay of the source
and of the sink. -/
theorem tokensConserved (s : Settings) (bounded : s.maxSegmentSize < 18446744073709551615)
    (generator : Generator) :
    ∃ feed, s.segments generator = .ok feed ∧ feed.length = s.segmentCount.toNat ∧
      ∀ warnDepth w, Reachable (World.new feed warnDepth) w →
        (¬ w.Shut →
          w.tokens = w.pump.slot.load ∧
          (∃ sent, sent ++ w.feed = feed ∧ w.numbers = (List.range sent.length).map some) ∧
          (∀ c, ∃ session, w.session.send c = .ok session) ∧
          w.receiver.phase ≠ .stopped ∧ (∀ error, w.owner ≠ .failed error) ∧
          ∀ c rest e, w.mail = c :: rest → c.event? = some e →
            (w.pump.react e).result = .ok ()) ∧
        ∀ ending, w.session.ending = some ending → ∃ stats, ending = .stopped stats := by
  obtain ⟨feed, drawn, numbers⟩ := s.segmentsNumbered bounded generator
  have length : feed.length = s.segmentCount.toNat := by
    simpa using congrArg List.length numbers
  have numbered := Segment.rangeNumbered numbers
  refine ⟨feed, drawn, length, fun warnDepth w reached => ?_⟩
  rcases reachableFlows numbered reached with flows | ⟨shut, stats, ended⟩
  · refine ⟨fun _ => ⟨flows.balance, sentNumbers flows numbers, ?_, flows.going, flows.trusting, ?_⟩, ?_⟩
    · exact fun c => ⟨_, Session.sendRunning flows.running c⟩
    · exact fun c rest e head event => reactsWell flows head event
    · intro ending ended
      rw [flows.running] at ended
      cases ended
  · refine ⟨fun unshut => absurd shut unshut, fun ending same => ⟨stats, ?_⟩⟩
    rw [ended] at same
    exact (Option.some.inj same).symm

theorem tokensConservedTesting :
    ∃ feed, Settings.testing.segments (.ofSeed 42) = .ok feed ∧ feed.length = 16 ∧
      ∀ w, Reachable (World.new feed 256) w → ¬ w.Shut → w.tokens = w.pump.slot.load := by
  obtain ⟨feed, drawn, length, conserved⟩ :=
    tokensConserved Settings.testing (by decide) (.ofSeed 42)
  exact ⟨feed, drawn, length, fun w reached unshut => ((conserved 256 w reached).1 unshut).1⟩

end SegmentPump.World
