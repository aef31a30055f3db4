import SegmentPump.Proofs.Simulation.Served
import SegmentPump.Proofs.Simulation.Work
import SegmentPump.Simulation.Clock

/-! A simulated session on the clock. The clock chooses among the moves that are
possible, so that a run on it is one of the orders in which the parties may move;
and it goes on to the next instant rather than give up, so that a run that has
ended leaves nobody a move. -/
namespace SegmentPump.Timing

open World

variable {t : Timing} {c later : Clock} {w next : World} {moves : List Move}

theorem firstPossibleMove {m : Move} (possible : firstPossible w moves = some (m, next)) :
    m ∈ moves ∧ w.move? m = some next := by
  induction moves with
  | nil => cases possible
  | cons head rest ih =>
    unfold firstPossible at possible
    split at possible
    case h_1 after moved =>
      cases Option.some.inj possible
      exact ⟨List.mem_cons_self, moved⟩
    case h_2 =>
      obtain ⟨member, moved⟩ := ih possible
      exact ⟨List.mem_cons_of_mem _ member, moved⟩

theorem firstPossibleNone (impossible : firstPossible w moves = none) :
    ∀ m ∈ moves, w.move? m = none := by
  induction moves with
  | nil => exact fun _ member => absurd member List.not_mem_nil
  | cons head rest ih =>
    unfold firstPossible at impossible
    split at impossible
    case h_1 => cases impossible
    case h_2 still => exact List.forall_mem_cons.mpr ⟨still, ih impossible⟩

theorem dueMove {now : Clock} {keep : Move × World → Clock × World}
    (keeps : ∀ found, (keep found).2 = found.2)
    (due : (firstPossible w (t.dueMoves now)).map keep = some (later, next)) :
    ∃ m ∈ t.dueMoves now, w.move? m = some next := by
  obtain ⟨⟨m, after⟩, possible, same⟩ := Option.map_eq_some_iff.mp due
  obtain ⟨member, moved⟩ := firstPossibleMove possible
  have world : after = next := (keeps (m, after)).symm.trans (congrArg Prod.snd same)
  exact ⟨m, member, moved.trans (congrArg some world)⟩

theorem nextMove (moved : t.next c w = some (later, next)) :
    ∃ now, ∃ m ∈ t.dueMoves { c with now }, w.move? m = some next := by
  simp only [Timing.next] at moved
  split at moved
  case h_1 now =>
    rw [moved] at now
    exact ⟨c.now, dueMove (fun _ => rfl) now⟩
  case h_2 =>
    split at moved
    case h_1 instant _ => exact ⟨max c.now instant, dueMove (fun _ => rfl) moved⟩
    case h_2 => cases moved

theorem deliverPossible {segment : Segment} {rest : List Segment} (owner : w.owner = .feeding)
    (fed : w.feed = segment :: rest) : w.deliver ≠ none := by
  rw [deliver, owner, fed]
  dsimp only
  split <;> exact Option.some_ne_none _

section

variable (patient : t.patience = none)

include patient

theorem closingPatient (now : Nat) : t.closingMoves now = [.askDrained] := by
  rw [closingMoves, shutdownDue, patient]
  rfl

theorem dueOnward (c : Clock) : .interrupt ∉ t.dueMoves c := by
  rw [dueMoves, closingPatient patient]
  split <;> split <;> simp

theorem instantPossible {instant : Nat} (waits : instant ∈ t.instants c w) :
    ∃ m ∈ t.dueMoves { c with now := max c.now instant }, w.move? m ≠ none := by
  have due : instant ≤ max c.now instant := Nat.le_max_right _ _
  simp only [instants, shutdownDue, patient, Option.map_none, List.mem_append] at waits
  rcases waits with delivery | receiver
  · cases owner : w.owner <;> cases fed : w.feed <;> simp [owner, fed] at delivery
    subst delivery
    exact ⟨.deliver, by simp [dueMoves, due], deliverPossible owner fed⟩
  · cases phase : w.receiver.phase <;> simp [phase] at receiver
    all_goals subst receiver
    case opening => exact ⟨.openSink, by simp [dueMoves, due], by simp [move?, openSink, phase]⟩
    case holding => exact ⟨.accept, by simp [dueMoves, due], by simp [move?, accept, phase]⟩

theorem dueOrLater (c : Clock) {m : Move} (on : m ≠ .interrupt) (possible : w.move? m ≠ none) :
    m ∈ t.dueMoves c ∨ t.instants c w ≠ [] := by
  cases m with
  | deliver =>
    refine .inr ?_
    cases owner : w.owner <;> cases fed : w.feed <;>
      simp [move?, deliver, instants, owner, fed] at possible ⊢
  | openSink =>
    refine .inr ?_
    cases phase : w.receiver.phase <;> simp [move?, openSink, instants, phase] at possible ⊢
  | accept =>
    refine .inr ?_
    cases phase : w.receiver.phase <;> simp [move?, accept, instants, phase] at possible ⊢
  | interrupt => exact absurd rfl on
  | askDrained | askShutdown | conclude | serve | take =>
    exact .inl (by simp [dueMoves, closingPatient patient])

theorem nextNone (ended : t.next c w = none) {m : Move} (on : m ≠ .interrupt) :
    w.move? m = none := by
  simp only [Timing.next] at ended
  split at ended
  case h_1 => cases ended
  case h_2 now =>
    have now := firstPossibleNone (Option.map_eq_none_iff.mp now)
    by_contra possible
    rcases dueOrLater patient c on possible with due | waits
    · exact possible (now m due)
    · -- Somebody waits, and the clock has tried the first instant that anybody waits for.
      split at ended
      case h_1 instant least =>
        obtain ⟨m, due, possible⟩ := instantPossible patient (List.min?_mem least)
        exact possible (firstPossibleNone (Option.map_eq_none_iff.mp ended) m due)
      case h_2 none => exact waits (List.min?_eq_none_iff.mp none)

/- As many steps as there is work are enough, since each leaves less of it. -/
theorem runForOnward {start : World} {count : Nat} (enough : w.work ≤ count)
    (reached : Onward start w) :
    Onward start (t.runFor count c w).2 ∧
      ∀ m, m ≠ .interrupt → (t.runFor count c w).2.move? m = none := by
  induction count generalizing c w with
  | zero =>
    refine ⟨reached, fun m _ => show w.move? m = none from ?_⟩
    by_contra possible
    obtain ⟨next, moved⟩ := Option.ne_none_iff_exists'.mp possible
    have less := moveWork moved
    omega
  | succ count ih =>
    unfold runFor
    split
    case h_1 later next moved =>
      obtain ⟨_, m, due, possible⟩ := nextMove moved
      have on : m ≠ .interrupt := fun same => dueOnward patient _ (same ▸ due)
      have less := moveWork possible
      exact ih (by omega) (.move m reached on possible)
    case h_2 ended => exact ⟨reached, fun m on => nextNone patient ended on⟩

theorem runOnward (w : World) :
    Onward w (t.run w).2 ∧ ∀ m, m ≠ .interrupt → (t.run w).2.move? m = none :=
  runForOnward patient (Nat.le_refl _) .start

end

end SegmentPump.Timing
