import SegmentPump.CommandLine.Outcome
import SegmentPump.Proofs.Simulation.Delivery
import SegmentPump.Proofs.Text.Decimal

/-! Where the settings of a simulation come from. Each of them is settled on its own:
an option goes before a variable of the environment, and a variable before the standard
value. A variable that holds no number of 64 bits might as well not be there, and one
that holds a zero where a warning depth belongs makes the simulation fail. -/
namespace SegmentPump

namespace Environment

variable {env other : Environment} {given standard value : Option UInt64} {name : String}

def Holds (env : Environment) (name : String) (w : UInt64) : Prop :=
  ∃ text, Decimal.Numeral text w.toNat ∧ env.lookup name = some text.toUTF8

inductive Layered (env : Environment) (given : Option UInt64) (name : String)
    (standard : Option UInt64) : Option UInt64 → Prop where
  | given {w : UInt64} (option : given = some w) : Layered env given name standard (some w)
  | held {w : UInt64} (free : given = none) (held : env.Holds name w) :
      Layered env given name standard (some w)
  | standard (free : given = none) (unheld : ∀ w, ¬ env.Holds name w) :
      Layered env given name standard standard

theorem numberIff {w : UInt64} : env.number? name = some w ↔ env.Holds name w := by
  rw [number?, Option.bind_eq_some_iff, Holds]
  constructor
  · rintro ⟨bytes, found, read⟩
    obtain ⟨text, numeral, rfl⟩ := Decimal.readWordIff.mp read
    exact ⟨text, numeral, found⟩
  · rintro ⟨text, numeral, found⟩
    exact ⟨text.toUTF8, found, Decimal.readWordIff.mpr ⟨text, numeral, rfl⟩⟩

theorem numberNone : env.number? name = none ↔ ∀ w, ¬ env.Holds name w := by
  simp only [Option.eq_none_iff_forall_ne_some, ne_eq, numberIff]

theorem numberSame (same : ∀ w, env.Holds name w ↔ other.Holds name w) :
    env.number? name = other.number? name :=
  Option.ext fun w => by rw [numberIff, numberIff, same]

theorem layeredIff :
    env.Layered given name standard value ↔ value = (given.or (env.number? name)).or standard := by
  constructor
  · intro layered
    cases layered with
    | given option => rw [option]; rfl
    | held free held => rw [free, numberIff.mpr held]; rfl
    | standard free unheld => rw [free, numberNone.mpr unheld]; rfl
  · rintro rfl
    cases option : given with
    | some w => exact .given rfl
    | none =>
      cases number : env.number? name with
      | some w => exact .held rfl (numberIff.mp number)
      | none => exact .standard rfl (numberNone.mp number)

theorem layeredGetD {d : UInt64} :
    env.Layered given name (some d) value ↔
      value = some (given.getD ((env.number? name).getD d)) := by
  rw [layeredIff]
  cases given <;> cases env.number? name <;> exact Iff.rfl

end Environment

namespace CommandLine

variable (o : SimulateOptions) (env : Environment)

theorem settingsSame {other : Environment}
    (same : ∀ name w, other.Holds name w ↔ env.Holds name w) :
    o.settings other = o.settings env := by
  have number (name : String) : other.number? name = env.number? name :=
    Environment.numberSame (same name)
  simp only [SimulateOptions.settings, Settings.ofEnvironment, number]

theorem settingsDepth :
    (o.settings env).queueWarnDepth = 0 ↔ env.Holds Environment.queueWarnDepth 0 := by
  have depth : (o.settings env).queueWarnDepth =
      (env.number? Environment.queueWarnDepth).getD Settings.standard.queueWarnDepth := rfl
  rw [depth, ← Environment.numberIff]
  cases env.number? Environment.queueWarnDepth with
  | none => decide
  | some w => simp

theorem settingsValid :
    (o.settings env).validate =
      if (o.settings env).queueWarnDepth = 0 then
        .error (.configuration "queue_warn_depth must be at least 1")
      else .ok () := by
  have ordered : ¬ (o.settings env).maxSegmentSize < (o.settings env).minSegmentSize :=
    (by decide : ¬ Settings.standard.maxSegmentSize < Settings.standard.minSegmentSize)
  rw [Settings.validate, if_neg ordered]

theorem settingsSized : (o.settings env).Sized :=
  .inr (by decide : Settings.standard.maxSegmentSize < 18446744073709551615)

theorem simulateRejected (drawn : UInt64) {reason : String}
    (invalid : (o.settings env).validate = .error (.configuration reason)) :
    let failure := SimulationError.invalidConfiguration (Failure.configuration reason).message
    (o.settings env).simulate drawn = .error (.error failure) ∧
      simulate o env drawn =
        { code := 1, printed := .lines [], logWritten := true, log := []
          complaint := ["simulated session failed", failure.message] } := by
  intro failure
  have failed : (o.settings env).simulate drawn = .error (.error failure) := by
    simp only [Settings.simulate, invalid, failure]
  refine ⟨failed, ?_⟩
  simp only [simulate, failed]
  rfl

theorem simulateAccepted (drawn : UInt64) (valid : (o.settings env).validate = .ok ()) :
    let s := o.settings env
    ∃ feed report log, s.segments (.ofSeed (s.seed.getD drawn)) = .ok feed ∧
      feed.length = s.segmentCount.toNat ∧ s.simulate drawn = .ok (report, log) ∧
      report.seed = s.seed.getD drawn ∧ Delivered feed report ∧
      simulate o env drawn =
        { code := 0, complaint := [], logWritten := true, log
          printed := if o.json then .report report else .lines (reportLines report) } := by
  intro s
  obtain ⟨feed, fed, length, numbers⟩ :=
    Settings.segmentsSized (settingsSized o env) (.ofSeed (s.seed.getD drawn))
  obtain ⟨report, log, ran, seed, delivered⟩ := Settings.simulated valid drawn fed numbers
  refine ⟨feed, report, log, fed, length, ran, seed, delivered, ?_⟩
  -- What is delivered is in order, so that nobody complains about that.
  simp only [simulate, ran, delivered.inOrder, if_true]

theorem settingsLayered (o : SimulateOptions) (env : Environment) (drawn : UInt64) :
    let s := o.settings env
    (∀ v, env.Layered o.seed Environment.seed Settings.standard.seed v ↔ v = s.seed) ∧
    (∀ v, env.Layered o.openDelay Environment.sinkOpenDelay
      (some Settings.standard.sinkOpenDelay) v ↔ v = some s.sinkOpenDelay) ∧
    (∀ v, env.Layered o.appendLatency Environment.appendLatency
      (some Settings.standard.appendLatency) v ↔ v = some s.appendLatency) ∧
    (∀ v, env.Layered o.interval Environment.segmentInterval
      (some Settings.standard.segmentInterval) v ↔ v = some s.segmentInterval) ∧
    (∀ v, env.Layered none Environment.queueWarnDepth
      (some Settings.standard.queueWarnDepth) v ↔ v = some s.queueWarnDepth) ∧
    s.segmentCount = o.segments.getD Settings.standard.segmentCount ∧
    s.sizes = Settings.standard.sizes ∧
    (∀ name (other : Environment),
      (∀ different, different ≠ name → other.lookup different = env.lookup different) →
      (∀ w, ¬ env.Holds name w) → (∀ w, ¬ other.Holds name w) → o.settings other = s) ∧
    (s.validate ≠ .ok () ↔ env.Holds Environment.queueWarnDepth 0) ∧
    (env.Holds Environment.queueWarnDepth 0 →
      s.simulate drawn = .error (.error (.invalidConfiguration
        "Configuration error: queue_warn_depth must be at least 1")) ∧
      simulate o env drawn =
        { code := 1, printed := .lines [], logWritten := true, log := []
          complaint := ["simulated session failed",
            "Invalid simulation configuration: Configuration error: " ++
              "queue_warn_depth must be at least 1"] }) ∧
    (¬ env.Holds Environment.queueWarnDepth 0 →
      ∃ feed report log, s.segments (.ofSeed (s.seed.getD drawn)) = .ok feed ∧
        feed.length = s.segmentCount.toNat ∧ s.simulate drawn = .ok (report, log) ∧
        report.seed = s.seed.getD drawn ∧ Delivered feed report ∧
        simulate o env drawn =
          { code := 0, complaint := [], logWritten := true, log
            printed := if o.json then .report report else .lines (reportLines report) }) := by
  intro s
  have valid := settingsValid o env
  refine ⟨fun v => ?_, fun v => Environment.layeredGetD, fun v => Environment.layeredGetD,
    fun v => Environment.layeredGetD, fun v => Environment.layeredGetD, rfl, rfl,
    fun name other same free free' => ?_, ?_, fun zero => ?_, fun positive => ?_⟩
  · rw [Environment.layeredIff, Option.or_assoc]
    rfl
  · refine settingsSame o env fun asked w => ?_
    by_cases here : asked = name
    · subst here
      exact iff_of_false (free' w) (free w)
    · rw [Environment.Holds, same asked here]
      exact Iff.rfl
  · rw [← settingsDepth o env, valid, ne_eq, ite_eq_right_iff]
    simp
  · rw [if_pos ((settingsDepth o env).mpr zero)] at valid
    exact simulateRejected o env drawn valid
  · rw [if_neg (mt (settingsDepth o env).mp positive)] at valid
    exact simulateAccepted o env drawn valid

/- A zero with a sign, a seed with zeros before it, an option in front of a variable, and
a number of 65 bits that might as well not be there. Without the variables the seed is the
one that was drawn. -/
theorem settingsLayeredZero :
    let o : SimulateOptions := { openDelay := some 3, segments := some 2, json := true }
    let rest : Environment :=
      [(Environment.queueWarnDepth, "+00".toUTF8), (Environment.seed, "007".toUTF8),
        (Environment.sinkOpenDelay, "9".toUTF8)]
    let env : Environment :=
      (Environment.appendLatency, "18446744073709551616".toUTF8) :: rest
    let s := o.settings env
    s.seed = some 7 ∧ s.sinkOpenDelay = 3 ∧ s.appendLatency = 20 ∧ o.settings rest = s ∧
      env.Holds Environment.queueWarnDepth 0 ∧ s.validate ≠ .ok () ∧
      (simulate o env 1).code = 1 ∧
      ∃ report, (simulate o [] 1).code = 0 ∧ (simulate o [] 1).printed = .report report ∧
        report.seed = 1 ∧ report.accepted = [0, 1] := by
  intro o rest env s
  obtain ⟨seed, delay, latency, _, _, _, _, spared, rejected, fails, _⟩ := settingsLayered o env 1
  have sevenDigits : Decimal.Digits ['0', '0', '7'] 7 :=
    ⟨by decide, List.all_eq_true.mp rfl, by decide⟩
  have seven : env.Holds Environment.seed 7 := ⟨"007", .plain sevenDigits, rfl⟩
  have zeroDigits : Decimal.Digits ['0', '0'] 0 := ⟨by decide, List.all_eq_true.mp rfl, by decide⟩
  have zero : env.Holds Environment.queueWarnDepth 0 := ⟨"+00", .signed zeroDigits, rfl⟩
  have large (w : UInt64) : ¬ env.Holds Environment.appendLatency w :=
    Environment.numberNone.mp (by decide) w
  have absent (w : UInt64) : ¬ rest.Holds Environment.appendLatency w :=
    Environment.numberNone.mp (by decide) w
  have empty : ¬ Environment.Holds [] Environment.queueWarnDepth 0 := by
    rintro ⟨_, _, found⟩
    cases found
  obtain ⟨feed, report, log, _, length, _, drawn, delivered, printed⟩ :=
    (settingsLayered o [] 1).2.2.2.2.2.2.2.2.2.2 empty
  refine ⟨((seed _).mp (.held rfl seven)).symm, ?_, ?_, ?_, zero, rejected.mpr zero, ?_,
    report, ?_, ?_, drawn, ?_⟩
  · exact (Option.some.inj ((delay _).mp (.given rfl))).symm
  · exact (Option.some.inj ((latency _).mp (.standard rfl large))).symm
  · refine spared Environment.appendLatency rest (fun different other => ?_) large absent
    have passed : (different == Environment.appendLatency) = false := beq_false_of_ne other
    simp only [env, List.lookup_cons, passed]
  · rw [(fails zero).2]
  · rw [printed]
  · rw [printed]
    rfl
  · rw [delivered.accepted, length]
    rfl

end CommandLine
end SegmentPump
