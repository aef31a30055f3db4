import SegmentPump.CommandLine.Outcome
import SegmentPump.Proofs.Rehearsal.Interleaving

/-! A replay runs the scenario once for each of its seeds, one after the other, and
every run is clean. Its seeds are the numbers from the first one on, as many as it
has runs, but never the largest number of 64 bits. -/
namespace SegmentPump.CommandLine

/- The number after the last seed would be one of 65 bits. -/
theorem seedsNumbered (o : ReplayOptions) :
    o.seeds.map UInt64.toNat =
      List.range' o.seed.toNat (min o.runs.toNat (18446744073709551615 - o.seed.toNat)) := by
  rw [ReplayOptions.seeds, List.map_map, List.range'_eq_map_range]
  refine List.map_congr_left fun index inside => ?_
  have below := List.mem_range.mp inside
  have offset : (UInt64.ofNat index).toNat = index :=
    UInt64.toNat_ofNat_of_lt' (show index < 2 ^ 64 by omega)
  rw [Function.comp_apply, UInt64.toNat_add, offset]
  exact Nat.mod_eq_of_lt (by omega)

theorem seedsRequested (o : ReplayOptions) :
    o.seeds.map UInt64.toNat = List.range' o.seed.toNat o.runs.toNat ↔
      o.seed.toNat + o.runs.toNat < 18446744073709551616 := by
  rw [seedsNumbered]
  have first := o.seed.toNat_lt
  constructor
  · intro same
    have count := congrArg List.length same
    rw [List.length_range', List.length_range'] at count
    omega
  · intro small
    rw [Nat.min_eq_left (by omega)]

structure Rehearsed (o : ReplayOptions) (warnDepth : Nat) (seed : UInt64)
    (r : Interleaving.Report) : Prop where
  ran : ({ seed, segmentCount := o.segments.toNat } : Interleaving).run warnDepth = .ok r
  seed : r.seed = seed
  clean : r.Clean o.segments.toNat
  events : (eventLines r.trace).length = 3 * o.segments.toNat + r.trace.count .ready

theorem rehearsedOne (o : ReplayOptions) (warnDepth : Nat) (seed : UInt64) :
    ∃ r, Rehearsed o warnDepth seed r := by
  let i : Interleaving := { seed, segmentCount := o.segments.toNat }
  have fits : i.segmentCount ≤ 256 ^ Header.size := Nat.le_of_lt o.segments.toNat_lt
  have bounded : i.sizes.largest ≠ 18446744073709551615 := (by decide : (256 : UInt64) ≠ _)
  obtain ⟨report, ran, number, clean⟩ :=
    Interleaving.runsClean i (.ofSeed seed) warnDepth fits (.inr bounded)
  refine ⟨report, ran, number, clean, ?_⟩
  rw [eventLines, List.length_map, List.length_zipIdx]
  exact clean.length

theorem rehearsedAll (o : ReplayOptions) (warnDepth : Nat) (seeds : List UInt64) :
    ∃ reports, List.Forall₂ (Rehearsed o warnDepth) seeds reports := by
  induction seeds with
  | nil => exact ⟨[], .nil⟩
  | cons seed rest ih =>
    obtain ⟨report, one⟩ := rehearsedOne o warnDepth seed
    obtain ⟨reports, all⟩ := ih
    exact ⟨report :: reports, .cons one all⟩

def cleanLine (r : Interleaving.Report) : String :=
  s!"seed {r.seed}: ok ({r.trace.length} events, " ++
    s!"peak queue {r.stats.peakQueueDepth})"

def ReplayOptions.passage (o : ReplayOptions) (r : Interleaving.Report) : List String :=
  (if o.verbose then eventLines r.trace else []) ++ [cleanLine r]

theorem addClean {o : ReplayOptions} {r : Interleaving.Report} (clean : r.violations = [])
    (p : Replayed) :
    p.add o.verbose r =
      { lines := p.lines.append (o.passage r), failed := p.failed, log := p.log.append r.log } := by
  have isClean : r.isClean = true := by rw [Interleaving.Report.isClean, clean]; rfl
  have verdict : verdictLines r = [cleanLine r] := by
    rw [verdictLines, if_pos isClean]
    rfl
  rw [Replayed.add, verdict, if_pos isClean]
  congr 1
  apply Line.ext
  cases verbose : o.verbose <;> simp [ReplayOptions.passage, verbose]

theorem replayedSeeds {o : ReplayOptions} {warnDepth : Nat} {seeds : List UInt64}
    {reports : List Interleaving.Report} (all : List.Forall₂ (Rehearsed o warnDepth) seeds reports)
    {p : Replayed} (clean : p.failed = 0) :
    replaySeeds o warnDepth seeds p =
      { printed := .lines (p.lines.toList ++ reports.flatMap o.passage)
        log := p.log.toList ++ reports.flatMap (·.log) } := by
  induction all generalizing p with
  | nil => rw [replaySeeds, if_pos clean]; simp
  | @cons seed report seeds reports one rest ih =>
    rw [replaySeeds, one.ran]
    refine (ih (p := p.add o.verbose report) ?_).trans ?_
    · rw [addClean one.clean.violations]
      exact clean
    · rw [addClean one.clean.violations]
      simp

def isVerdict (line : String) : Bool := "seed ".toList.isPrefixOf line.toList

theorem eventNoVerdict {t : Trace} {line : String} (member : line ∈ eventLines t) :
    isVerdict line = false := by
  obtain ⟨⟨event, index⟩, _, rfl⟩ := List.mem_map.mp member
  simp only [isVerdict, String.toList_append, List.append_assoc]
  rfl

theorem cleanVerdict (r : Interleaving.Report) : isVerdict (cleanLine r) = true := by
  simp only [isVerdict, cleanLine, String.toList_append, List.append_assoc,
    List.isPrefixOf_iff_prefix]
  exact List.prefix_append _ _

theorem passageVerdicts (o : ReplayOptions) (r : Interleaving.Report) :
    (o.passage r).filter isVerdict = [cleanLine r] := by
  have events : (if o.verbose then eventLines r.trace else []).filter isVerdict = [] := by
    rw [List.filter_eq_nil_iff]
    intro line member
    rw [eventNoVerdict (List.mem_ite_nil_right.mp member).2]
    exact Bool.false_ne_true
  rw [ReplayOptions.passage, List.filter_append, events, List.filter_singleton, cleanVerdict]
  rfl

theorem replayCoversSeeds (o : ReplayOptions) (env : Environment) :
    let warnDepth := (Settings.ofEnvironment env).queueWarnDepth.toNat
    ∃ reports, List.Forall₂ (Rehearsed o warnDepth) o.seeds reports ∧
      replay o env =
        { code := 0, printed := .lines (reports.flatMap o.passage), complaint := []
          logWritten := true, log := reports.flatMap (·.log) } ∧
      (reports.flatMap o.passage).filter isVerdict = reports.map cleanLine ∧
      o.seeds.map UInt64.toNat =
        List.range' o.seed.toNat (min o.runs.toNat (18446744073709551615 - o.seed.toNat)) ∧
      (o.seeds.map UInt64.toNat = List.range' o.seed.toNat o.runs.toNat ↔
        o.seed.toNat + o.runs.toNat < 18446744073709551616) := by
  intro warnDepth
  obtain ⟨reports, all⟩ := rehearsedAll o warnDepth o.seeds
  refine ⟨reports, all, (replayedSeeds all rfl).trans rfl, ?_, seedsNumbered o, seedsRequested o⟩
  rw [List.filter_flatMap, List.map_eq_flatMap]
  simp only [passageVerdicts]

theorem replayOmitsLargest :
    let o : ReplayOptions := { seed := 18446744073709551615, segments := 12 }
    o.seed.toNat + o.runs.toNat = 18446744073709551616 ∧
      o.seeds.map UInt64.toNat ≠ List.range' o.seed.toNat o.runs.toNat ∧
      (replay o []).printed.text = [] ∧ (replay o []).code = 0 := by
  decide

end SegmentPump.CommandLine
