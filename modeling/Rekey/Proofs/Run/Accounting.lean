import Rekey.Proofs.Run.History

/-! # Every record is accounted for once

When a live run returns, the records migrated are those of the source, each once, and its counters
and warnings say what came of them. What came of a record is what a series of attempts comes to whose
calls have the outcomes that the store gave to this record. -/
namespace Rekey.Run

open Counter (Tally)

def started (moves : List (State × Event)) : List (Record × Nat) :=
  Migration.startedIn (history moves)

/-- The series of attempts that the answers to a record make up. -/
def seriesFor (config : Config) (moves : List (State × Event)) (fraction : Nat → Float)
    (number : Nat) : Retry.Transcript Float Bool Nat :=
  Migration.seriesOf config.retry (Migration.answersTo number (history moves)) fraction

def wrote : Except Failure Bool → Bool
  | .ok true => true
  | .ok false | .error _ => false

theorem wrote_iff {outcome : Except Failure Bool} : wrote outcome = true ↔ outcome = .ok true := by
  constructor
  · intro h
    cases outcome with
    | error => cases h
    | ok written =>
      cases written with
      | true => rfl
      | false => cases h
  · rintro rfl
    rfl

def declined : Except Failure Bool → Bool
  | .ok false => true
  | .ok true | .error _ => false

def raised : Except Failure Bool → Bool
  | .error _ => true
  | .ok _ => false

def warningFor (record : Record) : Except Failure Bool → Option Notice
  | .error failure => some (.recordAbandoned record.key failure)
  | .ok _ => none

/-- What a live run over `records` shows when it has returned. -/
structure Accounted (config : Config) (baseline : Tally) (records : List Record)
    (moves : List (State × Event)) (fraction : Nat → Float) (t : State) : Prop where
  records_once : ((started moves).map (·.1)).Perm records
  numbers_once : ((started moves).map (·.2)).Perm (List.range records.length)
  calls : ∀ k ∈ started moves, (seriesFor config moves fraction k.2).calls =
    (Migration.answersTo k.2 (history moves)).length
  inspected : t.tally.inspected = baseline.inspected + records.length
  migrated : t.tally.migrated = baseline.migrated +
    (started moves).countP fun k => wrote (seriesFor config moves fraction k.2).outcome
  abandoned : t.tally.abandoned = baseline.abandoned +
    (started moves).countP fun k => raised (seriesFor config moves fraction k.2).outcome
  remaining : records.length =
    ((started moves).countP fun k => wrote (seriesFor config moves fraction k.2).outcome) +
    ((started moves).countP fun k => raised (seriesFor config moves fraction k.2).outcome) +
    ((started moves).countP fun k => declined (seriesFor config moves fraction k.2).outcome)
  warnings : (t.log.filter (·.level == .warning)).Perm
    ((started moves).filterMap fun k =>
      warningFor k.1 (seriesFor config moves fraction k.2).outcome)

section Completed
variable {config : Config} {baseline : Tally} {source : Nat → Stream Record} {s : State}
  {summary : Summary}

theorem Invariant.finished (h : Invariant config baseline source s)
    (completed : s.status = .completed summary) : s.migration.status = .finished := by
  rcases h.status with ⟨hs, -⟩ | ⟨-, -, hm⟩
  · rw [completed] at hs; cases hs
  · exact hm

theorem Invariant.summary_eq (h : Invariant config baseline source s)
    (completed : s.status = .completed summary) : ∃ now, summary = s.summary now := by
  rcases h.status with ⟨hs, -⟩ | ⟨now, hs, -⟩
  · rw [completed] at hs; cases hs
  · rw [completed] at hs; exact ⟨now, Status.completed.inj hs⟩

theorem Invariant.nothing_left (h : Invariant config baseline source s)
    (completed : s.status = .completed summary) :
    s.migration.pending = [] ∧ s.dispatch.ready = [] ∧ s.dispatch.current = [] ∧ s.held = [] ∧
      s.scan.status = .ended := by
  obtain ⟨htasks, hsupply⟩ := h.ledger.finished (h.finished completed)
  have hwaiting := h.ledger.last hsupply
  have hended : s.dispatch.status = .ended := by
    rcases h.handing.supply with ⟨-, hs⟩ | ⟨hs, -⟩
    · rw [hsupply] at hs; cases hs
    · exact hs
  obtain ⟨hready, hcurrent, hpuller⟩ := h.dispatch.ended hended
  obtain ⟨hscan, hheld⟩ := h.gathering.ended hpuller
  exact ⟨by simp [Migration.State.pending, hwaiting, htasks], hready, hcurrent, hheld, hscan⟩

/-- The records inspected by a run that has returned are those of its streams. -/
theorem Invariant.given_perm (h : Invariant config baseline source s)
    (completed : s.status = .completed summary) :
    s.given.Perm ((List.range config.segments).flatMap fun i => (source i).items) := by
  obtain ⟨-, hready, hcurrent, hheld, hscan⟩ := h.nothing_left completed
  have hrecords := h.dispatch.records_eq
  rw [hready, hcurrent, List.flatten_nil, List.append_nil, List.append_nil] at hrecords
  have hgathered := h.gathering.gathered (by simp [hscan])
  rw [hheld, List.append_nil] at hgathered
  rw [State.given, hrecords]
  exact ((List.reverse_perm _).flatten.trans hgathered).trans (h.scan.yielded_perm hscan)

theorem Invariant.settled_perm (h : Invariant config baseline source s)
    (completed : s.status = .completed summary) :
    (s.migration.settled.map Migration.Settled.key).Perm s.given.zipIdx := by
  have hknown := h.ledger.known h.whole
  rwa [Migration.State.known, (h.nothing_left completed).1, List.map_nil, List.nil_append] at hknown

theorem Invariant.settled_records (h : Invariant config baseline source s)
    (completed : s.status = .completed summary) :
    (s.migration.settled.map (·.record)).Perm s.given := by
  have hsettled := (h.settled_perm completed).map (·.1)
  rwa [List.map_map, List.zipIdx_map_fst] at hsettled

theorem Invariant.tally_eq (h : Invariant config baseline source s) : s.tally =
    ⟨baseline.inspected + s.given.length,
      baseline.migrated + s.migration.settled.countP (·.ending.isWritten),
      baseline.abandoned + s.migration.settled.countP (·.ending.isAbandoned)⟩ := by
  rw [State.tally, h.baseline_eq, Tally.plus, h.ledger.inspected, h.ledger.migrated,
    h.ledger.abandoned]

end Completed

section Endings

theorem isWritten_ofOutcome (outcome : Except Failure Bool) :
    (Migration.Ending.ofOutcome outcome).isWritten = wrote outcome := by
  match outcome with
  | .ok true => rfl
  | .ok false => rfl
  | .error _ => rfl

theorem ofOutcome_eq_written_iff {outcome : Except Failure Bool} :
    Migration.Ending.ofOutcome outcome = .written ↔ wrote outcome = true := by
  match outcome with
  | .ok true => simp [Migration.Ending.ofOutcome, wrote]
  | .ok false => simp [Migration.Ending.ofOutcome, wrote]
  | .error _ => simp [Migration.Ending.ofOutcome, wrote]

theorem isAbandoned_ofOutcome (outcome : Except Failure Bool) :
    (Migration.Ending.ofOutcome outcome).isAbandoned = raised outcome := by
  match outcome with
  | .ok true => rfl
  | .ok false => rfl
  | .error _ => rfl

theorem warning?_eq {x : Migration.Settled} {outcome : Except Failure Bool}
    (h : x.ending = .ofOutcome outcome) : x.warning? = warningFor x.key.1 outcome := by
  unfold Migration.Settled.warning?
  rw [h]
  match outcome with
  | .ok true => rfl
  | .ok false => rfl
  | .error _ => rfl

theorem countP_outcomes {α : Type} (l : List α) (outcome : α → Except Failure Bool) :
    l.length = (l.countP fun a => wrote (outcome a)) + (l.countP fun a => raised (outcome a)) +
      (l.countP fun a => declined (outcome a)) := by
  induction l with
  | nil => rfl
  | cons a l ih =>
    simp only [List.length_cons, List.countP_cons, ih]
    match outcome a with
    | .ok true => simp [wrote, raised, declined]; omega
    | .ok false => simp [wrote, raised, declined]; omega
    | .error _ => simp [wrote, raised, declined]; omega

end Endings

section Runs
variable {config : Config} {baseline : Tally} {source : Nat → Stream Record} {t : State}
  {moves : List (State × Event)} {labelledDry : Value} {startedAt : Float} {summary : Summary}
  {records : List Record}

theorem log_warnings (h : Invariant config baseline source t) :
    t.log.filter (·.level == .warning) = t.migration.warnings := by
  have hquiet : (t.notices ++ t.scan.notices).filter (·.level == .warning) = [] :=
    List.filter_eq_nil_iff.mpr fun notice hn => by simpa using h.quiet notice hn
  rw [State.log, List.filter_append, hquiet, List.nil_append, Migration.State.warnings]

/-- A live run that has returned has begun the migrations that it has settled. -/
theorem started_perm (positive : config.Positive) (live : config.isDry = false)
    (sound : ∀ i < config.segments, (source i).failure = none)
    (trace : Trace (OrdinaryStep source) (start config labelledDry baseline startedAt) moves t)
    (completed : t.status = .completed summary) :
    (started moves).Perm (t.migration.settled.map Migration.Settled.key) := by
  have h := invariant_of_sound positive sound trace
  have hhistory := trace_migration positive (ordinary_of_sound sound) trace
  rw [live] at hhistory
  have hstarted := (Migration.trace_attempted hhistory (.inr (h.finished completed))).started
  have htasks := (List.append_eq_nil_iff.mp (h.nothing_left completed).1).2
  rwa [htasks, List.filter_nil, List.map_nil, List.nil_append] at hstarted

theorem settled_series (positive : config.Positive) (live : config.isDry = false)
    (sound : ∀ i < config.segments, (source i).failure = none)
    (trace : Trace (OrdinaryStep source) (start config labelledDry baseline startedAt) moves t)
    (completed : t.status = .completed summary) (fraction : Nat → Float) :
    ∀ x ∈ t.migration.settled,
      (seriesFor config moves fraction x.key.2).calls =
        (Migration.answersTo x.key.2 (history moves)).length ∧
      x.ending = .ofOutcome (seriesFor config moves fraction x.key.2).outcome := by
  have h := invariant_of_sound positive sound trace
  have hhistory := trace_migration positive (ordinary_of_sound sound) trace
  rw [live] at hhistory
  intro x hx
  have hc := (Migration.trace_attempted hhistory (.inr (h.finished completed))).settled x hx
  rw [h.policy] at hc
  exact hc.series fraction

/-- A live run that returns has migrated each record of its source once, and says so. -/
theorem live_run_accounts (positive : config.Positive) (live : config.isDry = false)
    (sound : ∀ i < config.segments, (source i).failure = none)
    (partition : ((List.range config.segments).flatMap fun i => (source i).items).Perm records)
    (trace : Trace (OrdinaryStep source) (start config labelledDry baseline startedAt) moves t)
    (completed : t.status = .completed summary) (fraction : Nat → Float) :
    Accounted config baseline records moves fraction t ∧ ∃ now, summary = t.summary now := by
  have h := invariant_of_sound positive sound trace
  have hstarted := started_perm positive live sound trace completed
  have hsettled := settled_series positive live sound trace completed fraction
  have hkeys := hstarted.trans (h.settled_perm completed)
  have hgiven := (h.given_perm completed).trans partition
  have hcount : ∀ p : Record × Nat → Bool, (started moves).countP p =
      t.migration.settled.countP fun x => p x.key := by
    intro p
    rw [hstarted.countP_eq, List.countP_map]
    rfl
  have hlength : (started moves).length = records.length := by
    rw [hkeys.length_eq, List.length_zipIdx, hgiven.length_eq]
  refine ⟨⟨?_, ?_, ?_, ?_, ?_, ?_, ?_, ?_⟩, h.summary_eq completed⟩
  · refine (hkeys.map (·.1)).trans ?_
    rw [List.zipIdx_map_fst]
    exact hgiven
  · refine (hkeys.map (·.2)).trans ?_
    rw [List.zipIdx_map_snd, hgiven.length_eq, List.range_eq_range']
  · intro k hk
    obtain ⟨x, hx, rfl⟩ := List.mem_map.mp (hstarted.mem_iff.mp hk)
    exact (hsettled x hx).1
  · rw [h.tally_eq, hgiven.length_eq]
  · rw [h.tally_eq, hcount]
    refine congrArg (baseline.migrated + ·) (List.countP_congr ?_)
    intro x hx
    rw [(hsettled x hx).2, isWritten_ofOutcome]
  · rw [h.tally_eq, hcount]
    refine congrArg (baseline.abandoned + ·) (List.countP_congr ?_)
    intro x hx
    rw [(hsettled x hx).2, isAbandoned_ofOutcome]
  · rw [← hlength]
    exact countP_outcomes (started moves) fun k => (seriesFor config moves fraction k.2).outcome
  · rw [log_warnings h, h.ledger.warnings,
      List.filterMap_congr fun x hx => warning?_eq (hsettled x hx).2]
    refine List.Perm.trans (.of_eq ?_) (hstarted.filterMap _).symm
    rw [List.filterMap_map]
    rfl

end Runs

/-- One record is written, one declined and one abandoned, with one warning. -/
theorem wide_run_accounts : wideConfig.Positive ∧
    Accounted wideConfig .zero [ada, bea, cleo] wideMoves (fun _ => 0) wideEnd ∧
    wideEnd.tally = ⟨3, 1, 1⟩ := by
  have partition : ((List.range wideConfig.segments).flatMap fun i => (wideSource i).items).Perm
      [ada, bea, cleo] := by decide
  have accounts := live_run_accounts wide_positive rfl (fun i _ => wide_sound i) partition
    wide_trace rfl fun _ => 0
  exact ⟨wide_positive, accounts.1, by decide +kernel⟩

end Rekey.Run
