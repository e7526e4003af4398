import Rekey.Proofs.Migration.Calls
import Rekey.Proofs.Run.Accounting
import Rekey.Proofs.Run.Progress

/-! # The result of a run is that of its records one by one

Where keys are distinct and the store answers each call by its key and the number of earlier calls for
it, a live run comes to what the records come to each on its own, in whatever order things happen and
however the run is configured. -/
namespace Rekey.Run

open Counter (Tally)
open Migration (Script)

/-- The store answers the calls of a run by a script. -/
def Event.Scripted (script : Script) (s : State) : Event → Prop
  | .answer number outcome fraction =>
    (Migration.Event.answer number outcome fraction).Scripted script s.migration
  | _ => True

def ScriptedStep (source : Nat → Stream Record) (script : Script) (s : State) (e : Event)
    (t : State) : Prop :=
  OrdinaryStep source s e t ∧ e.Scripted script s

def OrdinaryScript (script : Script) : Prop :=
  ∀ key n failure, script key n = .error failure → failure.isOrdinary = true

/-- What a record comes to on its own. -/
def alone (p : Retry.Policy Float) (outcomes : Nat → Except Failure Bool) :
    Retry.Transcript Float Bool Nat :=
  Retry.runOutcomes p Failure.isTransient outcomes fun _ => 0

def State.Wrote (s : State) (key : String) : Prop :=
  ∃ x ∈ s.migration.settled, x.record.key = key ∧ x.ending = .written

/-- What a run over `records` has come to is what they come to one by one. -/
structure Sequential (p : Retry.Policy Float) (script : Script) (records : List Record)
    (t : State) : Prop where
  inspected : t.migration.tally.inspected = records.length
  migrated : t.migration.tally.migrated =
    records.countP fun r => wrote (alone p (script r.key)).outcome
  abandoned : t.migration.tally.abandoned =
    records.countP fun r => raised (alone p (script r.key)).outcome
  calls : ∀ r ∈ records, t.migration.callsFor r.key = (alone p (script r.key)).calls
  no_calls : ∀ key, key ∉ records.map (·.key) → t.migration.callsFor key = 0
  wrote_iff : ∀ key, t.Wrote key ↔
    ∃ r ∈ records, r.key = key ∧ wrote (alone p (script r.key)).outcome = true

section Alone
variable {p : Retry.Policy Float}

theorem concluded_alone {outcomes : Nat → Except Failure Bool}
    {answers : List (Except Failure Bool)} {ending : Migration.Ending}
    (concluded : Migration.Concluded p answers ending)
    (own : Migration.AnswersOf outcomes answers) :
    (alone p outcomes).calls = answers.length ∧ ending = .ofOutcome (alone p outcomes).outcome := by
  obtain ⟨last, earlier, rfl, gone, stops, rfl⟩ := concluded
  obtain ⟨rfl, own⟩ := own
  obtain ⟨hcalls, houtcome⟩ := Retry.runOutcomes_of_goesOn
    (fun i hi => gone.getElem? (own.getElem? hi)) stops fun _ => 0
  exact ⟨hcalls, by rw [alone, houtcome]⟩

end Alone

section Runs
variable {config : Config} {baseline : Tally} {source : Nat → Stream Record} {script : Script}
  {s t : State} {moves : List (State × Event)} {labelledDry : Value} {startedAt : Float}
  {summary : Summary} {records : List Record}

theorem scripted_migration {e : Event} {e' : Migration.Event} (scripted : e.Scripted script s)
    (label : s.migrationEvent? e = some e') : e'.Scripted script s.migration := by
  cases e' with
  | answer number outcome fraction =>
    cases e with
    | answer => cases label; exact scripted
    | request => simp only [State.migrationEvent?] at label; split at label <;> cases label
    | begin => obtain ⟨record, -, h⟩ := Option.map_eq_some_iff.mp label; cases h
    | surrender => simp only [State.migrationEvent?] at label; split at label <;> cases label
    | _ => cases label
  | _ => trivial

theorem scripted_trace_migration (positive : config.Positive)
    (ordinary : Scan.Ordinary source config.segments)
    (trace : Trace (ScriptedStep source script) (start config labelledDry baseline startedAt) moves
      t) :
    Trace (Migration.ScriptedStep script)
      (Migration.start config.isDry config.maxConcurrency config.retry) (history moves)
      t.migration := by
  have guarded := (invariant_all_along positive ordinary (fun _ _ _ step => step.1) trace).1
  refine guarded.component State.migration State.migrationEvent? ?_
  intro t e u step
  rcases migration_step step.1 step.2.1 with ⟨e', hlabel, own⟩ | hrest
  · exact .inl ⟨e', hlabel, own, scripted_migration step.2.2 hlabel⟩
  · exact .inr hrest

theorem called_of_completed (positive : config.Positive) (live : config.isDry = false)
    (sound : ∀ i < config.segments, (source i).failure = none)
    (partition : ((List.range config.segments).flatMap fun i => (source i).items).Perm records)
    (distinct : (records.map (·.key)).Nodup)
    (trace : Trace (ScriptedStep source script) (start config labelledDry baseline startedAt) moves
      t)
    (completed : t.status = .completed summary) : ∃ given : List Record,
      given.Perm records ∧ Migration.Called script given (history moves) t.migration := by
  have h := invariant_of_sound positive sound (trace.mono fun _ _ _ step => step.1)
  have hhistory := scripted_trace_migration positive (ordinary_of_sound sound) trace
  rw [live] at hhistory
  have hledger := Migration.trace_ledger (hhistory.mono fun _ _ _ step => step.1)
  have hinspected := (hledger.given_perm h.ledger h.whole).trans
    ((h.given_perm completed).trans partition)
  exact ⟨_, hinspected, Migration.trace_called hhistory (.inr (h.finished completed))
    (((hinspected.map _).nodup_iff).mpr distinct)⟩

/-- What is settled when a live run has returned has been settled as its records come to alone. -/
theorem settled_alone (positive : config.Positive) (live : config.isDry = false)
    (sound : ∀ i < config.segments, (source i).failure = none) {given : List Record}
    (trace : Trace (ScriptedStep source script) (start config labelledDry baseline startedAt) moves
      t)
    (completed : t.status = .completed summary)
    (called : Migration.Called script given (history moves) t.migration) :
    ∀ x ∈ t.migration.settled,
      t.migration.callsFor x.record.key = (alone config.retry (script x.record.key)).calls ∧
      x.ending = .ofOutcome (alone config.retry (script x.record.key)).outcome := by
  have hordinary := trace.mono fun _ _ _ step => step.1
  have h := invariant_of_sound positive sound hordinary
  have hhistory := trace_migration positive (ordinary_of_sound sound) hordinary
  rw [live] at hhistory
  intro x hx
  have hconcluded :=
    (Migration.trace_attempted hhistory (.inr (h.finished completed))).settled x hx
  rw [h.policy] at hconcluded
  obtain ⟨hcalls, hanswers⟩ := called.settled x hx
  obtain ⟨hcount, hending⟩ := concluded_alone hconcluded hanswers
  exact ⟨hcalls.trans hcount.symm, hending⟩

/-- A live run that has returned has come to what its records come to one by one. -/
theorem sequential_of_completed (positive : config.Positive) (live : config.isDry = false)
    (sound : ∀ i < config.segments, (source i).failure = none)
    (partition : ((List.range config.segments).flatMap fun i => (source i).items).Perm records)
    (distinct : (records.map (·.key)).Nodup)
    (trace : Trace (ScriptedStep source script) (start config labelledDry baseline startedAt) moves
      t)
    (completed : t.status = .completed summary) : Sequential config.retry script records t := by
  have h := invariant_of_sound positive sound (trace.mono fun _ _ _ step => step.1)
  obtain ⟨given, hgiven, hcalled⟩ :=
    called_of_completed positive live sound partition distinct trace completed
  have halone := settled_alone positive live sound trace completed hcalled
  have hinspected := (h.given_perm completed).trans partition
  have hrecords := (h.settled_records completed).trans hinspected
  have hcount : ∀ p : Record → Bool,
      records.countP p = t.migration.settled.countP fun x => p x.record := by
    intro p
    rw [← hrecords.countP_eq, List.countP_map]
    rfl
  refine ⟨by rw [h.ledger.inspected, hinspected.length_eq], ?_, ?_, ?_, ?_, ?_⟩
  · rw [h.ledger.migrated, hcount]
    apply List.countP_congr
    intro x hx
    rw [(halone x hx).2, isWritten_ofOutcome]
  · rw [h.ledger.abandoned, hcount]
    apply List.countP_congr
    intro x hx
    rw [(halone x hx).2, isAbandoned_ofOutcome]
  · intro r hr
    obtain ⟨x, hx, rfl⟩ := List.mem_map.mp (hrecords.mem_iff.mpr hr)
    exact (halone x hx).1
  · exact fun key hkey => hcalled.unknown key fun hmem => hkey ((hgiven.map _).mem_iff.mp hmem)
  · intro key
    constructor
    · rintro ⟨x, hx, rfl, hending⟩
      rw [(halone x hx).2, ofOutcome_eq_written_iff] at hending
      exact ⟨x.record, hrecords.mem_iff.mp (List.mem_map_of_mem hx), rfl, hending⟩
    · rintro ⟨r, hr, rfl, houtcome⟩
      obtain ⟨x, hx, rfl⟩ := List.mem_map.mp (hrecords.mem_iff.mpr hr)
      refine ⟨x, hx, rfl, ?_⟩
      rw [(halone x hx).2, ofOutcome_eq_written_iff]
      exact houtcome

theorem scripted_of_internal {e : Event} (internal : e.isInternal = true) (enabled : s.Enabled e) :
    ScriptedStep source script s e (s.next e) := by
  refine ⟨⟨.intro enabled ?_, ?_⟩, ?_⟩
  · cases e <;> trivial
  · cases e <;> trivial
  · cases e <;> trivial

/-- While a run is under way something can happen, whatever the script. -/
theorem scripted_progress (positive : config.Positive) (ordinary : OrdinaryScript script)
    (h : Invariant config baseline source s) (running : s.status = .running) :
    ∃ e u, ScriptedStep source script s e u := by
  have hrunning := State.isRunning_iff.mpr running
  have hmigration := Migration.State.isRunning_iff.mpr (h.running hrunning).2
  by_contra none
  have stuck : ∀ e u, ¬ ScriptedStep source script s e u := fun e u step => none ⟨e, u, step⟩
  have quiescent : Quiescent s := by
    refine ⟨fun e internal enabled => stuck e _ (scripted_of_internal internal enabled), ?_, ?_, ?_⟩
    · intro scanning scanRunning i
      by_contra hreading
      have hreading : s.scan.isReading i = true := by simpa using hreading
      obtain ⟨r, hr, -⟩ := Scan.State.isReading_iff.mp hreading
      refine stuck (.read i ((source i).answer r.produced.length)) _
        ⟨⟨.intro ⟨hrunning, scanning, scanRunning, hreading⟩ ?_, trivial⟩, trivial⟩
      intro r' hr'
      rw [hr] at hr'
      cases hr'
      rfl
    · intro t ht calling
      have task := Migration.State.task?_of_mem (h.ledger.tasks_nodup h.whole) ht
      refine stuck (.answer t.number
        (script t.record.key (s.migration.callsFor t.record.key - 1)) 0) _
        ⟨⟨.intro ⟨hrunning, hmigration, ?_⟩ trivial, ?_⟩, ?_⟩
      · exact Migration.State.stageIs_iff.mpr ⟨t, task, by simp [calling]⟩
      · cases ho : script t.record.key (s.migration.callsFor t.record.key - 1) with
        | ok => trivial
        | error failure => exact ordinary _ _ failure ho
      · intro t' ht'
        rw [task] at ht'
        cases ht'
        rfl
    · intro t ht delay sleeping
      have task := Migration.State.task?_of_mem (h.ledger.tasks_nodup h.whole) ht
      refine stuck (.wake t.number) _
        ⟨⟨.intro ⟨hrunning, hmigration, ?_⟩ trivial, trivial⟩, trivial⟩
      exact Migration.State.stageIs_iff.mpr ⟨t, task, by simp [sleeping]⟩
  have := quiescent.not_running h positive
  rw [hrunning] at this
  cases this

structure Returns (config : Config) (source : Nat → Stream Record) (script : Script)
    (moves : List (State × Event)) (t : State) : Prop where
  bounded : moves.length ≤ stepBound config source
  sound : t.status = .running ∨ ∃ summary, t.status = .completed summary
  goes_on : t.status = .running → ∃ e u, ScriptedStep source script t e u

theorem returns_of_sound (positive : config.Positive) (ordinary : OrdinaryScript script)
    (sound : ∀ i < config.segments, (source i).failure = none)
    (trace : Trace (ScriptedStep source script) (start config labelledDry baseline startedAt) moves
      t) : Returns config source script moves t := by
  have hordinary := trace.mono fun _ _ _ step => step.1
  have h := invariant_of_sound positive sound hordinary
  refine ⟨trace_length_le positive (ordinary_of_sound sound) hordinary, ?_,
    scripted_progress positive ordinary h⟩
  rcases h.status with ⟨hs, -⟩ | ⟨now, hs, -⟩
  · exact .inl hs
  · exact .inr ⟨_, hs⟩

end Runs

structure ScriptedRun (p : Retry.Policy Float) (records : List Record) (script : Script)
    (config : Config) (source : Nat → Stream Record) (moves : List (State × Event)) (t : State) :
    Prop where
  positive : config.Positive
  live : config.isDry = false
  policy : config.retry = p
  sound : ∀ i < config.segments, (source i).failure = none
  partition : ((List.range config.segments).flatMap fun i => (source i).items).Perm records
  ordinary : OrdinaryScript script
  trace : ∃ labelledDry baseline startedAt,
    Trace (ScriptedStep source script) (start config labelledDry baseline startedAt) moves t

section Runs
variable {p : Retry.Policy Float} {records : List Record} {script₁ script₂ : Script}
  {config₁ config₂ : Config} {source₁ source₂ : Nat → Stream Record}
  {moves₁ moves₂ : List (State × Event)} {t₁ t₂ : State} {summary₁ summary₂ : Summary}

theorem ScriptedRun.returns (run : ScriptedRun p records script₁ config₁ source₁ moves₁ t₁) :
    Returns config₁ source₁ script₁ moves₁ t₁ := by
  obtain ⟨labelledDry, baseline, startedAt, trace⟩ := run.trace
  exact returns_of_sound run.positive run.ordinary run.sound trace

theorem ScriptedRun.sequential (run : ScriptedRun p records script₁ config₁ source₁ moves₁ t₁)
    (distinct : (records.map (·.key)).Nodup) (completed : t₁.status = .completed summary₁) :
    Sequential p script₁ records t₁ := by
  obtain ⟨labelledDry, baseline, startedAt, trace⟩ := run.trace
  have := sequential_of_completed run.positive run.live run.sound run.partition distinct trace
    completed
  rwa [run.policy] at this

theorem Sequential.wrote_key_iff {script : Script} {t : State}
    (h : Sequential p script records t) {r : Record} (hr : r ∈ records) :
    t.Wrote r.key ↔ wrote (alone p (script r.key)).outcome = true := by
  rw [h.wrote_iff]
  constructor
  · rintro ⟨r', -, hkey, houtcome⟩
    rwa [hkey] at houtcome
  · exact fun houtcome => ⟨r, hr, rfl, houtcome⟩

theorem tally_ext {a b : Tally} (inspected : a.inspected = b.inspected)
    (migrated : a.migrated = b.migrated) (abandoned : a.abandoned = b.abandoned) : a = b := by
  cases a
  cases b
  simp_all

/-- Runs that come to the same for every record come to the same. -/
theorem Sequential.agree {t₁ t₂ : State} (h₁ : Sequential p script₁ records t₁)
    (h₂ : Sequential p script₂ records t₂)
    (same : ∀ r ∈ records, script₁ r.key = script₂ r.key) :
    t₁.migration.tally = t₂.migration.tally ∧
      ∀ key, t₁.migration.callsFor key = t₂.migration.callsFor key ∧
        (t₁.Wrote key ↔ t₂.Wrote key) := by
  refine ⟨tally_ext ?_ ?_ ?_, fun key => ⟨?_, ?_⟩⟩
  · rw [h₁.inspected, h₂.inspected]
  · rw [h₁.migrated, h₂.migrated]
    apply List.countP_congr
    intro r hr
    rw [same r hr]
  · rw [h₁.abandoned, h₂.abandoned]
    apply List.countP_congr
    intro r hr
    rw [same r hr]
  · by_cases hkey : key ∈ records.map (·.key)
    · obtain ⟨r, hr, rfl⟩ := List.mem_map.mp hkey
      rw [h₁.calls r hr, h₂.calls r hr, same r hr]
    · rw [h₁.no_calls key hkey, h₂.no_calls key hkey]
  · rw [h₁.wrote_iff, h₂.wrote_iff]
    refine exists_congr fun r => and_congr_right fun hr => ?_
    rw [same r hr]

/-- Two live runs of the same records, under whatever configurations with the same policy and in
whatever order things happen, both return. They agree on every record whose outcomes are the same in
both, and if all are, on everything. -/
theorem runs_agree (computes : p.Computes) (distinct : (records.map (·.key)).Nodup)
    (run₁ : ScriptedRun p records script₁ config₁ source₁ moves₁ t₁)
    (run₂ : ScriptedRun p records script₂ config₂ source₂ moves₂ t₂) :
    Returns config₁ source₁ script₁ moves₁ t₁ ∧ Returns config₂ source₂ script₂ moves₂ t₂ ∧
    (∀ summary₁ summary₂, t₁.status = .completed summary₁ → t₂.status = .completed summary₂ →
      (∀ r ∈ records, script₁ r.key = script₂ r.key →
        t₁.migration.callsFor r.key = t₂.migration.callsFor r.key ∧
        (t₁.Wrote r.key ↔ t₂.Wrote r.key)) ∧
      ((∀ r ∈ records, script₁ r.key = script₂ r.key) →
        t₁.migration.tally = t₂.migration.tally ∧
        ∀ key, t₁.migration.callsFor key = t₂.migration.callsFor key ∧
          (t₁.Wrote key ↔ t₂.Wrote key)) ∧
      ∀ r ∈ records, ∀ k,
        (∀ i < k, Retry.MayPass Failure.isTransient (script₁ r.key i)) →
        (k ≤ p.maxRetries → ¬ Retry.MayPass Failure.isTransient (script₁ r.key k)) →
        t₁.migration.callsFor r.key = min k p.maxRetries + 1) := by
  refine ⟨run₁.returns, run₂.returns, fun summary₁ summary₂ completed₁ completed₂ => ?_⟩
  have h₁ := run₁.sequential distinct completed₁
  have h₂ := run₂.sequential distinct completed₂
  refine ⟨fun r hr same => ?_, h₁.agree h₂, fun r hr k before last => ?_⟩
  · rw [h₁.calls r hr, h₂.calls r hr, h₁.wrote_key_iff hr, h₂.wrote_key_iff hr, same]
    exact ⟨rfl, Iff.rfl⟩
  · rw [h₁.calls r hr]
    exact Retry.runOutcomes_calls computes before last _

end Runs

/-! ## Two configurations

The run with every outcome, and one with a single segment, windows of one record, of which one is in
flight, and one task at a time. -/

/-- One record is written with the second call, one is declined, and any other comes to `last`. -/
def scriptWith (last : Except Failure Bool) : Script := fun key n =>
  if key = "ada" then (if n = 0 then .error busy else .ok true)
  else if key = "bea" then .ok false
  else last

def narrowSource : Nat → Stream Record := fun _ => ⟨[ada, bea, cleo], none⟩

def narrowEvents (last : Except Failure Bool) : List Event :=
  [.finish 0, .conclude, .exhaust, .collect [], .acquire, .answer 2 last 0, .put 0, .request,
    .start 2, .assign, .begin, .collect [cleo], .acquire, .answer 1 (.ok false) 0,
    .read 0 .exhausted, .put 0, .request, .start 1, .assign, .begin, .collect [bea], .acquire,
    .answer 0 (.ok true) 0, .wake 0, .answer 0 (.error busy) 0, .read 0 (.item cleo), .put 0,
    .read 0 (.item bea), .request, .start 0, .assign, .begin, .collect [ada], .put 0,
    .read 0 (.item ada), .acquire, .request]

def narrowEnd (last : Except Failure Bool) : State :=
  Trace.reached State.next smallStart (narrowEvents last)

theorem scripted_answer {script : Script} {s : State} {number : Nat}
    {outcome : Except Failure Bool} {fraction : Float} {t : Migration.Task}
    (task : s.migration.task? number = some t)
    (due : outcome = script t.record.key (s.migration.callsFor t.record.key - 1)) :
    (Event.answer number outcome fraction).Scripted script s := by
  intro t' ht'
  rw [task] at ht'
  cases ht'
  exact due

theorem scriptWith_ordinary {last : Except Failure Bool}
    (ordinary : ∀ failure, last = .error failure → failure.isOrdinary = true) :
    OrdinaryScript (scriptWith last) := by
  intro key n failure h
  unfold scriptWith at h
  split at h
  · split at h
    · cases h; rfl
    · cases h
  · split at h
    · cases h
    · exact ordinary failure h

theorem wide_scripted : ScriptedRun steadyPolicy [ada, bea, cleo] (scriptWith (.error refused))
    wideConfig wideSource wideMoves wideEnd := by
  have ordinary : OrdinaryScript (scriptWith (.error refused)) :=
    scriptWith_ordinary fun failure h => by cases h; rfl
  refine ⟨wide_positive, rfl, rfl, fun i _ => wide_sound i, by decide, ordinary, .bool false, .zero,
    0, wide_trace.restrict ?_⟩
  simp only [wideMoves, wideEvents, Trace.replay, List.forall_mem_cons]
  constructorm* _ ∧ _
  all_goals first
    | exact trivial
    | exact scripted_answer rfl rfl
    | exact fun _ mem => absurd mem List.not_mem_nil

theorem narrow_happen {last : Except Failure Bool} (h : last = .error refused ∨ last = .ok true) :
    Happen narrowSource smallStart (narrowEvents last) := by
  rcases h with rfl | rfl
  all_goals
    simp only [narrowEvents, Happen]
    constructorm* _ ∧ _
  all_goals first
    | exact trivial
    | decide +kernel
    | exact follows_read rfl rfl
    | rfl

theorem narrow_scripted {last : Except Failure Bool} (h : last = .error refused ∨ last = .ok true) :
    ScriptedRun steadyPolicy [ada, bea, cleo] (scriptWith last) smallConfig narrowSource
      (Trace.replay State.next smallStart (narrowEvents last)) (narrowEnd last) := by
  have ordinary : OrdinaryScript (scriptWith last) := by
    rcases h with rfl | rfl
    · exact scriptWith_ordinary fun failure h => by cases h; rfl
    · exact scriptWith_ordinary nofun
  refine ⟨small_positive, rfl, rfl, fun _ _ => rfl, by decide, ordinary, .bool false, .zero, 0,
    (trace_of_happen (narrow_happen h)).restrict ?_⟩
  rcases h with rfl | rfl
  all_goals
    simp only [narrowEvents, Trace.replay, List.forall_mem_cons]
    constructorm* _ ∧ _
  all_goals first
    | exact trivial
    | exact scripted_answer rfl rfl
    | exact fun _ mem => absurd mem List.not_mem_nil

theorem steady_computes : steadyPolicy.Computes :=
  Retry.Policy.computes_of_plain (by decide +kernel)

/-- In both configurations the record that fails once is called for twice. What the last record
comes to makes no difference to the others. -/
theorem wide_and_narrow_agree :
    (wideEnd.migration.tally = (narrowEnd (.error refused)).migration.tally ∧
      ∀ key, wideEnd.migration.callsFor key =
        (narrowEnd (.error refused)).migration.callsFor key) ∧
    (wideEnd.migration.tally ≠ (narrowEnd (.ok true)).migration.tally ∧
      ∀ r ∈ [ada, bea],
        wideEnd.migration.callsFor r.key = (narrowEnd (.ok true)).migration.callsFor r.key ∧
        (wideEnd.Wrote r.key ↔ (narrowEnd (.ok true)).Wrote r.key)) ∧
    wideEnd.migration.callsFor "ada" = 2 := by
  obtain ⟨-, -, same⟩ := runs_agree steady_computes (by decide) wide_scripted
    (narrow_scripted (.inl rfl))
  obtain ⟨-, -, other⟩ := runs_agree steady_computes (by decide) wide_scripted
    (narrow_scripted (.inr rfl))
  obtain ⟨-, all, calls⟩ := same _ _ rfl rfl
  obtain ⟨tally, keys⟩ := all fun _ _ => rfl
  obtain ⟨each, -, -⟩ := other _ _ rfl rfl
  refine ⟨⟨tally, fun key => (keys key).1⟩, ⟨by decide +kernel, fun r mem => ?_⟩, ?_⟩
  · have known : r ∈ [ada, bea, cleo] := List.mem_append_left [cleo] mem
    refine each r known ?_
    simp only [List.mem_cons, List.not_mem_nil, or_false] at mem
    rcases mem with rfl | rfl <;> rfl
  · refine calls ada (by simp) 1 (fun i hi => ?_) fun _ passes => ?_
    · obtain rfl : i = 0 := by omega
      exact ⟨busy, rfl, rfl⟩
    · obtain ⟨failure, h, -⟩ := passes
      cases h

end Rekey.Run
