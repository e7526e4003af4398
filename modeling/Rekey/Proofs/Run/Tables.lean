import Rekey.Proofs.Migration.Replies
import Rekey.Proofs.Run.Reading
import Rekey.Proofs.Service.Memory

/-! # What a run leaves behind in the tables

A live run over a client without failures writes an item for each well-formed legacy item of the
source whose record has not expired and has no item in the destination, and changes nothing else. -/
namespace Rekey.Run

open Counter (Tally)
open Migration (Answered resolved)
open Service (Client Item Memory Repository Reliable Serving Session Tells View due)

inductive Work.Change {μ : Type} [Client μ] (w : Work μ) : Work.Event → Work μ → Prop where
  | page {i : Nat} {session : Session μ} : w.run.scan.isReading i = true →
    w.advance i = (none, session) → Change w (.page i) { w with session }
  | read {i : Nat} {answer : Answer Record} {session : Session μ} :
    w.run.Enabled (.read i answer) → w.advance i = (some answer, session) →
    Change w (.read i) { w with run := w.run.next (.read i answer), session }
  | carryOut {t : Migration.Task} {outcome : Except Failure Bool} {session : Session μ} :
    t ∈ w.run.migration.tasks → t.stage = .calling → (∀ y ∈ w.replies, y.number ≠ t.number) →
    w.session.migrate t.record = (outcome, session) →
    Change w (.carryOut t.number)
      { w with session, replies := ⟨t.number, t.record, outcome⟩ :: w.replies }
  | answer {y : Reply} {fraction : Float} : y ∈ w.replies →
    w.run.Enabled (.answer y.number y.outcome fraction) →
    Change w (.answer y.number fraction)
      { w with
        run := w.run.next (.answer y.number y.outcome fraction)
        replies := w.replies.filter (·.number != y.number) }
  | inner {e : Run.Event} : e.isInner = true → w.run.Enabled e →
    Change w (.inner e) { w with run := w.run.next e }

theorem Work.change_of_step {μ : Type} [Client μ] {w u : Work μ} {e : Work.Event}
    (step : Work.Step w e u) : Work.Change w e u := by
  obtain ⟨enabled⟩ := step
  cases e with
  | page i =>
    obtain ⟨-, -, reading, silent⟩ := enabled
    rcases hadvance : w.advance i with ⟨_ | answer, session⟩
    · simp only [next, hadvance]
      exact .page reading hadvance
    · simp [hadvance] at silent
  | read i =>
    rcases hadvance : w.advance i with ⟨_ | answer, session⟩
    · simp [Enabled, hadvance] at enabled
    · simp only [next, hadvance]
      exact .read (by simpa [Enabled, hadvance] using enabled) hadvance
  | carryOut number =>
    obtain ⟨stage, untold⟩ := enabled
    obtain ⟨t, ht, hstage⟩ := Migration.State.stageIs_iff.mp stage
    obtain ⟨mem, rfl⟩ := Migration.State.task?_eq_some ht
    have calling : t.stage = .calling := by revert hstage; cases t.stage <;> simp
    simp only [next, ht]
    have fresh : ∀ y ∈ w.replies, y.number ≠ t.number := by simpa [reply?] using untold
    exact .carryOut mem calling fresh rfl
  | answer number fraction =>
    cases hreply : w.reply? number with
    | none => simp [Enabled, hreply] at enabled
    | some outcome =>
      obtain ⟨y, hy, rfl⟩ := Option.map_eq_some_iff.mp hreply
      obtain rfl : y.number = number := by simpa using List.find?_some hy
      simp only [next, hreply]
      exact .answer (List.mem_of_find?_eq_some hy) (by simpa [Enabled, hreply] using enabled)
  | inner e => exact .inner enabled.1 enabled.2

/-- What holds of a run at work that has begun with the service in the state `before`. -/
structure Work.Invariant {μ : Type} [Client μ] (config : Config) (baseline : Tally) (v : View μ)
    (source destination : String) (now : Int) (before : μ) (w : Work μ) : Prop where
  run : Run.Invariant config baseline (streams v) w.run
  serving : Serving v source destination now w.session.repository
  reading : Reading v w.run.scan.readers w.session
  answered : Answered (due now (v.items before destination)) w.run.migration w.replies
  untouched : ∀ table, table ≠ destination →
    v.items w.session.repository.service table = v.items before table
  written : (v.items w.session.repository.service destination).Perm
    (v.items before destination ++ ((resolved w.run.migration w.replies).filter
      (due now (v.items before destination))).map (Item.ofMigrated · now))

theorem silent_of_inner {s : State} {e : Event} {e' : Migration.Event} (inner : e.isInner = true)
    (label : s.migrationEvent? e = some e') (n : Nat) : e'.answer? n = none := by
  cases e with
  | read | answer | cancel => cases inner
  | put | acquire | collect | flush | exhaust => cases label
  | conclude | assign | start | wake | finish => cases label; rfl
  | begin => obtain ⟨record, -, rfl⟩ := Option.map_eq_some_iff.mp label; rfl
  | request | surrender =>
    simp only [State.migrationEvent?] at label
    split at label <;> cases label <;> rfl

section Preservation
variable {μ : Type} {config : Config} {baseline : Tally} {v : View μ}
  {source destination : String} {now : Int} {before : μ} {s t : State}

theorem step_of_streams (h : Invariant config baseline (streams v) s) {e : Event}
    (step : OrdinaryStep (streams v) s e t) : Invariant config baseline (streams v) t :=
  (step_preserves_invariant h (ordinary_of_sound fun _ _ => rfl) step.1 step.2).resolve_right
    (not_lost fun _ _ => rfl)

/-- The records due are known beforehand: only their own items could take their places. -/
theorem due_of_written {records : List Record} {items now' : List Item} {record : Record}
    (perm : now'.Perm (items ++ (records.map (Item.ofMigrated · now))))
    (other : ∀ r ∈ records, r.key ≠ record.key) : due now now' record = due now items record := by
  have hnone : (records.map (Item.ofMigrated · now)).any
      (·.sameKey (Item.destinationKey record.key)) = false := by
    rw [List.any_eq_false]
    intro item hitem
    obtain ⟨r, hr, rfl⟩ := List.mem_map.mp hitem
    exact mt Item.ofMigrated_sameKey_iff.mp (other r hr)
  have hany : now'.any (·.sameKey (Item.destinationKey record.key)) =
      items.any (·.sameKey (Item.destinationKey record.key)) := by
    rw [perm.any_eq, List.any_append, hnone, Bool.or_false]
  unfold due
  rw [hany]

namespace Work
variable [Client μ] {w : Work μ}

theorem start_invariant (positive : config.Positive) (labelledDry : Value) (startedAt : Float)
    {repository : Repository μ} (serving : Serving v source destination now repository) :
    Invariant config baseline v source destination now repository.service
      (start config labelledDry baseline startedAt repository) where
  run := Run.start_invariant positive (ordinary_of_sound fun _ _ => rfl) labelledDry startedAt
  serving := serving
  reading := start_reading v _ _ repository
  answered := by constructor <;> simp [start, Run.start, Migration.start]
  untouched := fun _ _ => rfl
  written := by simp [start, Run.start, Migration.start, resolved, Session.new]

theorem Invariant.advance (h : Invariant config baseline v source destination now before w)
    (reliable : Reliable v source destination config.segments) {i : Nat}
    {r : Scan.Reader Record} (hr : w.run.scan.readers[i]? = some r)
    {answer? : Option (Answer Record)} {session : Session μ}
    (advanced : w.advance i = (answer?, session)) :
    Serving v source destination now session.repository ∧
      v.items session.repository.service = v.items w.session.repository.service ∧
      v.CanGoOn i (session.position i) ∧
      Tells (v.left i (w.session.position i)) (v.left i (session.position i)) answer? ∧
      ∀ j : Nat, j ≠ i → session.position j = w.session.position j := by
  obtain ⟨answer?', session', hstep, serving⟩ :=
    h.serving.step reliable (h.run.scan.reader_lt hr) (h.reading.goesOn i)
  have hsame : w.advance i = w.session.advance i config.segments := by
    rw [Work.advance, Scan.State.total, h.run.scan.total]
  rw [hsame, hstep] at advanced
  cases advanced
  exact serving

theorem Invariant.of_scan (h : Invariant config baseline v source destination now before w)
    {run : State} {session : Session μ} (kept : Run.Invariant config baseline (streams v) run)
    (migration : run.migration = w.run.migration)
    (serving : Serving v source destination now session.repository)
    (items : v.items session.repository.service = v.items w.session.repository.service)
    (reading : Reading v run.scan.readers session) :
    Invariant config baseline v source destination now before { w with run, session } where
  run := kept
  serving := serving
  reading := reading
  answered := by rw [migration]; exact h.answered
  untouched := fun table ht => by rw [items, h.untouched table ht]
  written := by rw [items, migration]; exact h.written

theorem Invariant.page (h : Invariant config baseline v source destination now before w)
    (reliable : Reliable v source destination config.segments) {i : Nat} {session : Session μ}
    (reading : w.run.scan.isReading i = true) (advanced : w.advance i = (none, session)) :
    Invariant config baseline v source destination now before { w with session } := by
  obtain ⟨r, hr, -⟩ := Scan.State.isReading_iff.mp reading
  obtain ⟨serving, items, goes, tells, others⟩ := h.advance reliable hr advanced
  exact h.of_scan h.run rfl serving items (h.reading.page goes tells others)

theorem Invariant.read (h : Invariant config baseline v source destination now before w)
    (reliable : Reliable v source destination config.segments) {i : Nat}
    {answer : Answer Record} {session : Session μ} (enabled : w.run.Enabled (.read i answer))
    (advanced : w.advance i = (some answer, session)) :
    Invariant config baseline v source destination now before
      { w with run := w.run.next (.read i answer), session } := by
  obtain ⟨r, hr, -⟩ := Scan.State.isReading_iff.mp enabled.2.2.2
  obtain ⟨serving, items, goes, tells, others⟩ := h.advance reliable hr advanced
  have step : OrdinaryStep (streams v) w.run (.read i answer) (w.run.next (.read i answer)) :=
    ⟨.intro enabled (follows_read hr (h.reading.answer_eq hr tells)), trivial⟩
  exact h.of_scan (step_of_streams h.run step) rfl serving items
    (h.reading.told hr goes tells others)

/-- A call that is carried out writes the item of its record if that is due. -/
theorem Invariant.carryOut (h : Invariant config baseline v source destination now before w)
    (reliable : Reliable v source destination config.segments)
    (distinct : (((List.range config.segments).flatMap fun i => (streams v i).items).map
      (·.key)).Nodup) {t : Migration.Task} {outcome : Except Failure Bool} {session : Session μ}
    (mem : t ∈ w.run.migration.tasks) (calling : t.stage = .calling)
    (fresh : ∀ y ∈ w.replies, y.number ≠ t.number)
    (migrated : w.session.migrate t.record = (outcome, session)) :
    Invariant config baseline v source destination now before
      { w with session, replies := ⟨t.number, t.record, outcome⟩ :: w.replies } := by
  have writable : Item.refusal? t.record = none := by
    have given := List.mem_of_getElem?
      (h.run.ledger.known_lt h.run.whole (Migration.pending_known (Migration.mem_pending mem)))
    obtain ⟨i, -, read⟩ := List.mem_flatMap.mp ((h.run.given_subperm fun _ _ => rfl).subset given)
    obtain ⟨item, -, found⟩ := List.mem_filterMap.mp read
    exact Item.refusal?_of_legacyRecord? found
  obtain ⟨r', hmigrate, serving, perm, others⟩ := h.serving.migrate reliable writable
  have hgiven : (w.run.given.map (·.key)).Nodup := by
    obtain ⟨l, hperm, hsub⟩ := h.run.given_subperm fun _ _ => rfl
    exact ((hperm.map _).nodup_iff).mp (distinct.sublist (hsub.map _))
  -- No call for this key has been carried out, so what is due now was due from the beginning.
  have hkeys := h.answered.key_ne h.run.ledger h.run.whole hgiven mem fresh
  have hdue := due_of_written h.written fun r hr => hkeys r (List.mem_of_mem_filter hr)
  rw [hdue] at hmigrate perm
  simp only [Session.migrate, hmigrate] at migrated
  cases migrated
  refine { h with
    serving := serving
    reading := h.reading.congr rfl fun _ => rfl
    answered := h.answered.carriedOut mem calling fresh
    untouched := fun table ht => by rw [others table ht, h.untouched table ht]
    written := ?_ }
  refine perm.trans ((h.written.append_right _).trans ?_)
  rw [List.append_assoc]
  refine List.Perm.append_left _ ?_
  have hresolved : (resolved w.run.migration (⟨t.number, t.record,
      .ok (due now (v.items before destination) t.record)⟩ :: w.replies)).Perm
      (t.record :: resolved w.run.migration w.replies) := by
    unfold resolved
    rw [List.map_cons]
    exact List.perm_middle
  refine List.Perm.trans ?_ ((hresolved.filter _).map _).symm
  rw [List.filter_cons]
  by_cases hd : due now (v.items before destination) t.record = true
  · rw [if_pos hd, if_pos hd, List.map_cons]
    exact List.perm_append_singleton _ _
  · rw [if_neg hd, if_neg hd, List.append_nil]

theorem Invariant.of_run (h : Invariant config baseline v source destination now before w)
    {run : State} {replies : List Reply}
    (kept : Run.Invariant config baseline (streams v) run)
    (produced : run.scan.readers.map (·.produced) = w.run.scan.readers.map (·.produced))
    (answered : Answered (due now (v.items before destination)) run.migration replies)
    (same : (resolved run.migration replies).Perm (resolved w.run.migration w.replies)) :
    Invariant config baseline v source destination now before { w with run, replies } where
  run := kept
  serving := h.serving
  reading := h.reading.congr produced fun _ => rfl
  answered := answered
  untouched := h.untouched
  written := h.written.trans (((same.symm.filter _).map _).append_left _)

theorem Invariant.answer (h : Invariant config baseline v source destination now before w)
    {y : Reply} {fraction : Float} (mem : y ∈ w.replies)
    (enabled : w.run.Enabled (.answer y.number y.outcome fraction)) :
    Invariant config baseline v source destination now before
      { w with
        run := w.run.next (.answer y.number y.outcome fraction)
        replies := w.replies.filter (·.number != y.number) } := by
  have step : OrdinaryStep (streams v) w.run (.answer y.number y.outcome fraction)
      (w.run.next (.answer y.number y.outcome fraction)) :=
    ⟨.intro enabled trivial, by rw [h.answered.outcome y mem]; trivial⟩
  have kept := step_of_streams h.run step
  rcases migration_step h.run step with ⟨e', hlabel, own⟩ | ⟨hlabel, -⟩
  · cases hlabel
    obtain ⟨answered, same⟩ := h.answered.told h.run.ledger mem own
    exact h.of_run kept (produced_of_step h.run kept step (by simp)) answered same
  · cases hlabel

theorem Invariant.inner (h : Invariant config baseline v source destination now before w)
    (live : config.isDry = false) {e : Run.Event} (apart : e.isInner = true)
    (enabled : w.run.Enabled e) :
    Invariant config baseline v source destination now before { w with run := w.run.next e } := by
  have step : OrdinaryStep (streams v) w.run e (w.run.next e) := by
    refine ⟨.intro enabled ?_, ?_⟩ <;> cases e <;> trivial
  have kept := step_of_streams h.run step
  have produced := produced_of_step h.run kept step (by rintro _ _ rfl; cases apart)
  rcases migration_step h.run step with ⟨e', hlabel, own⟩ | ⟨-, hsame⟩
  · obtain ⟨answered, same⟩ := h.answered.silent h.run.ledger (h.run.dryRun.trans live) own
      (silent_of_inner apart hlabel) kept.whole
    exact h.of_run kept produced answered (.of_eq same)
  · exact h.of_run kept produced (by rw [hsame]; exact h.answered) (by rw [hsame])

theorem step_preserves_invariant {u : Work μ} {e : Event}
    (h : Invariant config baseline v source destination now before w)
    (reliable : Reliable v source destination config.segments) (live : config.isDry = false)
    (distinct : (((List.range config.segments).flatMap fun i => (streams v i).items).map
      (·.key)).Nodup) (step : Step w e u) :
    Invariant config baseline v source destination now before u := by
  cases change_of_step step with
  | page reading advanced => exact h.page reliable reading advanced
  | read enabled advanced => exact h.read reliable enabled advanced
  | carryOut mem calling fresh migrated =>
    exact h.carryOut reliable distinct mem calling fresh migrated
  | answer mem enabled => exact h.answer mem enabled
  | inner apart enabled => exact h.inner live apart enabled

end Work

end Preservation

def legacyRecords (items : List Item) : List Record := items.filterMap Item.legacyRecord?

/-- The items that a run adds to the destination: one for each well-formed legacy item whose record
has not expired and has no item there. -/
def additions (now : Int) (source destination : List Item) : List Item :=
  ((legacyRecords source).filter (due now destination)).map (Item.ofMigrated · now)

/-- An item holds a record as the destination does: under its new key and the sort key of all, with
its own hash, salt and time of expiry. -/
structure Carries (record : Record) (item : Item) : Prop where
  partitionKey : item.text? "PK" "S" = some ("RRP#" ++ record.key)
  sortKey : item.text? "SK" "S" = some "#PASSWORD"
  hash : item.text? "hash" "S" = some record.secret.hash
  salt : item.text? "salt" "S" = some record.secret.salt
  expiresAt : item.text? "expires_at" "N" = some (toString record.expiresAt)

theorem carries_of_mem_additions {now : Int} {source destination : List Item} {item : Item}
    (mem : item ∈ additions now source destination) : ∃ record ∈ legacyRecords source,
      due now destination record = true ∧ Carries record item := by
  obtain ⟨record, kept, rfl⟩ := List.mem_map.mp mem
  obtain ⟨legacy, isDue⟩ := List.mem_filter.mp kept
  exact ⟨record, legacy, isDue, rfl, rfl, rfl, rfl, rfl⟩

/-- What a run that began with the service in the state `before` has left behind. The item that is
added for a record carries it, and is the only one at its place. -/
structure Migrated {μ : Type} (v : View μ) (source destination : String) (now : Int)
    (baseline : Tally) (before after : μ) (tally : Tally) : Prop where
  source_same : v.items after source = v.items before source
  destination_added : (v.items after destination).Perm (v.items before destination ++
    additions now (v.items before source) (v.items before destination))
  carried : ∀ item ∈ additions now (v.items before source) (v.items before destination),
    ∃ record ∈ legacyRecords (v.items before source),
      due now (v.items before destination) record = true ∧ Carries record item
  alone : ∀ record ∈ legacyRecords (v.items before source),
    due now (v.items before destination) record = true →
    (v.items after destination).filter (·.sameKey (Item.destinationKey record.key)) =
      [Item.ofMigrated record now]
  inspected : tally.inspected = baseline.inspected + (legacyRecords (v.items before source)).length
  migrated : tally.migrated = baseline.migrated +
    (additions now (v.items before source) (v.items before destination)).length
  abandoned : tally.abandoned = baseline.abandoned

section Completed
variable {μ : Type} {config : Config} {baseline : Tally} {v : View μ}
  {source destination : String} {now : Int} {before : μ} {summary : Summary}

theorem streams_perm {items : List Item}
    (partition : ((List.range config.segments).flatMap (v.rest · none)).Perm
      (items.filter Item.isLegacy)) :
    ((List.range config.segments).flatMap fun i => (streams v i).items).Perm
      (legacyRecords items) := by
  have hrecords := partition.filterMap Item.legacyRecord?
  rwa [Item.filterMap_legacyRecord?, List.filterMap_flatMap] at hrecords

theorem additions_alone {items items' : List Item}
    (keyed : ((legacyRecords items).map (·.key)).Nodup) {record : Record}
    (mem : record ∈ legacyRecords items) (isDue : due now items' record = true) :
    (items' ++ additions now items items').filter (·.sameKey (Item.destinationKey record.key)) =
      [Item.ofMigrated record now] := by
  have hnone : items'.filter (·.sameKey (Item.destinationKey record.key)) = [] := by
    apply List.filter_eq_nil_iff.mpr
    intro item hitem
    have hany := (Bool.and_eq_true_iff.mp isDue).2
    simpa using List.any_eq_false.mp (by simpa using hany) item hitem
  have hmem : record ∈ (legacyRecords items).filter (due now items') :=
    List.mem_filter.mpr ⟨mem, isDue⟩
  have hkeys : (((legacyRecords items).filter (due now items')).map (·.key)).Nodup :=
    keyed.sublist (List.filter_sublist.map _)
  have hone : ∀ r ∈ (legacyRecords items).filter (due now items'),
      ((·.sameKey (Item.destinationKey record.key)) ∘ (Item.ofMigrated · now)) r =
        (r == record) := by
    intro r hr
    rw [Function.comp_apply, Bool.eq_iff_iff, Item.ofMigrated_sameKey_iff, beq_iff_eq]
    exact ⟨List.inj_on_of_nodup_map hkeys hr hmem, fun h => h ▸ rfl⟩
  have hcount := List.count_eq_one_of_mem hkeys.of_map hmem
  rw [List.filter_append, hnone, List.nil_append, additions, List.filter_map,
    List.filter_congr hone, List.filter_beq, hcount]
  rfl

variable [Client μ] {w : Work μ}

/-- A run that has returned has carried out a call for each record of its source. -/
theorem Work.Invariant.resolved_perm
    (h : Work.Invariant config baseline v source destination now before w)
    (partition : ((List.range config.segments).flatMap (v.rest · none)).Perm
      ((v.items before source).filter Item.isLegacy))
    (completed : w.run.status = .completed summary) :
    w.replies = [] ∧ (w.run.migration.settled.map (·.record)).Perm
      (legacyRecords (v.items before source)) := by
  have htasks := (List.append_eq_nil_iff.mp (h.run.nothing_left completed).1).2
  have hreplies : w.replies = [] := by
    apply List.eq_nil_iff_forall_not_mem.mpr
    intro y hy
    obtain ⟨t, ht, -⟩ := h.answered.calling y hy
    rw [htasks] at ht
    cases ht
  exact ⟨hreplies, (h.run.settled_records completed).trans
    ((h.run.given_perm completed).trans (streams_perm partition))⟩

/-- A live run that returns has added to the destination what was due from the source. -/
theorem live_run_migrates (positive : config.Positive) (live : config.isDry = false)
    (reliable : Reliable v source destination config.segments) (apart : source ≠ destination)
    {repository : Repository μ} (serving : Serving v source destination now repository)
    (partition : ((List.range config.segments).flatMap (v.rest · none)).Perm
      ((v.items repository.service source).filter Item.isLegacy))
    (keyed : (((v.items repository.service source).filter Item.isLegacy).map
      Item.partitionKey).Nodup)
    {labelledDry : Value} {startedAt : Float} {moves : List (Work μ × Work.Event)}
    (trace : Trace Work.Step (Work.start config labelledDry baseline startedAt repository) moves w)
    (completed : w.run.status = .completed summary) :
    Migrated v source destination now baseline repository.service w.session.repository.service
      w.run.tally ∧ ∃ finishedAt, summary = w.run.summary finishedAt := by
  have hkeys := Item.keys_nodup keyed
  have distinct := (((streams_perm partition).map (·.key)).nodup_iff).mpr hkeys
  have h : Work.Invariant config baseline v source destination now repository.service w :=
    trace.preserves (P := fun _ w =>
        Work.Invariant config baseline v source destination now repository.service w)
      (Work.start_invariant positive labelledDry startedAt serving)
      fun _ _ _ _ _ h step => Work.step_preserves_invariant h reliable live distinct step
  obtain ⟨hreplies, hresolved⟩ := h.resolved_perm partition completed
  have hadded : (v.items w.session.repository.service destination).Perm
      (v.items repository.service destination ++ additions now
        (v.items repository.service source) (v.items repository.service destination)) := by
    refine h.written.trans (List.Perm.append_left _ (List.Perm.map _ (List.Perm.filter _ ?_)))
    rw [resolved, hreplies, List.map_nil, List.append_nil]
    exact hresolved
  refine ⟨⟨h.untouched source apart, hadded, fun _ => carries_of_mem_additions,
    fun record mem isDue => ?_, ?_, ?_, ?_⟩, h.run.summary_eq completed⟩
  · refine List.perm_singleton.mp ((hadded.filter _).trans (.of_eq ?_))
    exact additions_alone hkeys mem isDue
  · rw [h.run.tally_eq, ((h.run.given_perm completed).trans (streams_perm partition)).length_eq]
  · rw [h.run.tally_eq, additions, List.length_map, ← (hresolved.filter _).length_eq,
      ← List.countP_eq_length_filter, List.countP_map]
    refine congrArg (baseline.migrated + ·) (List.countP_congr ?_)
    intro x hx
    rw [h.answered.settled x hx, isWritten_ofOutcome, Function.comp_apply]
    cases due now (v.items repository.service destination) x.record <;> rfl
  · have hnone : (w.run.migration.settled.countP (·.ending.isAbandoned)) = 0 := by
      apply List.countP_eq_zero.mpr
      intro x hx
      rw [h.answered.settled x hx, isAbandoned_ofOutcome]
      simp [raised]
    rw [h.run.tally_eq, hnone, Nat.add_zero]

end Completed

/-! ## A small run over tables in memory -/

def Work.Happen {μ : Type} [Client μ] (w : Work μ) : List Work.Event → Prop
  | [] => True
  | e :: events => (Trace.reached Work.next w events).Enabled e ∧ w.Happen events

instance {μ : Type} [Client μ] (w : Work μ) :
    (events : List Work.Event) → Decidable (w.Happen events)
  | [] => .isTrue trivial
  | _ :: events => @instDecidableAnd _ _ _ (instDecidableHappen w events)

theorem Work.trace_of_happen {μ : Type} [Client μ] {w : Work μ} {events : List Work.Event}
    (h : w.Happen events) :
    Trace Step w (Trace.replay next w events) (Trace.reached next w events) := by
  refine Trace.of_replays _ ?_
  induction events with
  | nil => trivial
  | cons e events ih => exact ⟨.intro h.1, ih h.2⟩

def dora : Record := ⟨"dora", ⟨"hash", "salt"⟩, 20⟩

/-- An item that is no record, and three that are: bea's is due, ada's has expired, and dora's is
there already. -/
def smallTable : List Item :=
  [[("PK", .ofText "E164#cleo")], .ofSource bea, .ofSource ada, .ofSource dora]

def smallService : Memory :=
  { Memory.empty with
    tables := [("old", smallTable), ("new", [.ofMigrated ⟨"dora", ⟨"other", "salt"⟩, 30⟩ 1])]
    pageSize := some 1 }

def smallRepository : Repository := ⟨"old", "new", none, none, .none, 10, smallService, []⟩

def doubleConfig : Config := ⟨.bool false, 3, 2, 4, 1, steadyPolicy⟩

def smallWork : Work Memory := Work.start doubleConfig (.bool false) .zero 0 smallRepository

/-- The events of the small run, the last of which comes first. The calls are carried out in the
other order than that in which their tasks are told. -/
def smallWorkEvents : List Work.Event :=
  [.inner (.finish 0), .inner .conclude, .inner .exhaust, .inner .acquire, .answer 2 0, .answer 1 0,
    .answer 0 0, .carryOut 0, .carryOut 1, .carryOut 2, .inner (.start 2), .inner (.start 1),
    .inner (.start 0), .inner .request, .inner .assign, .inner .request, .inner .assign,
    .inner .request, .inner .assign, .inner .begin, .inner (.flush [ada, bea, dora]),
    .inner (.collect []), .inner (.collect []), .inner (.collect []), .inner (.collect []),
    .inner (.put 1), .inner (.collect []), .read 1, .inner (.put 1), .read 1, .page 1,
    .inner (.put 1), .inner (.put 0), .read 0, .inner (.put 0), .read 1, .page 1, .read 0, .page 0,
    .page 0, .inner .acquire, .inner .request]

def smallWorkEnd : Work Memory := Trace.reached Work.next smallWork smallWorkEvents

theorem small_work_happen : smallWork.Happen smallWorkEvents := by decide +kernel

theorem small_work_completed :
    ∃ summary, smallWorkEnd.run.status = .completed summary :=
  completed_of_matches (by decide +kernel)

theorem small_table_migrates : doubleConfig.Positive ∧
    Migrated (Memory.view "old" "new" smallTable 1 2) "old" "new" 10 .zero smallService
      smallWorkEnd.session.repository.service smallWorkEnd.run.tally ∧
    smallWorkEnd.run.tally = ⟨3, 1, 0⟩ := by
  have positive : doubleConfig.Positive := ⟨by decide, by decide, by decide, by decide⟩
  have texts : ∀ a ∈ smallTable, a.lookup "PK" = some (.ofText a.partitionKey) := by
    intro a ha
    simp only [smallTable, List.mem_cons, List.not_mem_nil, or_false] at ha
    rcases ha with rfl | rfl | rfl | rfl <;> rfl
  have keyed : (smallTable.map Item.partitionKey).Nodup := by decide +kernel
  have serving : Serving (Memory.view "old" "new" smallTable 1 2) "old" "new" 10
      smallRepository := by
    refine ⟨rfl, rfl, rfl, ?_⟩
    constructor <;> rfl
  have partition : ((List.range 2).flatMap
      ((Memory.view "old" "new" smallTable 1 2).rest · none)).Perm
        (smallTable.filter Item.isLegacy) := (List.Perm.swap _ _ _).cons _
  have trace : Trace Work.Step (Work.start doubleConfig (.bool false) .zero 0 smallRepository)
      (Trace.replay Work.next smallWork smallWorkEvents) smallWorkEnd :=
    Work.trace_of_happen small_work_happen
  obtain ⟨summary, completed⟩ := small_work_completed
  have apart : "old" ≠ "new" := by decide
  have reliable : Reliable (Memory.view "old" "new" smallTable 1 2) "old" "new"
      doubleConfig.segments := Memory.reliable Nat.one_pos apart texts keyed
  have h := live_run_migrates positive rfl reliable apart serving partition keyed trace completed
  exact ⟨positive, h.1, by decide +kernel⟩

end Rekey.Run
