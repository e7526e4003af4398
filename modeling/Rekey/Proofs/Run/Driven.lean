import Rekey.Proofs.Run.AtWork
import Rekey.Run.Turns

/-! # A driven run is a run at work

The parts of a driven run act only as those of a run at work may, one after another. So what holds
of every run at work holds of the driven one. -/
namespace Rekey.Run

open Counter (Tally)
open Scripted (Chance readingAt)
open Service (Client Repository Responsive Session)

/-- What a drive relies on, wherever the work has come to. -/
structure Drivable {μ : Type} [Client μ] (start : Work μ) : Prop where
  reading : ∀ moves w, Trace Work.TimedStep start moves w → ∀ i, w.run.scan.isReading i = true →
    w.run.isRunning = true ∧ w.run.scan.isRunning = true
  task : ∀ moves w, Trace Work.TimedStep start moves w → ∀ t ∈ w.run.migration.tasks,
    w.run.isRunning = true ∧ w.run.migration.isRunning = true ∧
      w.run.migration.task? t.number = some t
  responsive : Responsive μ

/-- Whether a part may have the turn: a reader once the scan has begun, and nobody to break off. -/
def Turn.Fits (s : State) : Turn → Prop
  | .reader _ => s.scanning = true ∨ s.isRunning = false
  | .breakOff => False
  | _ => True

/-- A drive has come to where a run at work may be, and no outcome of a call is on its way. -/
structure Follows {μ : Type} [Client μ] (start : Work μ) (d : Drive (Session μ)) : Prop where
  work : ∃ moves, Trace Work.TimedStep start moves ⟨d.run, d.world, []⟩
  store_eq : d.store = Session.store
  ungated : d.gatedStore = false
  uncut : d.cutOff = []
  turns : ∀ t ∈ d.turns, t.Fits d.run
  line : ∀ i ∈ d.waits.line, (Turn.reader i).Fits d.run

section Events
variable {s : State} {e : Event}

theorem close_scanning (s : State) : s.close.scanning = s.scanning := by
  unfold State.close
  cases s.migration.status <;> rfl

theorem deliver_scanning (s : State) (record : Option Record) (e : Dispatch.Event Record) :
    (s.deliver record e).scanning = s.scanning := by
  cases record with
  | some record => rfl
  | none =>
    unfold State.deliver
    dsimp only
    split
    · next other => cases other
    · exact close_scanning _
    · rfl

theorem collect_scanning (s : State) (order : List Record) :
    (s.collect order).scanning = s.scanning := by
  unfold State.collect
  dsimp only
  split
  · split <;> rfl
  · split <;> rfl

theorem next_scanning (scanning : s.scanning = true) (e : Event) : (s.next e).scanning = true := by
  cases e with
  | acquire => rfl
  | read | put | flush | exhaust | conclude | assign | finish => exact scanning
  | collect order => exact (collect_scanning s order).trans scanning
  | request | begin | surrender => exact (deliver_scanning s _ _).trans scanning
  | start | answer | wake | cancel => exact (close_scanning _).trans scanning

theorem Turn.Fits.advance {t : Turn} (h : t.Fits s) (e : Event) : t.Fits (s.advance e) := by
  unfold State.advance
  split
  · next enabled =>
    cases t with
    | reader i =>
      rcases h with scanning | stopped
      · exact .inl (next_scanning scanning e)
      · rw [enabled.1] at stopped
        cases stopped
    | breakOff => exact h
    | puller | fetch | signal | consumer | task | putAway => trivial
  · exact h

end Events

section Turns
variable {μ : Type} [Client μ] {start : Work μ} {d : Drive (Session μ)}

theorem Follows.push (h : Follows start d) {turns : List Turn}
    (fits : ∀ t ∈ turns, t.Fits d.run) : Follows start (d.push turns) :=
  { h with turns := fun t mem => (List.mem_append.mp mem).elim (h.turns t) (fits t) }

theorem Follows.pushOne (h : Follows start d) {t : Turn} (fits : t.Fits d.run) :
    Follows start (d.push [t]) :=
  h.push (List.forall_mem_singleton.mpr fits)

theorem Follows.keep (h : Follows start d) {t : Turn} (fits : t.Fits d.run) :
    Follows start (d.keep t) :=
  { h with turns := List.forall_mem_cons.mpr ⟨fits, h.turns⟩ }

theorem Follows.await (h : Follows start d) {waits : Waits}
    (line : ∀ i ∈ waits.line, (Turn.reader i).Fits d.run) : Follows start { d with waits } :=
  { h with line }

theorem Follows.rest (h : Follows start d) {waits : Waits} (line : waits.line = d.waits.line) :
    Follows start { d with waits } :=
  h.await (line ▸ h.line)

theorem Follows.draw (h : Follows start d) (chance : Chance) : Follows start { d with chance } :=
  { h with }

theorem Follows.drawIf (h : Follows start d) (drew : Bool) :
    Follows start (if drew then { d with chance := d.chance.drawn } else d) := by
  split
  · exact h.draw _
  · exact h

/-- A page is turned. -/
theorem Follows.page (h : Follows start d) {world : Session μ} {i : Nat}
    (step : Work.Step ⟨d.run, d.world, []⟩ (.page i) ⟨d.run, world, []⟩) :
    Follows start { d with world } :=
  { h with
    work := by
      obtain ⟨moves, earlier⟩ := h.work
      exact ⟨_, earlier.snoc (.event step)⟩ }

/-- An event of the run takes place, by whatever happens at work. -/
theorem Follows.after (h : Follows start d) {world : Session μ} {e : Event}
    {more : List (Work μ × Work.Happening)} (enabled : d.run.Enabled e)
    (trace : Trace Work.TimedStep ⟨d.run, d.world, []⟩ more ⟨d.run.next e, world, []⟩) :
    Follows start ({ d with world }.event e) where
  work := by
    obtain ⟨moves, earlier⟩ := h.work
    rw [Drive.event, State.advance, if_pos enabled]
    exact ⟨_, earlier.append trace⟩
  store_eq := h.store_eq
  ungated := h.ungated
  uncut := h.uncut
  turns t mem := (h.turns t mem).advance e
  line i mem := (h.line i mem).advance e

theorem Follows.event (h : Follows start d) {e : Event} (inner : e.isInner = true) :
    Follows start (d.event e) := by
  by_cases enabled : d.run.Enabled e
  · have step : Work.Step ⟨d.run, d.world, []⟩ (.inner e) ⟨d.run.next e, d.world, []⟩ :=
      .intro ⟨inner, enabled⟩
    exact h.after enabled (Trace.nil.snoc (.event step))
  · rw [Drive.event, State.advance, if_neg enabled]
    exact h

theorem Follows.of_turn {t : Turn} {turns : List Turn} (h : Follows start d)
    (turns_eq : d.turns = t :: turns) : Follows start { d with turns } ∧ t.Fits d.run :=
  have all := List.forall_mem_cons.mp (turns_eq ▸ h.turns)
  ⟨{ h with turns := all.2 }, all.1⟩

end Turns

/-! ## One turn -/

section Wakes
variable {μ : Type} [Client μ] {start : Work μ} {d : Drive (Session μ)}

/-- Some part is woken, if it is waiting. -/
theorem Follows.wake (h : Follows start d) {due : Bool} {waits : Waits} {t : Turn}
    (line : waits.line = d.waits.line) (fits : t.Fits d.run) :
    Follows start (if due then { d with waits }.push [t] else d) := by
  split
  · exact Follows.pushOne (h.rest line) fits
  · exact h

theorem Follows.wakePullerForEntry (h : Follows start d) : Follows start d.wakePullerForEntry :=
  h.wake (by rfl) (by trivial)

theorem Follows.wakePullerForSlot (h : Follows start d) : Follows start d.wakePullerForSlot :=
  h.wake (by rfl) (by trivial)

theorem Follows.wakeFetch (h : Follows start d) : Follows start d.wakeFetch :=
  h.wake (by rfl) (by trivial)

theorem Follows.wakeConsumerForSlot (h : Follows start d) :
    Follows start d.wakeConsumerForSlot :=
  h.wake (by rfl) (by trivial)

theorem Follows.wakeConsumerForTasks (h : Follows start d) :
    Follows start d.wakeConsumerForTasks :=
  h.wake (by rfl) (by trivial)

theorem Follows.wakeReader (h : Follows start d) : Follows start d.wakeReader := by
  unfold Drive.wakeReader
  split
  · exact h
  · next i line waiting =>
    obtain ⟨first, rest⟩ := List.forall_mem_cons.mp (waiting ▸ h.line)
    exact Follows.pushOne (Follows.await h rest) first

theorem Follows.signal (h : Follows start d) : Follows start d.signal := h.pushOne trivial

theorem Follows.settled (h : Follows start d) : Follows start d.settled :=
  h.wakeConsumerForSlot.wakePullerForSlot.wakeConsumerForTasks

theorem Follows.arrange (h : Follows start d) (window : Option (List Record)) :
    Follows start (d.arrange window).2 := by
  unfold Drive.arrange
  split
  · exact h.draw _
  · exact h

end Wakes

section Answers
variable {μ : Type} [Client μ] {config : Config} {w : Work μ}
  {moves : List (Work μ × Work.Happening)} {labelledDry : Value} {baseline : Tally}
  {startedAt : Float} {repository : Repository μ}

/-- A reader that can read has a run under way. -/
theorem Work.reading_running (responsive : Responsive μ) (positive : config.Positive)
    (trace : Trace TimedStep (start config labelledDry baseline startedAt repository) moves w)
    (i : Nat) (reading : w.run.scan.isReading i = true) :
    w.run.isRunning = true ∧ w.run.scan.isRunning = true := by
  obtain ⟨run, ordinary, -⟩ := trace_ran responsive positive trace
  have going : w.run.scan.status = .running := by
    by_contra stopped
    obtain ⟨r, hr, phase⟩ := Scan.State.isReading_iff.mp reading
    have dead := (trace_flow positive run).scan.halted stopped r (List.mem_of_getElem? hr)
    simp [Scan.Reader.isLive, phase] at dead
  refine ⟨?_, Scan.State.isRunning_iff.mpr going⟩
  cases trace_reported positive (trace_answered run ordinary) with
  | running running => exact State.isRunning_iff.mpr running
  | completed _ ended => rw [going] at ended; cases ended
  | failed _ failed => rw [going] at failed; cases failed

/-- A task that is there has a run under way. -/
theorem Work.task_running (responsive : Responsive μ) (positive : config.Positive)
    (trace : Trace TimedStep (start config labelledDry baseline startedAt repository) moves w)
    (t : Migration.Task) (mem : t ∈ w.run.migration.tasks) :
    w.run.isRunning = true ∧ w.run.migration.isRunning = true ∧
      w.run.migration.task? t.number = some t := by
  have flow := trace_flow positive (trace_ran responsive positive trace).run
  cases flow.stage with
  | running running migrating =>
    exact ⟨State.isRunning_iff.mpr running, Migration.State.isRunning_iff.mpr migrating,
      Migration.State.task?_of_mem flow.slots.tasks_nodup mem⟩
  | completed _ _ none => rw [none] at mem; cases mem
  | broken broken => exact absurd (flow.whole_of_task mem) broken

theorem Work.step_read {i : Nat} {answer : Answer Record} {session : Session μ}
    (advanced : w.advance i = (some answer, session)) (enabled : w.run.Enabled (.read i answer)) :
    Step w (.read i) { w with run := w.run.next (.read i answer), session } := by
  have next : w.next (.read i) = { w with run := w.run.next (.read i answer), session } := by
    simp only [next, advanced]
  rw [← next]
  exact .intro (enabled_read (by rw [advanced]) enabled)

theorem Work.step_page {i : Nat} {session : Session μ} (advanced : w.advance i = (none, session))
    (running : w.run.isRunning = true) (scanning : w.run.scanning = true)
    (reading : w.run.scan.isReading i = true) : Step w (.page i) { w with session } := by
  have next : w.next (.page i) = { w with session } := by rw [Work.next, advanced]
  rw [← next]
  exact .intro ⟨running, scanning, reading, by rw [advanced]; rfl⟩

theorem drivable_start (responsive : Responsive μ) (positive : config.Positive) :
    Drivable (Work.start config labelledDry baseline startedAt repository) where
  reading _ _ trace := Work.reading_running responsive positive trace
  task _ _ trace := Work.task_running responsive positive trace
  responsive := responsive

end Answers

section Parts

/-- Once the puller has a slot, or the run has ended, readers may have the turn. -/
theorem acquire_fits {σ : Type} {d : Drive σ} (seeking : d.run.dispatch.isSeeking = true)
    (free : 0 < d.run.dispatch.free) (i : Nat) :
    (Turn.reader i).Fits (d.event .acquire).run := by
  by_cases running : d.run.isRunning = true
  · have enabled : d.run.Enabled .acquire := ⟨running, seeking, free⟩
    refine .inl ?_
    rw [Drive.event, State.advance, if_pos enabled]
    rfl
  · have idle : ¬ d.run.Enabled .acquire := fun enabled => running enabled.1
    refine .inr ?_
    rw [Drive.event, State.advance, if_neg idle]
    exact Bool.eq_false_iff.mpr running

variable {μ : Type} [Client μ] {start : Work μ} {d : Drive (Session μ)}

/-- A reader is told what comes next, or a page is turned. -/
theorem Follows.reading (h : Follows start d) (drivable : Drivable start) {i : Nat}
    (fits : (Turn.reader i).Fits d.run) (reading : d.run.scan.isReading i = true)
    {answer? : Option (Answer Record)} {world : Session μ}
    (asked : d.store.read d.world i d.run.scan.total = (answer?, world)) :
    (∀ answer, answer? = some answer → Follows start ({ d with world }.event (.read i answer))) ∧
      (answer? = none → Follows start { d with world }) := by
  obtain ⟨moves, trace⟩ := h.work
  obtain ⟨running, going⟩ := drivable.reading _ _ trace i reading
  have scanning : d.run.scanning = true :=
    fits.resolve_right (by rw [running]; exact Bool.noConfusion)
  have advanced : Work.advance ⟨d.run, d.world, []⟩ i = (answer?, world) := by
    rw [h.store_eq] at asked
    exact asked
  constructor
  · rintro answer rfl
    have enabled : d.run.Enabled (.read i answer) := ⟨running, scanning, going, reading⟩
    exact h.after enabled (Trace.nil.snoc (.event (Work.step_read advanced enabled)))
  · rintro rfl
    exact h.page (Work.step_page advanced running scanning reading)

theorem Follows.reader (h : Follows start d) (drivable : Drivable start) {i : Nat}
    (fits : (Turn.reader i).Fits d.run) : Follows start (d.reader i) := by
  unfold Drive.reader
  split
  · next reading =>
    split
    · next answer world asked =>
      have told := (h.reading drivable fits reading asked).1 answer rfl
      exact Follows.keep told (fits.advance _)
    · next world asked => exact Follows.keep ((h.reading drivable fits reading asked).2 rfl) fits
  · split
    · split
      · have put := (h.event (e := .put i) rfl).wakePullerForEntry
        refine put.keep ?_
        have := fits.advance (.put i)
        unfold Drive.wakePullerForEntry
        split <;> exact this
      · refine h.await fun j mem => ?_
        rcases List.mem_append.mp mem with mem | mem
        · exact h.line j mem
        · rw [List.mem_singleton.mp mem]
          exact fits
    · exact h

theorem Follows.puller (h : Follows start d) : Follows start d.puller := by
  unfold Drive.puller
  split
  · split
    · next seeking free =>
      have acquired := Follows.keep (h.event (e := .acquire) rfl) (t := .puller) trivial
      dsimp only
      split
      · refine acquired.push fun t mem => ?_
        obtain ⟨i, -, rfl⟩ := List.mem_map.mp mem
        exact acquire_fits seeking free i
      · exact acquired
    · exact h.rest (by rfl)
  · split
    · split
      · split
        · exact Follows.wakeFetch (h.event (by rfl))
        · have flushed := fun order => Follows.wakeFetch
            ((h.arrange (some d.run.held.reverse)).event (e := .flush order) rfl)
          exact Follows.keep (flushed _) (by trivial)
      · split
        · exact h.rest (by rfl)
        · have taken := fun order => Follows.wakeReader
            (Follows.event (h.arrange d.run.completes?) (e := .collect order) rfl)
          dsimp only
          split
          · exact Follows.keep (taken _) (by trivial)
          · split
            · exact Follows.keep (Follows.wakeFetch (taken _)) (by trivial)
            · exact Follows.signal (taken _)
    · exact h

theorem Follows.fetch (h : Follows start d) : Follows start d.fetch := by
  unfold Drive.fetch
  dsimp only
  generalize (_ || _ : Bool) = there
  cases there with
  | true => exact Follows.signal (h.rest (by rfl))
  | false => exact h.rest (by rfl)

theorem Follows.afterRequest (h : Follows start d) : Follows start d.afterRequest := by
  unfold Drive.afterRequest
  split
  · split
    · exact Follows.keep (h.rest (by rfl)) (by trivial)
    · exact Follows.pushOne (h.rest (by rfl)) (by trivial)
  · exact Follows.keep h (by trivial)

theorem Follows.conclude (h : Follows start d) : Follows start d.conclude := by
  have concluded := h.event (e := .conclude) rfl
  unfold Drive.conclude
  dsimp only
  rw [concluded.uncut]
  exact concluded

theorem Follows.consumer (h : Follows start d) : Follows start d.consumer := by
  unfold Drive.consumer
  split
  · exact h
  · split
    · split
      · split
        · exact Follows.keep h.conclude (by trivial)
        · exact Follows.afterRequest (Follows.wakePullerForSlot (h.event (by rfl)))
      · exact h.event (by rfl)
    · split
      · split
        · exact Follows.keep (Follows.pushOne (h.event (by rfl)) (by trivial)) (by trivial)
        · exact h.rest (by rfl)
      · split
        · have asked := h.event (e := .request) rfl
          refine Follows.afterRequest ?_
          split
          · exact asked.pushOne (by trivial)
          · exact asked
        · split
          · exact h.event (by rfl)
          · exact h.rest (by rfl)

/-- A call is carried out, and its task is told at once. -/
theorem Follows.call (h : Follows start d) (drivable : Drivable start) {t : Migration.Task}
    (mem : t ∈ d.run.migration.tasks) (calling : t.stage = .calling) (fraction : Float) :
    Follows start ({ d with world := (d.world.migrate t.record).2 }.event
      (.answer t.number (d.world.migrate t.record).1 fraction)) := by
  obtain ⟨moves, trace⟩ := h.work
  obtain ⟨running, migrating, known⟩ := drivable.task _ _ trace t mem
  generalize carried : d.world.migrate t.record = outcome
  have enabled : d.run.Enabled (.answer t.number outcome.1 fraction) :=
    ⟨running, migrating, Migration.State.stageIs_iff.mpr ⟨t, known, by rw [calling]⟩⟩
  have carryOut : Work.Step ⟨d.run, d.world, []⟩ (.carryOut t.number)
      ⟨d.run, outcome.2, [⟨t.number, t.record, outcome.1⟩]⟩ := by
    have next : Work.next ⟨d.run, d.world, []⟩ (.carryOut t.number) =
        ⟨d.run, outcome.2, [⟨t.number, t.record, outcome.1⟩]⟩ := by
      simp only [Work.next, known, carried]
    rw [← next]
    exact .intro ⟨enabled.2.2, rfl⟩
  have answer : Work.Step ⟨d.run, outcome.2, [⟨t.number, t.record, outcome.1⟩]⟩
      (.answer t.number fraction)
      ⟨d.run.next (.answer t.number outcome.1 fraction), outcome.2, []⟩ := by
    have reply : Work.reply? ⟨d.run, outcome.2, [⟨t.number, t.record, outcome.1⟩]⟩ t.number =
        some outcome.1 := by simp [Work.reply?]
    have next : Work.next ⟨d.run, outcome.2, [⟨t.number, t.record, outcome.1⟩]⟩
        (.answer t.number fraction) =
        ⟨d.run.next (.answer t.number outcome.1 fraction), outcome.2, []⟩ := by
      simp [Work.next, reply]
    rw [← next]
    refine .intro ?_
    rw [Work.Enabled, reply, Option.any_some]
    exact decide_eq_true enabled
  exact h.after enabled ((Trace.nil.snoc (.event carryOut)).snoc (.event answer))

theorem Follows.concluded (h : Follows start d) {number : Nat} {outcome : Except Failure Bool}
    (ordinary : ∀ failure, outcome = .error failure → failure.isOrdinary = true) :
    Follows start (d.concluded number outcome) := by
  unfold Drive.concluded
  split
  · exact h.settled
  · next failure =>
    rw [if_pos (ordinary failure rfl)]
    exact h.settled

/-- A task that was told of an outcome sleeps, or has ended. -/
theorem Follows.told (h : Follows start d) {number : Nat} {outcome : Except Failure Bool}
    (ordinary : ∀ failure, outcome = .error failure → failure.isOrdinary = true)
    (sleeping : Bool) :
    Follows start (if sleeping then (if d.gatedSleep then d else d.push [.task number])
      else d.concluded number outcome) := by
  split
  · split
    · exact h
    · exact h.pushOne trivial
  · exact h.concluded ordinary

theorem Follows.answer (h : Follows start d) (drivable : Drivable start) {t : Migration.Task}
    (mem : t ∈ d.run.migration.tasks) (calling : t.stage = .calling) :
    Follows start ({ d with world := (d.store.migrate d.world t.record).2 }.answer t.number
      (d.store.migrate d.world t.record).1) := by
  have carried : d.store.migrate d.world t.record = d.world.migrate t.record := by
    rw [h.store_eq]
    rfl
  rw [carried]
  have called := h.call drivable mem calling d.chance.fraction
  have ordinary : ∀ failure, (d.world.migrate t.record).1 = .error failure →
      failure.isOrdinary = true := fun failure raised =>
    drivable.responsive.migrate (r := d.world.repository) raised
  exact Follows.told (called.drawIf _) ordinary _

theorem Follows.begun (h : Follows start d) (number : Nat) (created : Bool) :
    Follows start (if created then d.event (.start number) else d.event (.wake number)) := by
  split
  · exact h.event rfl
  · exact h.event rfl

theorem Follows.task (h : Follows start d) (drivable : Drivable start) (number : Nat) :
    Follows start (d.task number) := by
  unfold Drive.task
  dsimp only
  generalize d.run.migration.stageIs number _ = created
  have begun := h.begun number created
  generalize (if created then d.event (.start number) else _) = d' at begun ⊢
  split
  · next calling =>
    obtain ⟨t, known, stage⟩ := Migration.State.stageIs_iff.mp calling
    obtain ⟨mem, rfl⟩ := Migration.State.task?_eq_some known
    have called : t.stage = .calling := by revert stage; cases t.stage <;> simp
    rw [if_neg (Bool.eq_false_iff.mp begun.ungated), known]
    exact begun.answer drivable mem called
  · exact begun.settled

theorem Follows.act (h : Follows start d) (drivable : Drivable start) {t : Turn}
    (fits : t.Fits d.run) : Follows start (d.act t) := by
  cases t with
  | reader i => exact h.reader drivable fits
  | puller => exact h.puller
  | fetch => exact h.fetch
  | signal wait =>
    unfold Drive.act
    dsimp only
    split
    · exact Follows.pushOne (h.rest (by rfl)) (by trivial)
    · exact h
  | consumer => exact h.consumer
  | task number => exact h.task drivable number
  | putAway number =>
    refine { h with uncut := ?_ }
    simp [Drive.act, h.uncut]
  | breakOff => exact fits.elim

/-- However many turns are taken. -/
theorem Follows.settle (h : Follows start d) (drivable : Drivable start) (fuel : Nat) :
    Follows start (d.settle fuel) := by
  induction fuel generalizing d with
  | zero => exact h
  | succ fuel ih =>
    cases waiting : d.turns with
    | nil =>
      simp only [Drive.settle, waiting]
      exact h
    | cons t turns =>
      obtain ⟨rest, fits⟩ := h.of_turn waiting
      unfold Drive.settle
      simp only [waiting]
      exact ih (rest.act drivable fits)

end Parts

/-- A whole driven run is a run at work, whatever the chance and the clock are. -/
theorem whole_follows {μ : Type} [Client μ] {config : Config} (responsive : Responsive μ)
    (positive : config.Positive) (labelledDry : Value) (baseline : Counter.Tally)
    (repository : Repository μ) (chance : Chance) (clock : List Float) :
    Follows (Work.start config labelledDry baseline (readingAt clock 0) repository)
      (Drive.whole config labelledDry baseline Session.store (.new repository) chance clock) := by
  refine Follows.settle ?_ (drivable_start responsive positive) _
  refine ⟨⟨[], .nil⟩, rfl, rfl, rfl, List.forall_mem_singleton.mpr trivial, ?_⟩
  exact fun i mem => absurd mem List.not_mem_nil

end Rekey.Run
