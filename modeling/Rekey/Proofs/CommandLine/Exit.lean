import Rekey.CommandLine.Program
import Rekey.Proofs.Run.Driven
import Rekey.Proofs.Service.Names
import Rekey.Proofs.Service.Openings

/-! # How the command ends

The command reports success exactly if both table names are valid and no scan of a segment has
raised, however many records were abandoned. Otherwise it has one complaint and does not say that
the migration is complete. With an invalid name nothing is asked of the table service. Once a
repository has been made, it is closed whatever comes of the run. -/
namespace Rekey.CommandLine

open Run (ComesOut State Work)
open Service (Client Memory Repository Responsive)
open TableName (Chosen Environment Resolved)

/-! ## Executions of the command -/

/-- Each of the two names that are chosen is valid. -/
structure NamesValid (given : List Given) (env : Environment) : Prop where
  source : ∀ name, Chosen [(addressOf given).source, env.lookup TableName.sourceVariable,
    some TableName.defaultSource] name → TableName.validate name = .ok ()
  destination : ∀ name, Chosen [(addressOf given).destination,
    env.lookup TableName.destinationVariable, some TableName.defaultDestination] name →
    TableName.validate name = .ok ()

/-- What a run returns or raises. -/
inductive Ends (s : State) : Except Failure Summary → Prop where
  | returns {summary : Summary} : s.status = .completed summary → Ends s (.ok summary)
  | raises {failure : Failure} : s.status = .failed failure → Ends s (.error failure)

section Executions
variable {μ : Type} [Client μ]

/-- The command has made a repository and has come to `w` in its work. Whatever is left open to a
run is left open here: the order of events, the answers of the service, and what clocks show. -/
inductive AtWork (given : List Given) (around : Surroundings μ) (made : Repository μ)
    (moves : List (Work μ × Work.Happening)) (w : Work μ) : Prop where
  | intro (startedAt : Float) :
    Repository.create (addressOf given) around.environment around.now around.service = .ok made →
    Trace Work.TimedStep
      (Work.start (configOf given) (configOf given).dryRun .zero startedAt made) moves w →
    AtWork given around made moves w

/-- The command ends, after a history of what happened at work. -/
inductive Exits (given : List Given) (around : Surroundings μ) :
    List (Work μ × Work.Happening) → Exit μ → Prop where
  | refused {failure : Failure} :
    Repository.create (addressOf given) around.environment around.now around.service =
      .error failure →
    Exits given around [] (.refused failure around.service)
  | ran {made : Repository μ} {moves : List (Work μ × Work.Happening)} {w : Work μ}
    {ended : Except Failure Summary} :
    AtWork given around made moves w → Ends w.run ended →
    Exits given around moves
      (.ofRun (configOf given) made w.session.repository w.run.log (some ended))

end Executions

/-! ## What is said -/

theorem completion_first (dry : Bool) : (completion dry).toList.head? = some '✓' := by
  simp [completion, tick]

section Lines
variable {μ : Type}

theorem completion_not_mem_preamble (r : Repository μ) (c : Config) (dry : Bool) :
    completion dry ∉ preamble r c := by
  intro mem
  have first := completion_first dry
  simp only [preamble, List.mem_cons, List.not_mem_nil, or_false] at mem
  rcases mem with h | h | h | h | h | h <;> rw [h] at first <;> simp at first

/-- The output of a command that has failed, and its one complaint. -/
structure Fails (x : Exit μ) : Prop where
  status_eq : x.status = 1
  complaint : ∃ text, x.complaints = [cross ++ text]
  incomplete : ∀ dry, completion dry ∉ x.output

structure Succeeds (x : Exit μ) : Prop where
  status_eq : x.status = 0
  content : x.complaints = []
  complete : ∃ dry, completion dry ∈ x.output

theorem refused_fails (failure : Failure) (service : μ) : Fails (Exit.refused failure service) :=
  ⟨rfl, ⟨failure.message, rfl⟩, fun _ => List.not_mem_nil⟩

variable [Client μ] (config : Config) (made left : Repository μ) (log : List Notice)

theorem returned_succeeds (summary : Summary) :
    Succeeds (Exit.ofRun config made left log (some (.ok summary))) :=
  ⟨rfl, rfl, summary.dryRun.truthy, List.mem_append_right _ (by simp [report])⟩

theorem raised_fails (failure : Failure) :
    Fails (Exit.ofRun config made left log (some (.error failure))) :=
  ⟨rfl, ⟨_, by rw [Exit.ofRun, String.append_assoc]⟩, completion_not_mem_preamble made config⟩

theorem ofRun_service (ended : Option (Except Failure Summary)) :
    (Exit.ofRun config made left log ended).service = left.close.service := by
  unfold Exit.ofRun
  split <;> rfl

end Lines

/-! ## What the options come to -/

section Options

theorem valueOr_size (given : List Given) (name : String) {standard : Nat}
    (positive : 1 ≤ standard) : 1 ≤ valueOr given name readSize standard := by
  unfold valueOr
  split
  · split
    · next n accepted =>
      unfold readSize at accepted
      split at accepted
      · cases accepted
      · split at accepted <;> cases accepted
        omega
    · exact positive
  · exact positive

/-- Whatever options are given, the configuration passes its own check. -/
theorem configOf_accepted (given : List Given) :
    (configOf given).request.accept = .ok (configOf given) := by
  have policy : (configOf given).retry.Accepted := Config.standard_accepted.retry
  exact Config.Request.accept_eq_ok_iff.mpr ⟨rfl, valueOr_size given _ (by decide),
    valueOr_size given _ (by decide), valueOr_size given _ (by decide), Nat.le_succ 1, policy⟩

theorem configOf_positive (given : List Given) : (configOf given).Positive :=
  Config.Request.accept_positive (configOf_accepted given)

theorem validate_chosen_iff {candidates : List (Option String)} {outcome : Except Failure String}
    (resolved : Resolved candidates outcome) :
    (∀ name, Chosen candidates name → TableName.validate name = .ok ()) ↔
      ∃ name, outcome = .ok name := by
  constructor
  · intro valid
    obtain ⟨name, chosen⟩ := resolved.exists_chosen
    exact ⟨name, resolved.passing name chosen (TableName.validate_eq_ok_iff.mp (valid name chosen))⟩
  · rintro ⟨name, ok⟩ other chosen
    obtain ⟨chosen', passes⟩ := resolved.of_ok ok
    rw [chosen.unique chosen']
    exact TableName.validate_eq_ok_iff.mpr passes

/-- A repository is made exactly if both names are valid. -/
theorem namesValid_iff {μ : Type} (given : List Given) (around : Surroundings μ) :
    NamesValid given around.environment ↔ ∃ made, Repository.create (addressOf given)
      around.environment around.now around.service = .ok made := by
  have source := validate_chosen_iff
    (TableName.resolveSource_resolved (addressOf given).source around.environment)
  have destination := validate_chosen_iff
    (TableName.resolveDestination_resolved (addressOf given).destination around.environment)
  have both : NamesValid given around.environment ↔
      (∃ name, TableName.resolveSource (addressOf given).source around.environment = .ok name) ∧
      ∃ name, TableName.resolveDestination (addressOf given).destination around.environment =
        .ok name := by
    rw [← source, ← destination]
    exact ⟨fun h => ⟨h.source, h.destination⟩, fun h => ⟨h.1, h.2⟩⟩
  rw [both]
  rcases Service.create_cases (addressOf given) around.environment around.now around.service with
    ⟨s, d, hs, hd, made⟩ | ⟨failure, refused, unresolved⟩
  · exact iff_of_true ⟨⟨s, hs⟩, d, hd⟩ ⟨_, made⟩
  · have none : ¬ ∃ made, Repository.create (addressOf given) around.environment around.now
        around.service = .ok made := by simp [refused]
    rcases unresolved with hs | hd
    · exact iff_of_false (by simp [hs]) none
    · exact iff_of_false (by simp [hd]) none

end Options

/-! ## The status -/

section Status
variable {μ : Type} [Client μ] {given : List Given} {around : Surroundings μ}

/-- How the command ends is how its names and its scans are. -/
structure Verdict (given : List Given) (around : Surroundings μ)
    (moves : List (Work μ × Work.Happening)) (x : Exit μ) : Prop where
  succeeds_iff : x.status = 0 ↔ NamesValid given around.environment ∧ ¬ Work.ScanFailed moves
  success : x.status = 0 → Succeeds x
  failure : x.status ≠ 0 → Fails x
  unopened : ¬ NamesValid given around.environment → moves = [] ∧ x.service = around.service
  closed : NamesValid given around.environment → ∃ made w, AtWork given around made moves w ∧
    x.service = w.session.repository.close.service ∧
    w.session.repository.close.connection.isOpen = false

theorem close_not_open (r : Repository μ) : r.close.connection.isOpen = false := by
  unfold Repository.close
  split
  · simp [Service.Connection.isOpen, Service.Sharing.current_closing]
  · next closed => exact Bool.eq_false_iff.mpr closed

theorem AtWork.namesValid {made : Repository μ} {moves : List (Work μ × Work.Happening)}
    {w : Work μ} (h : AtWork given around made moves w) : NamesValid given around.environment := by
  obtain ⟨_, created, _⟩ := h
  exact (namesValid_iff given around).mpr ⟨made, created⟩

theorem exit_verdict (responsive : Responsive μ) {moves : List (Work μ × Work.Happening)}
    {x : Exit μ} (exits : Exits given around moves x) : Verdict given around moves x := by
  cases exits with
  | @refused failure refused =>
    have invalid : ¬ NamesValid given around.environment := by
      rw [namesValid_iff]
      rintro ⟨made, created⟩
      rw [refused] at created
      cases created
    refine ⟨iff_of_false nofun fun valid => invalid valid.1, nofun,
      fun _ => refused_fails failure _, fun _ => ⟨rfl, rfl⟩, fun valid => absurd valid invalid⟩
  | @ran made moves w ended work ends =>
    have valid := work.namesValid
    have closed : ∃ made' w', AtWork given around made' moves w' ∧
        (Exit.ofRun (configOf given) made w.session.repository w.run.log (some ended)).service =
          w'.session.repository.close.service ∧
        w'.session.repository.close.connection.isOpen = false :=
      ⟨made, w, work, ofRun_service .., close_not_open _⟩
    obtain ⟨_, _, trace⟩ := work
    have out := Work.work_comes_out responsive (configOf_positive given) trace
    cases ends with
    | @returns summary completed =>
      have succeeds := returned_succeeds (configOf given) made w.session.repository w.run.log summary
      cases out with
      | running running => rw [completed] at running; cases running
      | failed _ failed => rw [completed] at failed; cases failed
      | completed _ _ sound =>
        have sound := mt Work.scanFailed_iff.mp sound
        exact ⟨iff_of_true rfl ⟨valid, sound⟩, fun _ => succeeds, fun other => absurd rfl other,
          fun invalid => absurd valid invalid, fun _ => closed⟩
    | @raises failure failed =>
      have fails := raised_fails (configOf given) made w.session.repository w.run.log failure
      cases out with
      | running running => rw [failed] at running; cases running
      | completed _ completed => rw [failed] at completed; cases completed
      | failed _ _ raised =>
        have raised := Work.scanFailed_iff.mpr raised
        exact ⟨iff_of_false nofun fun sound => sound.2 raised, nofun, fun _ => fails,
          fun invalid => absurd valid invalid, fun _ => closed⟩

/-- That the command comes to an exit, and to which. Its effort is bounded by the records read. -/
structure Concludes (given : List Given) (around : Surroundings μ) : Prop where
  verdict : ∀ moves x, Exits given around moves x → Verdict given around moves x
  refuses : ¬ NamesValid given around.environment → ∃ x, Exits given around [] x
  begins : NamesValid given around.environment → ∃ made w, AtWork given around made [] w
  goes_on : ∀ made moves w, AtWork given around made moves w →
    (∃ x, Exits given around moves x) ∨ ∃ e, w.Enabled e
  effort : ∀ made moves w, AtWork given around made moves w →
    moves.countP (·.2.isEffort) ≤
      2 * Run.stepsFor (configOf given) w.run.produced.length + (configOf given).maxConcurrency

theorem AtWork.goes_on (responsive : Responsive μ) {made : Repository μ}
    {moves : List (Work μ × Work.Happening)} {w : Work μ} (h : AtWork given around made moves w) :
    (∃ x, Exits given around moves x) ∨ ∃ e, w.Enabled e := by
  have work := h
  obtain ⟨_, _, trace⟩ := h
  have positive := configOf_positive given
  cases Work.work_comes_out responsive positive trace with
  | running running => exact .inr (Work.goes_on responsive positive trace running)
  | completed _ completed => exact .inl ⟨_, .ran work (.returns completed)⟩
  | failed _ failed => exact .inl ⟨_, .ran work (.raises failed)⟩

/-- The command ends with status 0 exactly if both names are valid and no scan has raised, however
many records were abandoned. -/
theorem command_concludes (responsive : Responsive μ) (given : List Given)
    (around : Surroundings μ) : Concludes given around where
  verdict _ _ := exit_verdict responsive
  refuses invalid := by
    rw [namesValid_iff] at invalid
    cases created : Repository.create (addressOf given) around.environment around.now
      around.service with
    | error failure => exact ⟨_, .refused created⟩
    | ok made => exact absurd ⟨made, created⟩ invalid
  begins valid := by
    obtain ⟨made, created⟩ := (namesValid_iff given around).mp valid
    exact ⟨made, _, .intro 0 created .nil⟩
  goes_on _ _ _ := AtWork.goes_on responsive
  effort _ _ _ work := by
    obtain ⟨_, _, trace⟩ := work
    exact Work.effort_le responsive (configOf_positive given) trace

end Status

/-! ## A write and a scan that are refused -/

def smallGiven : List Given :=
  match read ["migrate", "--source-table", "old", "--destination-table=new", "--dry-run", "no",
    "--buffer", "1"] with
  | .command _ given => given
  | .page _ | .empty | .misused _ => []

/-- A table with one record. Requests of one kind are refused. -/
def smallAround (refused : String) : Surroundings :=
  ⟨[], 10, [0, 1],
    { Memory.empty with
      tables := [("old", [.ofSource Run.bea]), ("new", [])]
      faults := [(refused, [some (.refused (.ofCode "AccessDeniedException" "Not authorized"))])] }⟩

def smallMade (refused : String) : Repository :=
  ⟨"old", "new", none, none, .none, 10, (smallAround refused).service, []⟩

def smallWork (refused : String) : Work Memory :=
  Work.start (configOf smallGiven) (configOf smallGiven).dryRun .zero 0 (smallMade refused)

/-- The record is abandoned. The last event comes first. -/
def abandoningEvents : List Work.Event :=
  [.inner (.finish 0), .inner .conclude, .inner .exhaust, .inner (.collect []), .inner (.put 0),
    .read 0, .inner .acquire, .inner .request, .answer 0 0, .carryOut 0, .inner (.start 0),
    .inner .assign, .inner .begin, .inner (.collect [Run.bea]), .inner (.put 0), .read 0, .page 0,
    .inner .acquire, .inner .request]

def raisingEvents : List Work.Event :=
  [.inner .surrender, .inner (.collect []), .inner (.put 0), .read 0, .inner .acquire,
    .inner .request]

theorem small_created (refused : String) : Repository.create (addressOf smallGiven)
    (smallAround refused).environment (smallAround refused).now (smallAround refused).service =
      .ok (smallMade refused) := by
  have source : TableName.resolveSource (addressOf smallGiven).source [] = .ok "old" :=
    TableName.resolve_eq_ok_iff.mpr (by decide +kernel)
  have destination : TableName.resolveDestination (addressOf smallGiven).destination [] =
      .ok "new" := TableName.resolve_eq_ok_iff.mpr (by decide +kernel)
  have elsewhere : (addressOf smallGiven).region = none ∧ (addressOf smallGiven).endpoint = none :=
    by decide +kernel
  unfold Repository.create
  rw [show (smallAround refused).environment = [] from rfl, source, destination, elsewhere.1,
    elsewhere.2]
  rfl

theorem small_atWork {refused : String} {events : List Work.Event}
    (happen : (smallWork refused).Happen events) :
    AtWork smallGiven (smallAround refused) (smallMade refused)
      ((Trace.replay Work.next (smallWork refused) events).map fun m => (m.1, .event m.2))
      (Trace.reached Work.next (smallWork refused) events) :=
  .intro 0 (small_created refused) (Work.trace_timed (Work.trace_of_happen happen))

theorem failed_of_matches {s : State} (h : (s.status matches .failed _) = true) :
    ∃ failure, s.status = .failed failure := by
  cases hs : s.status with
  | failed failure => exact ⟨failure, rfl⟩
  | running | completed | cancelled => rw [hs] at h; cases h

/-- One command abandons its record and succeeds, the other cannot scan and fails. -/
theorem small_command_concludes : Responsive Memory ∧
    (∃ made moves w x, AtWork smallGiven (smallAround "put_item") made moves w ∧
      w.run.tally = ⟨1, 0, 1⟩ ∧ Exits smallGiven (smallAround "put_item") moves x ∧
      ¬ Work.ScanFailed moves ∧ Succeeds x) ∧
    ∃ moves x, Exits smallGiven (smallAround "scan") moves x ∧ Work.ScanFailed moves ∧
      Fails x := by
  refine ⟨Memory.responsive, ?_, ?_⟩
  · have happen : (smallWork "put_item").Happen abandoningEvents := by decide +kernel
    have work := small_atWork happen
    obtain ⟨summary, completed⟩ : ∃ summary, (Trace.reached Work.next (smallWork "put_item")
        abandoningEvents).run.status = .completed summary :=
      Run.completed_of_matches (by decide +kernel)
    have exits := Exits.ran work (.returns completed)
    have verdict := (command_concludes Memory.responsive smallGiven _).verdict _ _ exits
    exact ⟨_, _, _, _, work, by decide +kernel, exits, (verdict.succeeds_iff.mp rfl).2,
      verdict.success rfl⟩
  · have happen : (smallWork "scan").Happen raisingEvents := by decide +kernel
    have work := small_atWork happen
    obtain ⟨failure, failed⟩ : ∃ failure, (Trace.reached Work.next (smallWork "scan")
        raisingEvents).run.status = .failed failure := failed_of_matches (by decide +kernel)
    have exits := Exits.ran work (.raises failed)
    have verdict := (command_concludes Memory.responsive smallGiven _).verdict _ _ exits
    refine ⟨_, _, exits, ?_, verdict.failure nofun⟩
    by_contra sound
    exact absurd (verdict.succeeds_iff.mpr ⟨work.namesValid, sound⟩) nofun

/-! ## The program's own schedule -/

section Schedule
variable {μ : Type} [Client μ] {given : List Given} {around : Surroundings μ}

/-- The order of events that the program takes is one of those left open above, so that it ends as
one of these executions does, unless it is given up before it has ended. -/
theorem exitOf_exits (responsive : Responsive μ) (given : List Given) (around : Surroundings μ) :
    (∃ moves, Exits given around moves (exitOf given around)) ∨
      (exitOf given around).status = 1 ∧ (exitOf given around).complaints = [] := by
  unfold exitOf
  split
  · next failure refused => exact .inl ⟨[], .refused refused⟩
  · next made created =>
    have positive := configOf_positive given
    have follows := Run.whole_follows responsive positive (configOf given).dryRun .zero made .standard
      around.clock
    dsimp only
    generalize Run.Drive.whole (configOf given) _ _ _ _ _ _ = d at follows ⊢
    obtain ⟨moves, trace⟩ := follows.work
    have work : AtWork given around made moves _ := .intro _ created trace
    cases Work.work_comes_out responsive positive trace with
    | running running =>
      have given_up : d.outcome? = none := by rw [Run.Drive.outcome?, running]
      rw [given_up]
      exact .inr ⟨rfl, rfl⟩
    | completed summary completed =>
      have returned : d.outcome? = some (.ok summary) := by rw [Run.Drive.outcome?, completed]
      rw [returned]
      exact .inl ⟨moves, .ran work (.returns completed)⟩
    | failed failure failed =>
      have raised : d.outcome? = some (.error failure) := by rw [Run.Drive.outcome?, failed]
      rw [raised]
      exact .inl ⟨moves, .ran work (.raises failed)⟩

end Schedule

example : (exitOf smallGiven (smallAround "put_item")).status = 0 := by decide +kernel

end Rekey.CommandLine
