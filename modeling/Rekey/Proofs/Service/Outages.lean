import Rekey.Migration.Single
import Rekey.Proofs.Retry.Series
import Rekey.Proofs.Service.Calls

/-! # Migrations during an outage

While the service is out, writes fail on its side or on the way to it. A migration tries again after
the failures that it knows to pass: a dropped connection, and a refusal whose code is one of a list.
The status of a response has no part in this. So a refusal by which the service admits a failure of
its own, but under a code that is not on the list, ends the migration at once. -/
namespace Rekey.Service

open Migration (Single)
open Retry (Policy MayPass attempt)

/-- A failure that is none of the request: a dropped connection, or a refusal whose status says that
the service has failed. -/
def ServerSide : Failure → Prop
  | .link fault _ => fault.isDropped = true
  | .service response _ =>
    ∃ status, response.metadata.bind (·.httpStatus) = some status ∧ 500 ≤ status
  | _ => False

/-- Whether a failure is one after which a write is tried again. -/
def passes : Failure → Bool
  | .link fault _ => fault.isDropped
  | .service response _ => response.isTransient
  | _ => false

section Failures
variable {key : String} {failure : Failure}

theorem writeFailure_mayPass_iff (key : String) (server : ServerSide failure) :
    MayPass Failure.isTransient (Repository.writeFailure key failure) ↔ passes failure = true := by
  cases failure with
  | link fault url =>
    have dropped : fault.isDropped = true := server
    refine ⟨fun _ => dropped, fun _ => ?_⟩
    unfold Repository.writeFailure
    dsimp only
    rw [if_pos dropped]
    exact ⟨_, rfl, rfl⟩
  | service response title =>
    have handled := (writeFailure_handling key response title).handled
    unfold MayPass passes
    constructor
    · rintro ⟨failure, h⟩
      obtain ⟨code, known, told, -⟩ := (handled.later failure).mp h
      exact (Response.isTransient_iff told).mpr ⟨code, rfl, known⟩
    · intro known
      cases told : response.code? with
      | none => simp [Response.isTransient, told] at known
      | some code =>
        obtain ⟨text, same, listed⟩ := (Response.isTransient_iff told).mp known
        obtain rfl := text?_eq_some_iff.mp same
        exact ⟨_, (handled.later _).mpr ⟨text, listed, told, rfl⟩⟩
  | _ => exact server.elim

/-- A failure that is not known to pass is one of the record alone, unless it tells that the place of
the record is taken. -/
theorem writeFailure_lasting (key : String) (server : ServerSide failure)
    (lasting : passes failure = false) :
    (IsConditionFailed failure ∧ Repository.writeFailure key failure = .ok false) ∨
      ¬ IsConditionFailed failure ∧ ∃ failure', failure'.isOrdinary = true ∧
        Repository.writeFailure key failure = .error failure' := by
  rw [← Bool.not_eq_true, ← writeFailure_mayPass_iff key server] at lasting
  cases told : Repository.writeFailure key failure with
  | ok written =>
    obtain ⟨rfl, failed⟩ := writeFailure_eq_ok_iff.mp told
    exact .inl ⟨failed, rfl⟩
  | error failure' =>
    refine .inr ⟨fun failed => ?_, failure', ?_, rfl⟩
    · rw [writeFailure_eq_ok_iff.mpr ⟨rfl, failed⟩] at told
      cases told
    · cases failure with
      | link fault url => exact absurd ((writeFailure_mayPass_iff key server).mpr server) lasting
      | service response title =>
        have handling := writeFailure_handling key response title
        rw [told] at handling
        cases handling <;> rfl
      | _ => exact server.elim

theorem exists_first_lasting {failures : List Failure}
    (lasting : ¬ ∀ failure ∈ failures, passes failure = true) :
    ∃ earlier failure later, failures = earlier ++ failure :: later ∧
      (∀ failure ∈ earlier, passes failure = true) ∧ passes failure = false := by
  cases found : failures.find? (fun failure => !passes failure) with
  | none =>
    rw [List.find?_eq_none] at found
    exact absurd (fun failure mem => by simpa using found failure mem) lasting
  | some failure =>
    obtain ⟨lasts, earlier, later, split, known⟩ := List.find?_eq_some_iff_append.mp found
    exact ⟨earlier, failure, later, split, by simpa using known, by simpa using lasts⟩

end Failures

/-! ## The course of a migration by its attempts -/

section Single
variable {σ : Type} {p : Policy Float} {store : Store σ} {fraction : Nat → Float} {world : σ}
  {record : Record} {n : Nat}

/-- What attempt number `n` of a migration comes to, and the world after it. -/
def attempted (p : Policy Float) (store : Store σ) (fraction : Nat → Float) (world : σ)
    (record : Record) : Nat → Except Failure Bool × σ :=
  attempt p (fun world => store.migrate world record) (fun world _ => world) fraction world

/-- The world before attempt number `n`. -/
def worldBefore (p : Policy Float) (store : Store σ) (fraction : Nat → Float) (world : σ)
    (record : Record) : Nat → σ
  | 0 => world
  | n + 1 => (attempted p store fraction world record n).2

theorem attempted_eq : attempted p store fraction world record n =
    store.migrate (worldBefore p store fraction world record n) record := by
  cases n <;> rfl

/-- All attempts of a migration together. -/
def series (p : Policy Float) (store : Store σ) (fraction : Nat → Float) (world : σ)
    (record : Record) : Retry.Transcript Float Bool σ :=
  Retry.run p Failure.isTransient (fun world => store.migrate world record) (fun world _ => world)
    fraction world

/-- A migration with `n` retries whose last attempt comes to `last`. -/
structure Concluded (n : Nat) (last : Except Failure Bool) (single : Single σ) : Prop where
  retries : single.delays.length = n
  answered : ∀ written, last = .ok written → single.outcome = .ok written ∧
    single.tally = ⟨0, if written then 1 else 0, 0⟩
  abandoned : ∀ failure, last = .error failure → failure.isOrdinary = true →
    single.outcome = .ok false ∧ single.tally = ⟨0, 0, 1⟩

theorem concluded_of_series {t : Retry.Transcript Float Bool σ}
    (whole : series p store fraction world record = t) :
    Concluded t.delays.length t.outcome
      (Migration.migrate false p store fraction world record) := by
  unfold series at whole
  unfold Migration.migrate
  rw [if_neg Bool.false_ne_true, whole]
  cases t with | mk outcome calls waits draws world =>
  cases outcome with
  | ok written => exact ⟨rfl, fun _ h => by cases h; exact ⟨rfl, rfl⟩, nofun⟩
  | error failure =>
    by_cases ordinary : failure.isOrdinary = true
    · dsimp only
      rw [if_pos ordinary]
      exact ⟨rfl, nofun, fun _ _ _ => ⟨rfl, rfl⟩⟩
    · dsimp only
      rw [if_neg ordinary]
      exact ⟨rfl, nofun, fun _ h ordinary' => by cases h; exact absurd ordinary' ordinary⟩

/-- A migration tries again while its attempts may pass, and the last attempt is what counts. -/
theorem migrate_concluded (computes : p.Computes) (short : n ≤ p.maxRetries)
    (before : ∀ i < n, MayPass Failure.isTransient (attempted p store fraction world record i).1)
    (last : ¬ MayPass Failure.isTransient (attempted p store fraction world record n).1) :
    Concluded n (attempted p store fraction world record n).1
      (Migration.migrate false p store fraction world record) := by
  have stops : ¬ p.GoesOn Failure.isTransient n (attempted p store fraction world record n).1 :=
    fun goesOn => last goesOn.mayPass
  have course : Retry.Series p Failure.isTransient fraction
      (attempted p store fraction world record) 0 n (series p store fraction world record) :=
    Retry.attempts_series stops (Nat.zero_le n)
      (fun i _ hi => computes.goesOn_iff.mpr ⟨before i hi, by omega⟩) rfl
  have outcome : (series p store fraction world record).outcome =
      (attempted p store fraction world record n).1 := by
    rw [course.outcome]
    rcases Policy.conclusion_of_last stops with ⟨own, -⟩ | ⟨failure, -, failed, passes, -⟩
    · exact own
    · exact absurd ⟨failure, failed, passes⟩ last
  have retries : (series p store fraction world record).delays.length = n := by
    rw [Retry.Transcript.delays, List.length_map]
    exact course.pauses
  rw [← outcome]
  conv => arg 1; rw [← retries]
  exact concluded_of_series rfl

/-- What a migration comes to that is not tried again after a failure. The record is abandoned unless
the failure tells that its place is taken. -/
structure GivenUp (earlier : List Failure) (failure : Failure) (single : Single σ) : Prop where
  outcome : single.outcome = .ok false
  retries : single.delays.length = earlier.length
  passed_over : IsConditionFailed failure → single.tally = .zero
  abandoned : ¬ IsConditionFailed failure → single.tally = ⟨0, 0, 1⟩

/-- What the migration of a record comes to whose writes fail by the service before one succeeds. -/
structure Weathered (failures : List Failure) (single : Single σ) : Prop where
  written_iff : single.outcome = .ok true ↔ ∀ failure ∈ failures, passes failure = true
  written : (∀ failure ∈ failures, passes failure = true) →
    single.tally = ⟨0, 1, 0⟩ ∧ single.delays.length = failures.length
  given_up : ∀ earlier failure later, failures = earlier ++ failure :: later →
    (∀ failure ∈ earlier, passes failure = true) → passes failure = false →
    GivenUp earlier failure single

/-- The attempts of a migration meet failures on the side of the service, one after another, and
the attempt after them writes. -/
structure Meets (p : Policy Float) (store : Store σ) (fraction : Nat → Float) (world : σ)
    (record : Record) (failures : List Failure) : Prop where
  server : ∀ failure ∈ failures, ServerSide failure
  fails : ∀ i failure, failures[i]? = some failure →
    (attempted p store fraction world record i).1 = Repository.writeFailure record.key failure
  ends : (attempted p store fraction world record failures.length).1 = .ok true

variable {failures : List Failure}

theorem Meets.mayPass_iff (h : Meets p store fraction world record failures) {i : Nat}
    {failure : Failure} (turn : failures[i]? = some failure) :
    MayPass Failure.isTransient (attempted p store fraction world record i).1 ↔
      passes failure = true := by
  rw [h.fails i failure turn]
  exact writeFailure_mayPass_iff record.key (h.server failure (List.mem_of_getElem? turn))

theorem Meets.concluded_of_passing (h : Meets p store fraction world record failures)
    (computes : p.Computes) (short : failures.length ≤ p.maxRetries)
    (known : ∀ failure ∈ failures, passes failure = true) :
    Concluded failures.length (.ok true)
      (Migration.migrate false p store fraction world record) := by
  rw [← h.ends]
  refine migrate_concluded computes short (fun i hi => ?_) ?_
  · have turn : failures[i]? = some failures[i] := List.getElem?_eq_getElem hi
    exact (h.mayPass_iff turn).mpr (known _ (List.getElem_mem hi))
  · rw [h.ends]
    rintro ⟨failure, ⟨⟩, -⟩

theorem Meets.concluded_of_lasting (h : Meets p store fraction world record failures)
    (computes : p.Computes) (short : failures.length ≤ p.maxRetries)
    {earlier later : List Failure} {failure : Failure}
    (split : failures = earlier ++ failure :: later)
    (known : ∀ failure ∈ earlier, passes failure = true) (lasting : passes failure = false) :
    Concluded earlier.length (Repository.writeFailure record.key failure)
      (Migration.migrate false p store fraction world record) := by
  have turn : failures[earlier.length]? = some failure := by simp [split]
  have le : earlier.length ≤ failures.length := by simp [split]
  rw [← h.fails _ _ turn]
  refine migrate_concluded computes (le.trans short) (fun i hi => ?_) ?_
  · have turn : failures[i]? = some earlier[i] := by
      rw [split, List.getElem?_append_left hi, List.getElem?_eq_getElem hi]
    exact (h.mayPass_iff turn).mpr (known _ (List.getElem_mem hi))
  · rw [h.mayPass_iff turn, lasting]
    exact Bool.false_ne_true

/-- A migration that meets failures of the service writes if all of them pass, and gives the record up
at the first one that does not. -/
theorem Meets.weathered (h : Meets p store fraction world record failures)
    (computes : p.Computes) (short : failures.length ≤ p.maxRetries) :
    Weathered failures (Migration.migrate false p store fraction world record) := by
  have given_up : ∀ earlier failure later, failures = earlier ++ failure :: later →
      (∀ failure ∈ earlier, passes failure = true) → passes failure = false →
      GivenUp earlier failure (Migration.migrate false p store fraction world record) := by
    intro earlier failure later split known lasting
    have concluded := h.concluded_of_lasting computes short split known lasting
    have server := h.server failure (by simp [split])
    rcases writeFailure_lasting record.key server lasting with
      ⟨condition, told⟩ | ⟨other, failure', ordinary, told⟩
    · obtain ⟨outcome, tally⟩ := concluded.answered false told
      exact ⟨outcome, concluded.retries, fun _ => tally, fun other => absurd condition other⟩
    · obtain ⟨outcome, tally⟩ := concluded.abandoned failure' told ordinary
      exact ⟨outcome, concluded.retries, fun condition => absurd condition other, fun _ => tally⟩
  refine ⟨⟨fun written => ?_, fun known => ?_⟩, fun known => ?_, given_up⟩
  · by_contra lasting
    obtain ⟨earlier, failure, later, split, known, lasts⟩ := exists_first_lasting lasting
    have silent := (given_up earlier failure later split known lasts).outcome
    rw [written] at silent
    cases silent
  · exact ((h.concluded_of_passing computes short known).answered true rfl).1
  · have concluded := h.concluded_of_passing computes short known
    exact ⟨(concluded.answered true rfl).2, concluded.retries⟩

end Single

/-! ## An outage -/

section Outage
variable {μ : Type} [Client μ]

/-- The store of a session behind a clock that shows a new reading at each call. The world counts
the calls. -/
def Session.clocked (reading : Nat → Float) : Store (Nat × Session μ) where
  read world segment total :=
    let (answer, session) := world.2.advance segment total
    (answer, world.1, session)
  migrate world record :=
    let (outcome, repository) := world.2.repository.called ⟨reading world.1, record⟩
    (outcome, world.1 + 1, { world.2 with repository })

/-- Of the conditional writes of items, one after another, each of the first fails with the failure
that is its turn, and then one succeeds. The service goes through the states `service`. -/
structure Outage (table : String) (item : Nat → Item) (failures : List Failure)
    (service : Nat → μ) : Prop where
  fails : ∀ i failure, failures[i]? = some failure →
    Client.putItem (service i) table (item i) true = (.error failure, service (i + 1))
  ends : Client.putItem (service failures.length) table (item failures.length) true =
    (.ok (), service (failures.length + 1))

variable {p : Policy Float} {fraction : Nat → Float} {r : Repository μ} {record : Record}
  {table : String} {failures : List Failure} {reading : Nat → Float} {now : Nat → Int} {service : Nat → μ}
  {world : Nat × Session μ} {i : Nat}

theorem Repository.connect_at (r : Repository μ) (time : Float) :
    (r.at time).connect = r.connect.at time := by
  unfold Repository.connect Repository.at
  dsimp only
  split <;> rfl

theorem Repository.connect_again (r : Repository μ) (service : μ) :
    { r.connect with service }.connect = { r.connect with service } := by
  have connected : r.connect.connection.isOpen = true := by
    unfold Repository.connect
    split
    · next isOpen => exact isOpen
    · rfl
  conv_lhs => unfold Repository.connect
  exact if_pos connected

theorem migrate_of_stored {now : Int} {service : μ} (clock : r.nowSeconds = .ok now)
    (unexpired : now < record.expiresAt) (writable : Item.refusal? record = none)
    (stored : Client.putItem r.connect.service r.destination (.ofMigrated record now) true =
      (.ok (), service)) : r.migrate record = (.ok true, { r.connect with service }) := by
  unfold Repository.migrate
  rw [clock]
  dsimp only
  rw [if_neg (Int.not_le.mpr unexpired), writable]
  dsimp only
  rw [r.connect_destination, stored]

/-- Before attempt number `i` the service is in the state that is its turn. -/
structure Awaiting (table : String) (service : Nat → μ) (i : Nat) (world : Nat × Session μ) :
    Prop where
  counted : world.1 = i
  destined : world.2.repository.destination = table
  here : world.2.repository.connect.service = service i

theorem clocked_migrate (reading : Nat → Float) (world : Nat × Session μ) (record : Record) :
    (Session.clocked reading).migrate world record =
      (((world.2.repository.at (reading world.1)).migrate record).1, world.1 + 1,
        { world.2 with
          repository := ((world.2.repository.at (reading world.1)).migrate record).2 }) := rfl

/-- The request that the next write is, at whatever time. -/
theorem Awaiting.put_eq (h : Awaiting table service i world) (time : Float) (item : Item) :
    Client.putItem (world.2.repository.at time).connect.service
        (world.2.repository.at time).destination item true =
      Client.putItem (service i) table item true := by
  rw [Repository.connect_at]
  show Client.putItem world.2.repository.connect.service world.2.repository.destination _ _ = _
  rw [h.here, h.destined]

/-- An attempt that fails comes to what its failure amounts to, and the next one awaits. -/
theorem Awaiting.fails (h : Awaiting table service i world)
    (outage : Outage table (fun i => .ofMigrated record (now i)) failures service)
    {failure : Failure} (turn : failures[i]? = some failure)
    (clock : (world.2.repository.at (reading i)).nowSeconds = .ok (now i))
    (unexpired : now i < record.expiresAt) (writable : Item.refusal? record = none) :
    ((Session.clocked reading).migrate world record).1 =
        Repository.writeFailure record.key failure ∧
      Awaiting table service (i + 1) ((Session.clocked reading).migrate world record).2 := by
  have failed := (h.put_eq (reading i) (.ofMigrated record (now i))).trans
    (outage.fails i failure turn)
  have moved := migrate_of_failed clock unexpired writable failed
  rw [clocked_migrate, h.counted, moved]
  refine ⟨rfl, rfl, ?_, ?_⟩
  · exact (Repository.connect_destination _).trans h.destined
  · exact congrArg Repository.service (Repository.connect_again (world.2.repository.at (reading i)) _)

theorem Awaiting.ends (h : Awaiting table service failures.length world)
    (outage : Outage table (fun i => .ofMigrated record (now i)) failures service)
    (clock : (world.2.repository.at (reading failures.length)).nowSeconds =
      .ok (now failures.length))
    (unexpired : now failures.length < record.expiresAt) (writable : Item.refusal? record = none) :
    ((Session.clocked reading).migrate world record).1 = .ok true := by
  have stored := (h.put_eq (reading failures.length) _).trans outage.ends
  rw [clocked_migrate, h.counted, migrate_of_stored clock unexpired writable stored]

/-- The attempts of a migration find the service as the failures of the outage leave it. -/
theorem awaiting_during (p : Policy Float) (fraction : Nat → Float) (start : Nat × Session μ)
    (outage : Outage table (fun i => .ofMigrated record (now i)) failures service)
    (clock : ∀ i ≤ failures.length, (start.2.repository.at (reading i)).nowSeconds = .ok (now i))
    (unexpired : ∀ i ≤ failures.length, now i < record.expiresAt)
    (writable : Item.refusal? record = none) (awaiting : Awaiting table service 0 start)
    (i : Nat) (le : i ≤ failures.length) :
    Awaiting table service i
      (worldBefore p (Session.clocked reading) fraction start record i) := by
  -- By induction on the attempts made: a failed one leaves the service as the next one finds it.
  induction i with
  | zero => exact awaiting
  | succ i ih =>
    have turn : failures[i]? = some failures[i] := List.getElem?_eq_getElem le
    have earlier := Nat.le_of_succ_le le
    show Awaiting table service (i + 1)
      (attempted p (Session.clocked reading) fraction start record i).2
    rw [attempted_eq]
    exact ((ih earlier).fails outage turn (clock i earlier) (unexpired i earlier) writable).2

/-- A record whose writes fail by the service, fewer times than there are attempts, is written if all
the failures pass, and is else given up at the first one that does not. -/
theorem server_failures_retried (computes : p.Computes) (short : failures.length < p.maxAttempts)
    (server : ∀ failure ∈ failures, ServerSide failure)
    (outage : Outage r.destination (fun i => .ofMigrated record (now i)) failures service)
    (first : service 0 = r.connect.service)
    (clock : ∀ i ≤ failures.length, (r.at (reading i)).nowSeconds = .ok (now i))
    (unexpired : ∀ i ≤ failures.length, now i < record.expiresAt)
    (writable : Item.refusal? record = none)
    (positions : List (Int × Repository.Position)) (fraction : Nat → Float) :
    Weathered failures (Migration.migrate false p (Session.clocked reading) fraction
      (0, ⟨r, positions⟩) record) := by
  have awaits := awaiting_during p fraction (0, ⟨r, positions⟩) outage clock unexpired writable
    ⟨rfl, rfl, first.symm⟩
  refine Meets.weathered ⟨server, fun i failure turn => ?_, ?_⟩ computes (Nat.le_of_lt_succ short)
  · have le : i ≤ failures.length := Nat.le_of_lt (List.getElem?_eq_some_iff.mp turn).1
    rw [attempted_eq]
    exact ((awaits i le).fails outage turn (clock i le) (unexpired i le) writable).1
  · have le := Nat.le_refl failures.length
    rw [attempted_eq]
    exact (awaits _ le).ends outage (clock _ le) (unexpired _ le) writable

end Outage

/-! ## Outages of different length -/

/-- A refusal with the status of its response. -/
def refusalOf (code : String) (status : Int) : Response :=
  ⟨some ⟨some (.text code), none⟩, some ⟨none, none, some status⟩⟩

/-- An empty destination whose next writes fail. -/
def faltering (faults : List Fault) : Repository :=
  ⟨"old", "new", none, none, .none, 10,
    { Memory.empty with tables := [("new", [])], faults := [("put_item", faults.map some)] }, []⟩

/-- The service after writes of the item of emil's record. -/
def falteringAfter (faults : List Fault) : Nat → Memory
  | 0 => (faltering faults).connect.service
  | n + 1 =>
    (Client.putItem (falteringAfter faults n) "new" (.ofMigrated emil 10) true).2

def evenPolicy : Policy Float := ⟨3, 1, 1, none, 0.5⟩

def briefFaults : List Fault :=
  [.refused (refusalOf "ServiceUnavailable" 503), .link .readTimeout "http://db"]

def briefFailures : List Failure := briefFaults.map (Fault.failure "PutItem")

theorem brief_outage : Outage "new" (fun _ => .ofMigrated emil 10) briefFailures
    (falteringAfter briefFaults) where
  fails
    | 0, _, rfl => rfl
    | 1, _, rfl => rfl
  ends := rfl

def migrateFaltering (faults : List Fault) : Single (Nat × Session) :=
  Migration.migrate false evenPolicy (Session.clocked fun _ => 10) (fun _ => 0.25)
    (0, ⟨faltering faults, []⟩) emil

theorem brief_outage_weathered : (∀ failure ∈ briefFailures, ServerSide failure) ∧
    briefFailures.length < evenPolicy.maxAttempts ∧
    (migrateFaltering briefFaults).outcome = .ok true ∧
    (migrateFaltering briefFaults).tally = ⟨0, 1, 0⟩ := by
  have server : ∀ failure ∈ briefFailures, ServerSide failure := by
    rintro failure (_ | ⟨_, _ | ⟨_, ⟨⟩⟩⟩)
    · exact ⟨503, rfl, by decide⟩
    · rfl
  have short : briefFailures.length < evenPolicy.maxAttempts := by decide
  have computes : evenPolicy.Computes := Policy.computes_of_plain (by decide +kernel)
  have weathered : Weathered briefFailures (migrateFaltering briefFaults) :=
    server_failures_retried computes short server brief_outage rfl (fun _ _ => rfl)
      (fun _ _ => by decide) rfl [] fun _ => 0.25
  have known : ∀ failure ∈ briefFailures, passes failure = true := by decide +kernel
  exact ⟨server, short, weathered.written_iff.mpr known, (weathered.written known).1⟩

def unlistedFaults : List Fault := [.refused (refusalOf "InternalFailure" 500)]

/-- A single failure of the service, which the next write would not meet, is not waited for if its
code is not on the list. The record is abandoned. -/
theorem unlisted_failure_given_up :
    ServerSide (.service (refusalOf "InternalFailure" 500) "PutItem") ∧
    1 < evenPolicy.maxAttempts ∧
    Outage "new" (fun _ => .ofMigrated emil 10)
      [.service (refusalOf "InternalFailure" 500) "PutItem"] (falteringAfter unlistedFaults) ∧
    (faltering unlistedFaults).nowSeconds = .ok 10 ∧ (10 : Int) < emil.expiresAt ∧
    (migrateFaltering unlistedFaults).outcome = .ok false ∧
    (migrateFaltering unlistedFaults).tally = ⟨0, 0, 1⟩ := by
  refine ⟨⟨500, rfl, by decide⟩, by decide, ⟨?_, rfl⟩, rfl, by decide, rfl, rfl⟩
  rintro (_ | _) failure ⟨⟩
  rfl

end Rekey.Service
