import Rekey.Proofs.Service.Pages
import Rekey.Proofs.TableName
import Rekey.Proofs.Trace

/-! # Which table names reach the service

The names of a repository have passed when it is made and stay the same whatever is done with it,
and no request names another table. -/
namespace Rekey.Service

open TableName (Chosen Environment IsLegal Passes Resolved)

/-- The table that a request is about. -/
def Request.table? : Request → Option String
  | createTable definition => some definition.name
  | wait table | deleteTable table | putItem table .. | getItem table _ | scan table .. =>
    some table
  | openClient .. | closeClient | getWaiter => none

namespace Repository

/-- What may be done with a repository. A scan goes on from any position. -/
inductive Operation where
  | createTables
  | deleteTables
  | putSource (record : Record)
  | migrate (record : Record)
  | get (key : String)
  | scan (segment total : Int) (position : Position)
  | close
  | clock (now : Float)

variable {μ : Type} [Client μ]

def after (r : Repository μ) : Operation → Repository μ
  | .createTables => r.createTables.2
  | .deleteTables => r.deleteTables.2
  | .putSource record => (r.putSource record).2
  | .migrate record => (r.migrate record).2
  | .get key => (r.get key).2
  | .scan segment total position => (r.advance segment total position).2.2
  | .close => r.close
  | .clock now => { r with now }

inductive OperationStep : Repository μ → Operation → Repository μ → Prop where
  | intro {r : Repository μ} {o : Operation} : OperationStep r o (r.after o)

end Repository

/-- A repository of these tables, over a service that is still sound. -/
structure Holding {μ : Type} (source destination : String) (sound : μ → Prop) (r : Repository μ) :
    Prop where
  source_eq : r.source = source
  destination_eq : r.destination = destination
  sound : sound r.service

theorem Holding.names {μ : Type} {source destination : String} {sound : μ → Prop}
    {r : Repository μ} (h : Holding source destination sound r) :
    r.source ∈ [source, destination] ∧ r.destination ∈ [source, destination] := by
  simp [h.source_eq, h.destination_eq]

/-- A repository is made of two names that have passed, or of none. -/
theorem create_cases {μ : Type} (address : Address) (env : Environment) (now : Float)
    (service : μ) :
    (∃ source destination, TableName.resolveSource address.source env = .ok source ∧
      TableName.resolveDestination address.destination env = .ok destination ∧
      Repository.create address env now service =
        .ok ⟨source, destination, address.region, address.endpoint, .none, now, service, []⟩) ∨
    ∃ failure, Repository.create address env now service = .error failure ∧
      (TableName.resolveSource address.source env = .error failure ∨
        TableName.resolveDestination address.destination env = .error failure) := by
  unfold Repository.create
  rcases TableName.resolveSource address.source env with failure | source
  · exact .inr ⟨failure, rfl, .inl rfl⟩
  · rcases TableName.resolveDestination address.destination env with failure | destination
    · exact .inr ⟨failure, rfl, .inr rfl⟩
    · exact .inl ⟨source, destination, rfl, rfl, rfl⟩

theorem Holding.eachOf {μ β : Type} {source destination : String} {sound : μ → Prop}
    {r : Repository μ} {step : Repository μ → β → Except Failure Unit × Repository μ}
    (h : Holding source destination sound r) (bs : List β)
    (each : ∀ r, Holding source destination sound r → ∀ b ∈ bs,
      Holding source destination sound (step r b).2) :
    Holding source destination sound (Repository.eachOf step r bs).2 := by
  induction bs generalizing r with
  | nil => exact h
  | cons b rest ih =>
    have first := each r h b (by simp)
    rw [Repository.eachOf]
    generalize step r b = outcome at first
    rcases outcome with ⟨failure | ⟨⟩, r'⟩
    · exact first
    · exact ih first fun r hr b mem => each r hr b (by simp [mem])

section
variable {μ : Type} [Client μ]

/-- A service keeps a property as long as it is asked for tables of these names only. -/
structure Heeds (names : List String) (sound : μ → Prop) : Prop where
  noted : ∀ m request, request.table? = none → sound m → sound (Client.note m request)
  created : ∀ m definition, definition.name ∈ names → sound m →
    sound (Client.createTable m definition).2
  waited : ∀ m, ∀ name ∈ names, sound m → sound (Client.waitFor m name).2
  deleted : ∀ m, ∀ name ∈ names, sound m → sound (Client.deleteTable m name).2
  put : ∀ m, ∀ name ∈ names, ∀ item onlyIfAbsent, sound m →
    sound (Client.putItem m name item onlyIfAbsent).2
  got : ∀ m, ∀ name ∈ names, ∀ key, sound m → sound (Client.getItem m name key).2
  scanned : ∀ m, ∀ name ∈ names, ∀ part startKey, sound m →
    sound (Client.scan m name part startKey).2

namespace Holding
variable {source destination : String} {sound : μ → Prop} {r : Repository μ}

theorem connect (h : Holding source destination sound r)
    (heeds : Heeds [source, destination] sound) : Holding source destination sound r.connect := by
  unfold Repository.connect
  split
  · exact h
  · exact ⟨h.source_eq, h.destination_eq, heeds.noted _ _ rfl h.sound⟩

theorem close (h : Holding source destination sound r)
    (heeds : Heeds [source, destination] sound) : Holding source destination sound r.close := by
  unfold Repository.close
  split
  · exact ⟨h.source_eq, h.destination_eq, heeds.noted _ _ rfl h.sound⟩
  · exact h

theorem createTable (h : Holding source destination sound r)
    (heeds : Heeds [source, destination] sound) {definition : KeySpace.Definition}
    (named : definition.name ∈ [source, destination]) :
    Holding source destination sound (r.createTable definition).2 := by
  have created := heeds.created r.service definition named h.sound
  unfold Repository.createTable
  generalize Client.createTable r.service definition = answer at created
  rcases answer with ⟨failure | ⟨⟩, m⟩
  · exact ⟨h.source_eq, h.destination_eq, created⟩
  · exact ⟨h.source_eq, h.destination_eq, heeds.waited m definition.name named created⟩

theorem deleteTable (h : Holding source destination sound r)
    (heeds : Heeds [source, destination] sound) {name : String}
    (named : name ∈ [source, destination]) :
    Holding source destination sound (r.deleteTable name).2 :=
  ⟨h.source_eq, h.destination_eq, heeds.deleted r.service name named h.sound⟩

theorem createTables (h : Holding source destination sound r)
    (heeds : Heeds [source, destination] sound) :
    Holding source destination sound r.createTables.2 := by
  refine (h.connect heeds).eachOf _ fun r hr definition mem => hr.createTable heeds ?_
  obtain ⟨source_mem, destination_mem⟩ := h.names
  rcases List.mem_pair.mp mem with rfl | rfl
  · exact source_mem
  · exact destination_mem

theorem deleteTables (h : Holding source destination sound r)
    (heeds : Heeds [source, destination] sound) :
    Holding source destination sound r.deleteTables.2 := by
  refine (h.connect heeds).eachOf _ fun r hr name mem => hr.deleteTable heeds ?_
  obtain ⟨source_mem, destination_mem⟩ := h.names
  rcases List.mem_pair.mp mem with rfl | rfl
  · exact source_mem
  · exact destination_mem

theorem putSource (h : Holding source destination sound r)
    (heeds : Heeds [source, destination] sound) (record : Record) :
    Holding source destination sound (r.putSource record).2 := by
  have connected := h.connect heeds
  unfold Repository.putSource
  dsimp only
  cases Item.refusal? record with
  | some failure => exact connected
  | none =>
    exact ⟨connected.source_eq, connected.destination_eq,
      heeds.put _ _ connected.names.1 _ _ connected.sound⟩

theorem migrate (h : Holding source destination sound r)
    (heeds : Heeds [source, destination] sound) (record : Record) :
    Holding source destination sound (r.migrate record).2 := by
  have connected := h.connect heeds
  unfold Repository.migrate
  cases r.nowSeconds with
  | error failure => exact h
  | ok now =>
    dsimp only
    by_cases expired : record.expiresAt ≤ now
    · rw [if_pos expired]
      exact h
    · rw [if_neg expired]
      cases Item.refusal? record with
      | some failure => exact connected
      | none =>
        have put := heeds.put _ _ connected.names.2 (.ofMigrated record now) true connected.sound
        dsimp only
        generalize Client.putItem r.connect.service r.connect.destination (.ofMigrated record now)
          true = answer at put
        rcases answer with ⟨failure | ⟨⟩, m⟩ <;>
          exact ⟨connected.source_eq, connected.destination_eq, put⟩

theorem get (h : Holding source destination sound r)
    (heeds : Heeds [source, destination] sound) (key : String) :
    Holding source destination sound (r.get key).2 := by
  have connected := h.connect heeds
  have got := heeds.got _ _ connected.names.2 (Item.destinationKey key) connected.sound
  unfold Repository.get
  dsimp only
  generalize Client.getItem r.connect.service r.connect.destination (Item.destinationKey key) =
    answer at got
  rcases answer with ⟨failure | item, m⟩ <;>
    exact ⟨connected.source_eq, connected.destination_eq, got⟩

theorem turnPage (h : Holding source destination sound r)
    (heeds : Heeds [source, destination] sound) (segment total : Int) (startKey : Option Value) :
    Holding source destination sound (r.turnPage segment total startKey).2.2 := by
  have scanned := heeds.scanned _ _ h.names.1 (if 1 < total then some (segment, total) else none)
    startKey h.sound
  unfold Repository.turnPage Repository.fetch Repository.answered
  dsimp only
  cases (Client.scan r.service r.source (if 1 < total then some (segment, total) else none)
    startKey).1 <;> exact ⟨h.source_eq, h.destination_eq, scanned⟩

theorem advance (h : Holding source destination sound r)
    (heeds : Heeds [source, destination] sound) (segment total : Int)
    (position : Repository.Position) :
    Holding source destination sound (r.advance segment total position).2.2 := by
  have noted (notices : List Notice) : Holding source destination sound { r with notices } :=
    ⟨h.source_eq, h.destination_eq, h.sound⟩
  unfold Repository.advance
  cases position with
  | unopened => exact (h.connect heeds).turnPage heeds segment total none
  | page page next =>
    rcases hf : Repository.firstRecord page r.notices with ⟨_ | ⟨record, rest⟩, notices⟩
    · cases next with
      | none =>
        simp only [hf]
        exact noted notices
      | some key =>
        simp only [hf]
        exact (noted notices).turnPage heeds segment total (some key)
    · simp only [hf]
      exact noted notices

theorem step (h : Holding source destination sound r)
    (heeds : Heeds [source, destination] sound) {o : Repository.Operation} {r' : Repository μ}
    (step : Repository.OperationStep r o r') : Holding source destination sound r' := by
  obtain ⟨⟩ := step
  cases o with
  | createTables => exact h.createTables heeds
  | deleteTables => exact h.deleteTables heeds
  | putSource record => exact h.putSource heeds record
  | migrate record => exact h.migrate heeds record
  | get key => exact h.get heeds key
  | scan segment total position => exact h.advance heeds segment total position
  | close => exact h.close heeds
  | clock => exact ⟨h.source_eq, h.destination_eq, h.sound⟩

theorem trace (h : Holding source destination sound r)
    (heeds : Heeds [source, destination] sound)
    {moves : List (Repository μ × Repository.Operation)} {r' : Repository μ}
    (trace : Trace Repository.OperationStep r moves r') : Holding source destination sound r' :=
  trace.preserves (P := fun _ r => Holding source destination sound r) h
    fun _ _ _ _ _ before one => before.step heeds one

end Holding

end

/-! ## Requests to tables in memory -/

/-- The requests that are about a table are about one of these. -/
def About (names : List String) (requests : List Request) : Prop :=
  ∀ request ∈ requests, ∀ table ∈ request.table?, table ∈ names

namespace Memory
variable {m : Memory} {names : List String}

theorem receive_about (h : About names m.log) (request : Request)
    (named : ∀ table ∈ request.table?, table ∈ names) : About names (m.receive request).2.log := by
  rw [m.receive_log]
  exact List.forall_mem_cons.mpr ⟨named, h⟩

theorem named_of_mem {name : String} (mem : name ∈ names) : ∀ table ∈ some name, table ∈ names := by
  rintro _ ⟨⟩
  exact mem

theorem receiveKey_log (m : Memory) (request : Request) (item : Item) :
    (m.receiveKey request item).2.log = m.log := by
  unfold receiveKey
  rcases m.keyFaults.take item.partitionKey with ⟨_ | fault, faults⟩ <;> rfl

/-- Tables in memory log what they are asked for, and nothing else. -/
theorem heeds (names : List String) : Heeds names fun m : Memory => About names m.log where
  noted m request unnamed h := by
    refine List.forall_mem_cons.mpr ⟨?_, h⟩
    rw [unnamed]
    exact nofun
  created m definition named h := by
    have received := receive_about h (.createTable definition) (named_of_mem named)
    show About names (m.createTable definition).2.log
    unfold createTable
    dsimp only
    generalize m.receive (.createTable definition) = answer at received
    rcases answer with ⟨failure | ⟨⟩, m'⟩
    · exact received
    · dsimp only
      split <;> exact received
  waited m name named h := by
    have noted : About names (m.note .getWaiter).log := List.forall_mem_cons.mpr ⟨nofun, h⟩
    exact receive_about noted (.wait name) (named_of_mem named)
  deleted m name named h := by
    have received := receive_about h (.deleteTable name) (named_of_mem named)
    show About names (m.deleteTable name).2.log
    unfold deleteTable
    dsimp only
    generalize m.receive (.deleteTable name) = answer at received
    rcases answer with ⟨failure | ⟨⟩, m'⟩
    · exact received
    · dsimp only
      split <;> exact received
  put m name named item onlyIfAbsent h := by
    have received := receive_about h (.putItem name item onlyIfAbsent) (named_of_mem named)
    show About names (m.putItem name item onlyIfAbsent).2.log
    unfold putItem
    dsimp only
    generalize m.receive (.putItem name item onlyIfAbsent) = answer at received
    rcases answer with ⟨failure | ⟨⟩, m'⟩
    · exact received
    have kept : About names (m'.receiveKey (.putItem name item onlyIfAbsent) item).2.log := by
      rw [receiveKey_log]
      exact received
    dsimp only
    generalize m'.receiveKey (.putItem name item onlyIfAbsent) item = answer at kept
    rcases answer with ⟨failure | ⟨⟩, m''⟩
    · exact kept
    · dsimp only
      cases m''.table? name with
      | none => exact kept
      | some items =>
        dsimp only
        split <;> exact kept
  got m name named key h := by
    have received := receive_about h (.getItem name key) (named_of_mem named)
    show About names (m.getItem name key).2.log
    unfold getItem
    dsimp only
    generalize m.receive (.getItem name key) = answer at received
    rcases answer with ⟨failure | ⟨⟩, m'⟩
    · exact received
    · dsimp only
      cases m'.table? name <;> exact received
  scanned m name named part startKey h := by
    have received := receive_about h (.scan name part startKey) (named_of_mem named)
    have logged := Memory.logsScans m name part startKey
    show About names (m.scan name part startKey).2.log
    rw [receive_log] at received
    rwa [show (m.scan name part startKey).2.log = _ from logged]

end Memory

/-! ## Names of a repository -/

/-- The names of a repository that was made for an address: each was chosen, and has passed. -/
structure Named {μ : Type} (address : Address) (env : Environment) (r : Repository μ) : Prop where
  source : Passes r.source ∧ Chosen
    [address.source, env.lookup TableName.sourceVariable, some TableName.defaultSource] r.source
  destination : Passes r.destination ∧ Chosen
    [address.destination, env.lookup TableName.destinationVariable,
      some TableName.defaultDestination] r.destination

section Law
variable {μ : Type} [Client μ]

theorem names_checked_and_kept (address : Address) (env : Environment) (now : Float)
    (service : μ) :
    (∀ name, TableName.validate name = .ok () ↔ Passes name) ∧
    (∀ name, IsLegal name ↔ Passes name ∧ '\n' ∉ name.toList) ∧
    (∀ explicit, Resolved
      [explicit, env.lookup TableName.sourceVariable, some TableName.defaultSource]
      (TableName.resolveSource explicit env)) ∧
    (∀ explicit, Resolved
      [explicit, env.lookup TableName.destinationVariable, some TableName.defaultDestination]
      (TableName.resolveDestination explicit env)) ∧
    (∀ failure, Repository.create address env now service = .error failure →
      TableName.resolveSource address.source env = .error failure ∨
        TableName.resolveDestination address.destination env = .error failure) ∧
    ∀ r, Repository.create address env now service = .ok r →
      ∀ moves r', Trace Repository.OperationStep r moves r' →
        Named address env r' ∧ r'.source = r.source ∧ r'.destination = r.destination ∧
        ∀ sound, Heeds [r.source, r.destination] sound → sound service → sound r'.service := by
  refine ⟨fun _ => TableName.validate_eq_ok_iff, fun _ => TableName.isLegal_iff,
    fun explicit => TableName.resolveSource_resolved explicit env,
    fun explicit => TableName.resolveDestination_resolved explicit env, ?_, ?_⟩
  · intro failure failed
    rcases create_cases address env now service with
      ⟨source, destination, -, -, made⟩ | ⟨failure', made, cause⟩
    · rw [made] at failed
      cases failed
    · rw [made] at failed
      cases failed
      exact cause
  · intro r created moves r' trace
    rcases create_cases address env now service with
      ⟨source, destination, hsource, hdestination, made⟩ | ⟨failure, made, -⟩
    · rw [made] at created
      cases created
      have kept : Holding source destination (fun _ => True) r' :=
        Holding.trace ⟨rfl, rfl, trivial⟩ (by constructor <;> intros <;> trivial) trace
      obtain ⟨source_eq, destination_eq, -⟩ := kept
      have source_of := (TableName.resolveSource_resolved address.source env).of_ok hsource
      have destination_of :=
        (TableName.resolveDestination_resolved address.destination env).of_ok hdestination
      refine ⟨⟨?_, ?_⟩, source_eq, destination_eq, fun sound heeds start => ?_⟩
      · rw [source_eq]
        exact source_of.symm
      · rw [destination_eq]
        exact destination_of.symm
      · exact (Holding.trace ⟨rfl, rfl, start⟩ heeds trace).sound
    · rw [made] at created
      cases created

end Law

def plainAddress : Address := ⟨some "", none, none, none⟩

def plainEnvironment : Environment := [(TableName.sourceVariable, "recovery.passwords")]

def plainRepository : Repository :=
  ⟨"recovery.passwords", TableName.defaultDestination, none, none, .none, 10, Memory.empty, []⟩

def plainOperations : List Repository.Operation :=
  [.close, .get "gina", .migrate gina, .scan 0 1 .unopened, .createTables]

/-- Tables made, scanned, written to and read: every request is about one of the two. -/
theorem plain_names_kept :
    Repository.create plainAddress plainEnvironment 10 Memory.empty = .ok plainRepository ∧
    ∃ moves r', Trace Repository.OperationStep plainRepository moves r' ∧
      Named plainAddress plainEnvironment r' ∧ r'.service.log.length = 11 ∧
      About ["recovery.passwords", TableName.defaultDestination] r'.service.log := by
  have made : Repository.create plainAddress plainEnvironment 10 Memory.empty =
      .ok plainRepository := rfl
  have replays : Trace.Replays Repository.after Repository.OperationStep plainRepository
      plainOperations := ⟨.intro, .intro, .intro, .intro, .intro, trivial⟩
  have trace := Trace.of_replays Repository.after replays
  obtain ⟨-, -, -, -, -, kept⟩ :=
    names_checked_and_kept plainAddress plainEnvironment 10 Memory.empty
  obtain ⟨named, -, -, heeded⟩ := kept plainRepository made _ _ trace
  exact ⟨made, _, _, trace, named, by decide +kernel, heeded _ (Memory.heeds _) nofun⟩

end Rekey.Service
