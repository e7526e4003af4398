import Rekey.Proofs.Decimal.Truncation
import Rekey.Proofs.Service.Faulty
import Rekey.Proofs.Trace

/-! # Migrations one after another

However many migrations are called for one after another, each at its own time, the record of a key
is written by at most one of them and is what is read under the key from then on. If the clock does not
go backwards, a record that was answered for, written or not, is not written later. -/
namespace Rekey.Service

/-- A migration that is called for at some reading of the clock. -/
structure Call where
  time : Float
  record : Record

section Calls
variable {μ : Type} {r start : Repository μ} {moves : List (Repository μ × Call)}
  {m : Repository μ × Call} {key : String}

def Repository.at (r : Repository μ) (time : Float) : Repository μ := { r with now := time }

def itemOf (m : Repository μ × Call) : Item :=
  .ofMigrated m.2.record (Decimal.truncate m.2.time)

theorem itemOf_sameKey_iff :
    (itemOf m).sameKey (.destinationKey key) = true ↔ m.2.record.key = key :=
  Item.ofMigrated_sameKey_iff

theorem nowSeconds_eq {now : Int} (clock : r.nowSeconds = .ok now) :
    r.now.isFinite = true ∧ now = Decimal.truncate r.now := by
  unfold Repository.nowSeconds at clock
  split at clock
  · cases clock
  · next number =>
    split at clock
    · cases clock
    · next bounded =>
      cases clock
      exact ⟨Decimal.isFinite_of_not number bounded, rfl⟩

/-- A clock that does not go backwards does not in whole seconds either. -/
theorem nowSeconds_mono {r' : Repository μ} {now now' : Int} (clock : r.nowSeconds = .ok now)
    (clock' : r'.nowSeconds = .ok now') (le : r.now ≤ r'.now) : now ≤ now' := by
  obtain ⟨finite, rfl⟩ := nowSeconds_eq clock
  obtain ⟨finite', rfl⟩ := nowSeconds_eq clock'
  exact Decimal.truncate_mono finite finite' le

variable [Client μ]

def Repository.called (r : Repository μ) (c : Call) : Except Failure Bool × Repository μ :=
  (r.at c.time).migrate c.record

inductive CallStep : Repository μ → Call → Repository μ → Prop where
  | intro {r : Repository μ} {c : Call} : CallStep r c (r.called c).2

/-- What a call of a history was answered. -/
def outcomeOf (m : Repository μ × Call) : Except Failure Bool := (m.1.called m.2).1

def hasWritten (m : Repository μ × Call) : Bool :=
  match outcomeOf m with
  | .ok written => written
  | .error _ => false

/-- The items that calls have written. -/
def additions (moves : List (Repository μ × Call)) : List Item :=
  (moves.filter hasWritten).map itemOf

/-- What calls one after another have done to the destination, and what they were answered. The
history has the last call first. -/
structure InTurn (items : μ → List Item) (start : Repository μ)
    (moves : List (Repository μ × Call)) (r : Repository μ) : Prop where
  contents : (items r.service).Perm (items start.service ++ additions moves)
  each : ∀ m ∈ moves, Contract items (m.1.at m.2.time) m.2.record (outcomeOf m) (m.1.called m.2).2
  once : moves.Pairwise fun later earlier => later.2.record.key = earlier.2.record.key →
    outcomeOf earlier = .ok true → outcomeOf later ≠ .ok true
  free : ∀ m ∈ moves, outcomeOf m = .ok true →
    occupied (items start.service) m.2.record.key = false
  read_written : ∀ m ∈ moves, outcomeOf m = .ok true → r.Readable m.2.record.key →
    (r.get m.2.record.key).1 = .ok (some m.2.record)
  read_kept : ∀ key, (∀ m ∈ moves, outcomeOf m = .ok true → m.2.record.key ≠ key) →
    start.Readable key → r.Readable key → (r.get key).1 = (start.get key).1
  settled : moves.Pairwise fun later earlier => earlier.2.time ≤ later.2.time →
    later.2.record.key = earlier.2.record.key →
    later.2.record.expiresAt ≤ earlier.2.record.expiresAt →
    ∀ written, outcomeOf earlier = .ok written → outcomeOf later ≠ .ok true

theorem hasWritten_iff : hasWritten m = true ↔ outcomeOf m = .ok true := by
  unfold hasWritten
  cases outcomeOf m <;> simp

theorem additions_cons (m : Repository μ × Call) (moves : List (Repository μ × Call)) :
    additions (m :: moves) =
      if hasWritten m = true then itemOf m :: additions moves else additions moves := by
  unfold additions
  rw [List.filter_cons]
  split <;> rfl

theorem mem_additions_iff {item : Item} :
    item ∈ additions moves ↔ ∃ m ∈ moves, outcomeOf m = .ok true ∧ itemOf m = item := by
  simp only [additions, List.mem_map, List.mem_filter, hasWritten_iff, and_assoc]

/-- What is known of the destination along a history. -/
structure Filled (sound : μ → Prop) (items : μ → List Item) (destination : String)
    (start : Repository μ) (moves : List (Repository μ × Call)) (r : Repository μ) : Prop where
  sound : sound r.service
  destined : r.destination = destination
  contents : (items r.service).Perm (items start.service ++ additions moves)

section Guarded
variable {sound : μ → Prop} {items : μ → List Item} {destination : String}

theorem Filled.contract (guarded : Guarded sound items destination)
    (h : Filled sound items destination start moves r) (c : Call) :
    Contract items (r.at c.time) c.record (outcomeOf (r, c)) (r.called c).2 :=
  guarded.contract (r := r.at c.time) h.sound h.destined c.record

theorem Filled.call (guarded : Guarded sound items destination)
    (h : Filled sound items destination start moves r) (c : Call) :
    Filled sound items destination start ((r, c) :: moves) (r.called c).2 := by
  have contract := h.contract guarded c
  obtain ⟨kept, destined⟩ :=
    guarded.kept (r := r.at c.time) h.sound h.destined (migrate_course (r.at c.time) c.record)
  refine ⟨kept, destined, ?_⟩
  rw [additions_cons]
  split
  · next written =>
    have told := hasWritten_iff.mp written
    obtain ⟨now, clock, -⟩ := contract.written_iff.mp told
    have perm := contract.gained told now clock
    obtain ⟨-, rfl⟩ := nowSeconds_eq clock
    refine perm.trans ((h.contents.append_right _).trans ?_)
    rw [List.append_assoc]
    exact (List.perm_append_singleton _ _).append_left _
  · next silent =>
    have same := contract.unchanged (mt hasWritten_iff.mpr silent)
    exact (List.Perm.of_eq same).trans h.contents

theorem trace_filled (guarded : Guarded sound items destination) (h : sound start.service)
    (destined : start.destination = destination) (trace : Trace CallStep start moves r) :
    Filled sound items destination start moves r := by
  refine trace.preserves (P := Filled sound items destination start)
    ⟨h, destined, by simp [additions]⟩ ?_
  rintro _ t c _ - filled ⟨⟩
  exact filled.call guarded c

theorem Filled.occupied_iff (h : Filled sound items destination start moves r) (key : String) :
    occupied (items r.service) key = true ↔ occupied (items start.service) key = true ∨
      ∃ m ∈ moves, outcomeOf m = .ok true ∧ m.2.record.key = key := by
  rw [occupied_perm h.contents.symm]
  unfold occupied
  rw [List.any_append, Bool.or_eq_true, List.any_eq_true (l := additions moves)]
  refine or_congr_right ?_
  constructor
  · rintro ⟨_, mem, same⟩
    obtain ⟨m, hm, told, rfl⟩ := mem_additions_iff.mp mem
    exact ⟨m, hm, told, itemOf_sameKey_iff.mp same⟩
  · rintro ⟨m, hm, told, same⟩
    exact ⟨itemOf m, mem_additions_iff.mpr ⟨m, hm, told, rfl⟩, itemOf_sameKey_iff.mpr same⟩

/-- A call that writes finds the place free. -/
theorem Filled.free (guarded : Guarded sound items destination)
    (h : Filled sound items destination start moves r) {c : Call}
    (told : outcomeOf (r, c) = .ok true) :
    occupied (items start.service) c.record.key = false ∧
      ∀ m ∈ moves, outcomeOf m = .ok true → m.2.record.key ≠ c.record.key := by
  obtain ⟨now, -, -, free, -⟩ := (h.contract guarded c).written_iff.mp told
  have free : occupied (items r.service) c.record.key = false := free
  rw [Bool.eq_false_iff, ne_eq, h.occupied_iff, not_or] at free
  exact ⟨Bool.eq_false_iff.mpr free.1, fun m mem earlier same => free.2 ⟨m, mem, earlier, same⟩⟩

/-- After a call that was answered, the record has expired or its place is taken. -/
theorem Filled.answered (guarded : Guarded sound items destination)
    (h : Filled sound items destination start moves r) {c : Call} {written : Bool}
    (told : outcomeOf (r, c) = .ok written) :
    (∃ now, (r.at c.time).nowSeconds = .ok now ∧ c.record.expiresAt ≤ now) ∨
      outcomeOf (r, c) = .ok true ∨ occupied (items r.service) c.record.key = true := by
  cases written with
  | true => exact .inr (.inl told)
  | false =>
    obtain ⟨now, clock, expired | ⟨-, taken, -⟩⟩ := (h.contract guarded c).passed_over_iff.mp told
    · exact .inl ⟨now, clock, expired⟩
    · exact .inr (.inr taken)

/-- What one call of a history was answered bears on the calls after it. -/
theorem Filled.settled (guarded : Guarded sound items destination)
    (h : Filled sound items destination start moves r) {c : Call} (mem : m ∈ moves)
    {before : List (Repository μ × Call)} (sub : before ⊆ moves)
    (filled : Filled sound items destination start before m.1)
    (le : m.2.time ≤ c.time) (same : c.record.key = m.2.record.key)
    (expiry : c.record.expiresAt ≤ m.2.record.expiresAt) {written : Bool}
    (told : outcomeOf m = .ok written) : outcomeOf (r, c) ≠ .ok true := by
  intro again
  obtain ⟨free, fresh⟩ := h.free guarded again
  rcases filled.answered (c := m.2) guarded told with ⟨now, clock, expired⟩ | wrote | taken
  · obtain ⟨now', clock', unexpired, -⟩ := (h.contract guarded c).written_iff.mp again
    have later := nowSeconds_mono clock clock' le
    have unexpired : now' < c.record.expiresAt := unexpired
    omega
  · exact fresh m mem wrote same.symm
  · rcases (filled.occupied_iff _).mp taken with present | ⟨x, hx, wrote, same'⟩
    · rw [same, present] at free
      cases free
    · exact fresh x (sub hx) wrote (same'.trans same.symm)

theorem pairwise_of_trace {R : Repository μ × Call → Repository μ × Call → Prop}
    (one : ∀ earlier t c, Trace CallStep start earlier t → ∀ m ∈ earlier, R (t, c) m)
    (trace : Trace CallStep start moves r) : moves.Pairwise R :=
  trace.preserves (P := fun moves _ => moves.Pairwise R) .nil
    fun earlier t c _ before pairwise _ => .cons (one earlier t c before) pairwise

theorem calls_in_turn (guarded : Guarded sound items destination) (h : sound start.service)
    (destined : start.destination = destination) (trace : Trace CallStep start moves r) :
    InTurn items start moves r := by
  have filled {moves t} (trace : Trace CallStep start moves t) :=
    trace_filled guarded h destined trace
  have past {moves t} (trace : Trace CallStep start moves t) (m) (mem : m ∈ moves) :
      ∃ before, before ⊆ moves ∧ Trace CallStep start before m.1 := by
    obtain ⟨later, before, rfl⟩ := List.append_of_mem mem
    exact ⟨before, fun x hx => List.mem_append_right _ (List.mem_cons_of_mem _ hx), trace.before.1⟩
  have keyed := guarded.keyed _ (filled trace).sound
  constructor
  case contents => exact (filled trace).contents
  case each =>
    intro m mem
    obtain ⟨before, -, earlier⟩ := past trace m mem
    exact (filled earlier).contract guarded m.2
  case once =>
    refine pairwise_of_trace (fun earlier t c before m mem same told again => ?_) trace
    exact ((filled before).free guarded again).2 m mem told same.symm
  case free =>
    intro m mem told
    obtain ⟨before, -, earlier⟩ := past trace m mem
    exact ((filled earlier).free (c := m.2) guarded told).1
  case read_written =>
    intro m mem told readable
    obtain ⟨before, -, earlier⟩ := past trace m mem
    obtain ⟨-, -, -, -, writable, -⟩ :=
      ((filled earlier).contract guarded m.2).written_iff.mp told
    have added : itemOf m ∈ items r.service :=
      (filled trace).contents.mem_iff.mpr
        (List.mem_append_right _ (mem_additions_iff.mpr ⟨m, mem, told, rfl⟩))
    rw [guarded.get_eq (filled trace).sound (filled trace).destined readable]
    exact recordAt_migrated keyed added writable
  case read_kept =>
    intro key others before after
    rw [guarded.get_eq (filled trace).sound (filled trace).destined after,
      guarded.get_eq h destined before]
    refine (recordAt_perm (filled trace).contents keyed key).symm.trans (recordAt_append ?_)
    intro item mem
    obtain ⟨m, hm, told, rfl⟩ := mem_additions_iff.mp mem
    exact ofMigrated_elsewhere (others m hm told)
  case settled =>
    refine pairwise_of_trace (fun earlier t c before m mem le same expiry written told => ?_) trace
    obtain ⟨first, sub, trace'⟩ := past before m mem
    exact (filled before).settled guarded mem sub (filled trace') le same expiry told

/-- Where nobody else writes to the destination, a migration keeps its contract, and migrations one
after another write the record of a key at most once. -/
theorem conditional_writes (guarded : Guarded sound items destination) (h : sound start.service)
    (destined : start.destination = destination) :
    (∀ record, Contract items start record (start.migrate record).1 (start.migrate record).2) ∧
      ∀ moves r, Trace CallStep start moves r → InTurn items start moves r :=
  ⟨guarded.contract h destined, fun _ _ trace => calls_in_turn guarded h destined trace⟩

end Guarded

end Calls

/-! ## Five calls in turn -/

def fay : Record := ⟨"fay", ⟨"hash", "salt"⟩, 20⟩

/-- A destination in which fay's item is, and whose first write is throttled. -/
def fewService : Memory :=
  { Memory.empty with
    tables := [("new", [.ofMigrated fay 1])]
    faults := [("put_item", [some (.refused (.ofCode "ThrottlingException" "slow down"))])] }

def fewStart : Repository := ⟨"old", "new", none, none, .none, 0, fewService, []⟩

/-- The last call comes first. The second call for emil is not throttled. -/
def fewCalls : List Call :=
  [⟨30, { emil with key := "gil" }⟩, ⟨12, fay⟩, ⟨11, { emil with secret := ⟨"other", "salt"⟩ }⟩,
    ⟨10, emil⟩, ⟨5, emil⟩]

def fewMoves : List (Repository × Call) :=
  Trace.replay (fun r c => (r.called c).2) fewStart fewCalls

def fewSecond : Repository × Call := ((fewStart.called ⟨5, emil⟩).2, ⟨10, emil⟩)

def fewEnd : Repository := Trace.reached (fun r c => (r.called c).2) fewStart fewCalls

theorem few_trace : Trace CallStep fewStart fewMoves fewEnd :=
  Trace.of_replays _ ⟨.intro, .intro, .intro, .intro, .intro, trivial⟩

theorem few_honest : Memory.Honest "new" fewService where
  faults entry mem fault named title := by
    obtain rfl := List.mem_singleton.mp mem
    cases List.mem_singleton.mp named
    simp [IsConditionFailed, Fault.failure, Response.ofCode, Response.code?, conditionFailed]
  keyFaults _ mem := by cases mem
  keyed _ := List.countP_le_length

theorem few_readable : fewEnd.Readable "emil" := by
  have answered : (Client.getItem fewEnd.connect.service fewEnd.destination
      (.destinationKey "emil")).1.isOk = true := by decide +kernel
  unfold Repository.Readable
  cases get : (Client.getItem fewEnd.connect.service fewEnd.destination
      (.destinationKey "emil")).1 with
  | ok item => exact ⟨item, rfl⟩
  | error failure =>
    rw [get] at answered
    cases answered

theorem few_calls_in_turn : Memory.Honest "new" fewService ∧
    fewMoves.map hasWritten = [false, false, false, true, false] ∧
    fewEnd.Readable "emil" ∧ (fewEnd.get "emil").1 = .ok (some emil) := by
  have written : fewMoves.map hasWritten = [false, false, false, true, false] := by decide +kernel
  have turn : InTurn (Memory.contents "new") fewStart fewMoves fewEnd :=
    (conditional_writes (Memory.guarded "new") few_honest rfl).2 _ _ few_trace
  have second : fewSecond ∈ fewMoves := .tail _ (.tail _ (.tail _ (.head _)))
  have told : outcomeOf fewSecond = .ok true := hasWritten_iff.mp (by decide +kernel)
  exact ⟨few_honest, written, few_readable, turn.read_written fewSecond second told few_readable⟩

end Rekey.Service
