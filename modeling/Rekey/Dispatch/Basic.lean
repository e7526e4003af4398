import Rekey.Dispatch.Slot
/-! # Dispatching windows

Windows are pulled from a source and delivered record by record. At most `cap` windows are in
flight; a window is in flight from when it is pulled until its slot is given back. A slot is taken
before each pull, so a pull that waits on the source holds one too.

The consumer asks for one record at a time. A request that needs a new window fails at once when
pulling has failed by then; a request that is already waiting is first given the windows pulled. -/
namespace Rekey.Dispatch

variable {α : Type}

/-- A puller that is pulling holds a slot and waits on the source. -/
inductive Puller where
  | resting
  | seeking
  | pulling
  | ended
  | failed (failure : Failure)
  | stopped
  deriving Repr

/-- A consumer that waits has asked for a record and needs a new window for it. -/
inductive Consumer where
  | idle
  | waiting
  deriving DecidableEq, Repr

inductive Status where
  | running
  | ended
  | failed (failure : Failure)
  | closed
  deriving Repr

/-- A delivered record and the number of its window, counted from zero in the order of pulling. -/
structure Delivery (α : Type) where
  record : α
  window : Nat
  deriving Repr

/-- The state of dispatching. `pulled` and `delivered` are newest first; `ready`, `current` and
`slots` are oldest first. A window's slot comes into being when the consumer reaches the window. -/
structure State (α : Type) where
  cap : Nat
  free : Nat
  inFlight : Nat
  peak : Nat
  puller : Puller
  pulled : List (List α)
  ready : List (List α)
  current : List α
  slots : List Slot
  delivered : List (Delivery α)
  consumer : Consumer
  status : Status
  deriving Repr

def start (cap : Nat) : State α :=
  ⟨cap, cap, 0, 0, .resting, [], [], [], [], [], .idle, .running⟩

/-- The waiting consumer learns that no window is left: by `surrender` that pulling has failed, by
`conclude` that the source has ended. A record is marked done by the number of its delivery. -/
inductive Event (α : Type) where
  | request
  | begin
  | surrender
  | conclude
  | acquire
  | arrive (window : List α)
  | sourceEnd
  | sourceFail (failure : Failure)
  | done (index : Nat)
  | close
  deriving Repr

def Puller.isLive : Puller → Bool
  | resting | seeking | pulling => true
  | ended | failed _ | stopped => false

namespace State

def isRunning (s : State α) : Bool :=
  match s.status with
  | .running => true
  | _ => false

def isPulling (s : State α) : Bool :=
  match s.puller with
  | .pulling => true
  | _ => false

def isSeeking (s : State α) : Bool :=
  match s.puller with
  | .seeking => true
  | _ => false

def begun (s : State α) : Nat := s.slots.length

def shut (s : State α) (status : Status) : State α :=
  { s with
    status
    consumer := .idle
    puller := if s.puller.isLive then .stopped else s.puller }

def release (s : State α) : State α :=
  { s with inFlight := s.inFlight - 1, free := s.free + 1 }

def await (s : State α) : State α :=
  match s.puller with
  | .failed failure => s.shut (.failed failure)
  | .resting => { s with consumer := .waiting, puller := .seeking }
  | _ => { s with consumer := .waiting }

/-- Delivers the first record of `current`, which belongs to the window begun last. -/
def deliver (s : State α) : State α :=
  match s.current with
  | [] => s
  | record :: current =>
    { s with current, delivered := ⟨record, s.begun - 1⟩ :: s.delivered, consumer := .idle }

def begin (s : State α) : State α :=
  match s.ready with
  | [] => s
  | window :: ready =>
    let s := { s with ready, current := window, slots := s.slots ++ [Slot.opened window.length] }
    if window.isEmpty then s.release.await else s.deliver

def arrive (s : State α) (window : List α) : State α :=
  { s with
    puller := .seeking
    inFlight := s.inFlight + 1
    peak := max s.peak (s.inFlight + 1)
    pulled := window :: s.pulled
    ready := s.ready ++ [window] }

def delivery? (s : State α) (index : Nat) : Option (Delivery α) :=
  if index < s.delivered.length then s.delivered[s.delivered.length - 1 - index]? else none

def resolve (s : State α) (window : Nat) : Except Failure (State α) :=
  match s.slots[window]? with
  | none => .ok s
  | some slot =>
    slot.recordDone.map fun slot' =>
      let s := { s with slots := s.slots.set window slot' }
      if slot.released < slot'.released then s.release else s

def done (s : State α) (index : Nat) : Except Failure (State α) :=
  match s.delivery? index with
  | none => .ok s
  | some d => s.resolve d.window

def Enabled (s : State α) : Event α → Prop
  | .request => s.isRunning = true ∧ s.consumer = .idle
  | .begin => s.isRunning = true ∧ s.consumer = .waiting ∧ s.ready.isEmpty = false
  | .surrender =>
    s.isRunning = true ∧ s.consumer = .waiting ∧ s.ready.isEmpty = true ∧
      (match s.puller with | .failed _ => True | _ => False)
  | .conclude =>
    s.isRunning = true ∧ s.consumer = .waiting ∧ s.ready.isEmpty = true ∧
      (match s.puller with | .ended => True | _ => False)
  | .acquire => s.isSeeking = true ∧ 0 < s.free
  | .arrive _ | .sourceEnd | .sourceFail _ => s.isPulling = true
  | .done index => index < s.delivered.length
  | .close => s.isRunning = true ∧ s.consumer = .idle

instance (s : State α) (e : Event α) : Decidable (s.Enabled e) := by
  cases e <;> unfold Enabled
  case surrender => cases s.puller <;> infer_instance
  case conclude => cases s.puller <;> infer_instance
  all_goals infer_instance

/-- The state after an event. A mark too many changes nothing. -/
def next (s : State α) : Event α → State α
  | .request => if s.current.isEmpty then s.await else s.deliver
  | .begin => s.begin
  | .surrender => s.await
  | .conclude => s.shut .ended
  | .acquire => { s with free := s.free - 1, puller := .pulling }
  | .arrive window => s.arrive window
  | .sourceEnd => { s with free := s.free + 1, puller := .ended }
  | .sourceFail failure => { s with free := s.free + 1, puller := .failed failure }
  | .done index => match s.done index with
    | .ok t => t
    | .error _ => s
  | .close => s.shut .closed

def advance (s : State α) (e : Event α) : State α := if s.Enabled e then s.next e else s

end State

inductive Step : State α → Event α → State α → Prop where
  | intro {s : State α} {e : Event α} (enabled : s.Enabled e) : Step s e (s.next e)

def checkCap (cap : Int) : Except Failure Nat :=
  if cap < 1 then .error (.invalid "max_windows_in_flight" (.int cap) "must be >= 1")
  else .ok cap.toNat

def standardCap : Nat := 2

end Rekey.Dispatch
