import Rekey.Proofs.Run.Passes

/-! # Each run alone

Of the runs that share a store each takes its own steps, as if it had the store to itself. Only the
calls carried out change the store, and each of them is a call of one run. -/
namespace Rekey.Run

variable {ι σ : Type}

namespace Shared

/-- The reply to the call that an event carries out. -/
def reply? (store : Store σ) (w : Shared ι σ) : Event ι → Option Reply
  | .carryOut i number => ((w.passes i).call? number).map fun call =>
    ⟨number, call.record, (store.migrate w.world call.record).1⟩
  | _ => none

def replies (store : Store σ) (moves : List (Shared ι σ × Event ι)) : List (ι × Reply) :=
  moves.filterMap fun m => (m.1.reply? store m.2).map (m.2.pass, ·)

def writes (store : Store σ) (moves : List (Shared ι σ × Event ι)) : List (ι × Reply) :=
  (replies store moves).filter (wrote ·.2.outcome)

/-- What an event is to the run `i`. -/
def label [DecidableEq ι] (store : Store σ) (i : ι) (w : Shared ι σ) (e : Event ι) :
    Option (Option Reply) :=
  if e.pass = i then some (w.reply? store e) else none

/-- The event of its run that an event is. -/
def runEvent? (plans : ι → Plan) (w : Shared ι σ) : Event ι → Option Run.Event
  | .read i segment => ((w.passes i).answer? (plans i) segment).map (.read segment ·)
  | .carryOut .. => none
  | .answer i number fraction =>
    ((w.passes i).reply? number).map fun reply => .answer number reply.outcome fraction
  | .inner _ e => some e

/-- What has happened to the run `i`. -/
def runMoves [DecidableEq ι] (plans : ι → Plan) (i : ι) (moves : List (Shared ι σ × Event ι)) :
    List (State × Run.Event) :=
  Trace.seen (fun w => (w.passes i).run)
    (fun w e => if e.pass = i then w.runEvent? plans e else none) moves

section Histories
variable {store : Store σ} {moves more : List (Shared ι σ × Event ι)}

theorem replies_cons (m : Shared ι σ × Event ι) (moves : List (Shared ι σ × Event ι)) :
    replies store (m :: moves) =
      ((m.1.reply? store m.2).map (m.2.pass, ·)).toList ++ replies store moves := by
  unfold replies
  cases h : m.1.reply? store m.2 <;> simp [h]

theorem writes_append : writes store (more ++ moves) = writes store more ++ writes store moves := by
  unfold writes replies
  rw [List.filterMap_append, List.filter_append]

theorem reply?_eq_none {i : ι} {m : Shared ι σ × Event ι} (mem : m ∈ moves)
    (apart : ∀ x ∈ replies store moves, x.1 ≠ i) (own : m.2.pass = i) :
    m.1.reply? store m.2 = none := by
  cases hreply : m.1.reply? store m.2 with
  | none => rfl
  | some reply =>
    refine absurd own (apart (m.2.pass, reply) (List.mem_filterMap.mpr ⟨m, mem, ?_⟩))
    rw [hreply, Option.map_some]

end Histories

section Steps
variable [DecidableEq ι] {store : Store σ} {plans : ι → Plan} {v w u : Shared ι σ} {e : Event ι}
  {moves : List (Shared ι σ × Event ι)}

theorem put_pass (w : Shared ι σ) (i : ι) (p : Pass) : (w.put i p).passes i = p := if_pos rfl

theorem put_other (w : Shared ι σ) {i j : ι} (p : Pass) (other : i ≠ j) :
    (w.put i p).passes j = w.passes j := if_neg other.symm

theorem call?_eq_some {p : Pass} {number : Nat} {call : Call} (h : p.call? number = some call) :
    call ∈ p.calls ∧ call.number = number :=
  ⟨List.mem_of_find?_eq_some h, by simpa using List.find?_some h⟩

theorem reply?_eq_some {p : Pass} {number : Nat} {reply : Reply}
    (h : p.reply? number = some reply) : reply ∈ p.replies ∧ reply.number = number :=
  ⟨List.mem_of_find?_eq_some h, by simpa using List.find?_some h⟩

theorem told_of_answer? {plan : Plan} {p : Pass} {segment : Nat} {answer : Answer Record}
    (h : p.answer? plan segment = some answer) :
    (Run.Event.read segment answer).Told plan.answers p.run := by
  obtain ⟨r, hr, rfl⟩ := Option.map_eq_some_iff.mp h
  intro r' hr'
  rw [hr] at hr'
  cases hr'
  rfl

theorem told_of_isOwn {e : Run.Event} (own : e.isOwn = true)
    (answers : Nat → Nat → Answer Record) (s : State) : e.Told answers s := by
  cases e with
  | read => cases own
  | put | acquire | collect | flush | exhaust | request | begin | surrender | conclude | assign
  | start | answer | wake | finish | cancel => trivial

/-- The run that an event is one of. -/
theorem own_step (step : Step store plans w e u) :
    PassStep (plans e.pass) (w.passes e.pass) (w.reply? store e) (u.passes e.pass) := by
  obtain ⟨enabled⟩ := step
  cases e with
  | read i segment =>
    obtain ⟨answer, hanswer, enabled⟩ := (Option.any_eq_true _ _).mp enabled
    simp only [next, hanswer, Event.pass, put_pass]
    exact .move (e := .read segment _) (.intro (of_decide_eq_true enabled))
      (told_of_answer? hanswer) fun _ => rfl
  | carryOut i number =>
    obtain ⟨call, hcall⟩ := Option.isSome_iff_exists.mp enabled
    obtain ⟨mem, rfl⟩ := call?_eq_some hcall
    simp only [next, hcall, Event.pass, reply?, Option.map_some, put_pass]
    exact .carryOut mem rfl
  | answer i number fraction =>
    obtain ⟨reply, hreply, enabled⟩ := (Option.any_eq_true _ _).mp enabled
    obtain ⟨mem, rfl⟩ := reply?_eq_some hreply
    simp only [next, hreply, Event.pass, put_pass]
    exact .answer mem (.intro (of_decide_eq_true enabled))
  | inner i e =>
    obtain ⟨own, enabled⟩ := enabled
    simp only [next, Event.pass, put_pass]
    refine .move (.intro enabled) (told_of_isOwn own _ _) ?_
    cases e with
    | answer => cases own
    | read | put | acquire | collect | flush | exhaust | request | begin | surrender | conclude
    | assign | start | wake | finish | cancel => exact fun _ => rfl

theorem other_step (step : Step store plans w e u) {i : ι} (other : e.pass ≠ i) :
    u.passes i = w.passes i := by
  obtain ⟨-⟩ := step
  cases e with
  | inner j e => exact put_other w _ other
  | read j | carryOut j | answer j =>
    simp only [next]
    split
    · exact put_other w _ other
    · rfl

/-- Only a call that is carried out changes the store. -/
theorem world_step (step : Step store plans w e u) :
    (w.reply? store e = none ∧ u.world = w.world) ∨
      ∃ reply, w.reply? store e = some reply ∧
        store.migrate w.world reply.record = (reply.outcome, u.world) := by
  obtain ⟨enabled⟩ := step
  cases e with
  | carryOut i number =>
    obtain ⟨call, hcall⟩ := Option.isSome_iff_exists.mp enabled
    refine .inr ⟨⟨number, call.record, (store.migrate w.world call.record).1⟩, ?_, ?_⟩
    · simp only [reply?, hcall, Option.map_some]
    · simp only [next, hcall]
  | inner => exact .inl ⟨rfl, rfl⟩
  | read i | answer i =>
    refine .inl ⟨rfl, ?_⟩
    simp only [next]
    split <;> rfl

theorem world_kept (unanswered : w.reply? store e = none) :
    (w.next store plans e).world = w.world := by
  cases e with
  | carryOut i number =>
    have none : (w.passes i).call? number = none := by simpa [reply?] using unanswered
    simp only [next, none]
  | inner => rfl
  | read | answer =>
    simp only [next]
    split <;> rfl

/-- A store that has carried out no call is as it was. -/
theorem world_of_unanswered (trace : Trace (Step store plans) v moves w)
    (unanswered : ∀ m ∈ moves, m.1.reply? store m.2 = none) : w.world = v.world := by
  induction trace with
  | nil => rfl
  | snoc _ step ih =>
    obtain ⟨first, rest⟩ := List.forall_mem_cons.mp unanswered
    obtain ⟨-⟩ := step
    exact (world_kept first).trans (ih rest)

theorem reply_outcome (step : Step store plans w e u) {reply : Reply}
    (carried : w.reply? store e = some reply) :
    (store.migrate w.world reply.record).1 = reply.outcome := by
  rcases world_step step with ⟨none, -⟩ | ⟨reply', carried', migrated⟩
  · rw [none] at carried
    cases carried
  · obtain rfl := Option.some.inj (carried'.symm.trans carried)
    rw [migrated]

theorem pass_trace (trace : Trace (Step store plans) v moves w) (i : ι) :
    Trace (PassStep (plans i)) (v.passes i)
      (Trace.seen (·.passes i) (label store i) moves) (w.passes i) := by
  refine trace.component (·.passes i) (label store i) fun w e u step => ?_
  unfold label
  by_cases own : e.pass = i
  · subst own
    exact .inl ⟨_, if_pos rfl, own_step step⟩
  · exact .inr ⟨if_neg own, other_step step own⟩

/-- A run is told what its plan says, or it takes a step of its own. -/
theorem run_step (step : Step store plans w e u) :
    (∃ e', w.runEvent? plans e = some e' ∧
      FreeStep (w.passes e.pass).run e' (u.passes e.pass).run ∧
      e'.Told (plans e.pass).answers (w.passes e.pass).run) ∨
    (w.runEvent? plans e = none ∧ (u.passes e.pass).run = (w.passes e.pass).run) := by
  obtain ⟨enabled⟩ := step
  cases e with
  | read i segment =>
    obtain ⟨answer, hanswer, enabled⟩ := (Option.any_eq_true _ _).mp enabled
    simp only [next, hanswer, Event.pass, put_pass]
    exact .inl ⟨.read segment answer, by rw [runEvent?, hanswer, Option.map_some],
      .intro (of_decide_eq_true enabled), told_of_answer? hanswer⟩
  | carryOut i number =>
    obtain ⟨call, hcall⟩ := Option.isSome_iff_exists.mp enabled
    simp only [next, hcall, Event.pass, put_pass]
    exact .inr ⟨rfl, trivial⟩
  | answer i number fraction =>
    obtain ⟨reply, hreply, enabled⟩ := (Option.any_eq_true _ _).mp enabled
    simp only [next, hreply, Event.pass, put_pass]
    exact .inl ⟨.answer number reply.outcome fraction, by rw [runEvent?, hreply, Option.map_some],
      .intro (of_decide_eq_true enabled), trivial⟩
  | inner i e =>
    obtain ⟨own, enabled⟩ := enabled
    simp only [next, Event.pass, put_pass]
    exact .inl ⟨e, rfl, .intro enabled, told_of_isOwn own _ _⟩

theorem run_trace (trace : Trace (Step store plans) v moves w) (i : ι) :
    Trace (fun s e t => FreeStep s e t ∧ e.Told (plans i).answers s) (v.passes i).run
      (runMoves plans i moves) (w.passes i).run := by
  refine trace.component (fun w => (w.passes i).run) _ fun w e u step => ?_
  by_cases own : e.pass = i
  · subst own
    rw [if_pos rfl]
    exact run_step step
  · exact .inr ⟨if_neg own, congrArg Pass.run (other_step step own)⟩

theorem carriedOut_seen (i : ι) (moves : List (Shared ι σ × Event ι)) :
    carriedOut (Trace.seen (·.passes i) (label store i) moves) =
      ((replies store moves).filter (·.1 = i)).map (·.2) := by
  induction moves with
  | nil => rfl
  | cons m moves ih =>
    rw [replies_cons, List.filter_append, List.map_append, ← ih]
    unfold Trace.seen label
    by_cases own : m.2.pass = i
    · rw [List.filterMap_cons_some (b := (m.1.passes i, m.1.reply? store m.2)) (by simp [own]),
        carriedOut_cons]
      cases m.1.reply? store m.2 <;> simp [own]
    · rw [List.filterMap_cons_none (by simp [own])]
      cases m.1.reply? store m.2 <;> simp [own]

/-- What has been written for a run is what it has counted and will count. -/
theorem counted_eq (i : ι) (moves : List (Shared ι σ × Event ι)) :
    (carriedOut (Trace.seen (·.passes i) (label store i) moves)).countP (wrote ·.outcome) =
      ((writes store moves).map (·.1)).count i := by
  rw [carriedOut_seen, List.countP_map, List.countP_filter, List.count, List.countP_map, writes,
    List.countP_filter]
  refine List.countP_congr fun x _ => ?_
  simp [and_comm]

end Steps

end Shared

end Rekey.Run
