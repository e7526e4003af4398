import Rekey.Proofs.Run.Sharing
import Rekey.Scripted.ListStore

/-! # Running again is safe

Any number of runs work on one store that writes a key only if it is absent. Whatever they are
told, in whatever order their calls are carried out and wherever they are broken off, the
destination is what it was with some keys added, each once. When all runs have returned they have
counted these keys, and a run over records that are all present counts and changes nothing. -/
namespace Rekey.Run

open Shared (replies writes)

variable {ι σ : Type}

/-- A store that writes a key only if it is absent, and says whether it has. `contents` is what its
destination holds, and `sound` what is true of its states. -/
structure WriteOnce (store : Store σ) (contents : σ → String → Option (Secret × Int))
    (sound : σ → Prop) : Prop where
  kept : ∀ s record, sound s → sound (store.migrate s record).2
  written : ∀ s record, sound s → (store.migrate s record).1 = .ok true →
    contents s record.key = none ∧ contents (store.migrate s record).2 =
      Function.update (contents s) record.key (some (record.secret, record.expiresAt))
  untouched : ∀ s record, sound s → (store.migrate s record).1 ≠ .ok true →
    contents (store.migrate s record).2 = contents s

/-- The store declines only what is there already. -/
def Declines (store : Store σ) (contents : σ → String → Option (Secret × Int))
    (sound : σ → Prop) : Prop :=
  ∀ s record, sound s → (store.migrate s record).1 = .ok false →
    (contents s record.key).isSome = true

/-- None of the calls carried out for the run `i` has raised a cancellation. -/
def Uncancelled (store : Store σ) (moves : List (Shared ι σ × Shared.Event ι)) (i : ι) : Prop :=
  ∀ x ∈ replies store moves, x.1 = i → x.2.isOrdinary = true

/-- The destination holds what it held in `initial` and what has been written since. -/
structure Written (contents : σ → String → Option (Secret × Int)) (initial : σ)
    (written : List (ι × Reply)) (s : σ) : Prop where
  once : (written.map (·.2.record.key)).Nodup
  fresh : ∀ x ∈ written, contents initial x.2.record.key = none
  stored : ∀ x ∈ written,
    contents s x.2.record.key = some (x.2.record.secret, x.2.record.expiresAt)
  others : ∀ key, key ∉ written.map (·.2.record.key) → contents s key = contents initial key

/-- What runs on one store come to that reach `v` from their beginnings by `before`, and then `w` by
`after`. -/
structure RerunSafe [DecidableEq ι] (store : Store σ)
    (contents : σ → String → Option (Secret × Int)) (sound : σ → Prop) (plans : ι → Plan)
    (initial : σ) (before : List (Shared ι σ × Shared.Event ι)) (v : Shared ι σ)
    (after : List (Shared ι σ × Shared.Event ι)) (w : Shared ι σ) : Prop where
  kept : ∀ key entry, contents v.world key = some entry → contents w.world key = some entry
  sourced : ∀ key entry, contents w.world key = some entry → contents initial key = some entry ∨
    ∃ i record, (plans i).Gives record ∧ record.key = key ∧
      entry = (record.secret, record.expiresAt)
  once : ((writes store (after ++ before)).map (·.2.record.key)).Nodup ∧
    ∀ x ∈ writes store (after ++ before), contents initial x.2.record.key = none
  total : ∀ runs : List ι, runs.Nodup → (∀ i, i ∈ runs) →
    (∀ i, ∃ summary, (w.passes i).run.status = .completed summary) →
    ∃ (added : List String) (gain : ι → Nat), added.Nodup ∧
      (∀ key, key ∈ added ↔ contents initial key = none ∧ contents w.world key ≠ none) ∧
      (∀ i, (w.passes i).run.tally.migrated = (plans i).baseline.migrated + gain i) ∧
      (runs.map gain).sum = added.length
  settled : Declines store contents sound → ∀ a b, Uncancelled store before a →
    Clean (plans a) (v.passes a).run → v.passes b = .start (plans b) →
    (∀ record, (plans b).Gives record → ∃ other, (plans a).Gives other ∧ other.key = record.key) →
    (w.passes b).run.tally.migrated = (plans b).baseline.migrated ∧
      ∀ m ∈ after, m.2.pass = b → contents (m.1.next store plans m.2).world = contents m.1.world

section World
variable {contents : σ → String → Option (Secret × Int)} {sound : σ → Prop} {store : Store σ}
  {initial s : σ} {written : List (ι × Reply)}

theorem Written.refl (contents : σ → String → Option (Secret × Int)) (s : σ) :
    Written contents s ([] : List (ι × Reply)) s := by
  constructor <;> simp

theorem Written.kept (h : Written contents initial written s) {key : String} {entry : Secret × Int}
    (present : contents initial key = some entry) : contents s key = some entry := by
  by_cases mem : key ∈ written.map (·.2.record.key)
  · obtain ⟨x, hx, rfl⟩ := List.mem_map.mp mem
    rw [h.fresh x hx] at present
    cases present
  · rw [h.others key mem, present]

theorem Written.present (h : Written contents initial written s) {key : String}
    (present : (contents initial key).isSome = true) : (contents s key).isSome = true := by
  obtain ⟨entry, hentry⟩ := Option.isSome_iff_exists.mp present
  rw [h.kept hentry]
  rfl

theorem Written.mem_iff (h : Written contents initial written s) (key : String) :
    key ∈ written.map (·.2.record.key) ↔ contents initial key = none ∧ contents s key ≠ none := by
  constructor
  · intro mem
    obtain ⟨x, hx, rfl⟩ := List.mem_map.mp mem
    exact ⟨h.fresh x hx, by simp [h.stored x hx]⟩
  · rintro ⟨absent, present⟩
    by_contra other
    rw [h.others key other] at present
    exact present absent

/-- A call that is carried out writes a key that was absent, or nothing. -/
theorem Written.migrate (h : Written contents initial written s)
    (once : WriteOnce store contents sound) (ok : sound s) (i : ι) {reply : Reply} {s' : σ}
    (carried : store.migrate s reply.record = (reply.outcome, s')) :
    Written contents initial ([(i, reply)].filter (wrote ·.2.outcome) ++ written) s' := by
  have houtcome : (store.migrate s reply.record).1 = reply.outcome := by rw [carried]
  obtain rfl : (store.migrate s reply.record).2 = s' := by rw [carried]
  by_cases wrote : wrote reply.outcome = true
  · obtain ⟨absent, update⟩ :=
      once.written s reply.record ok (houtcome.trans (wrote_iff.mp wrote))
    have unwritten : reply.record.key ∉ written.map (·.2.record.key) := by
      intro mem
      exact ((h.mem_iff _).mp mem).2 absent
    rw [List.filter_cons_of_pos (by exact wrote), List.filter_nil, List.singleton_append]
    constructor
    · exact List.nodup_cons.mpr ⟨unwritten, h.once⟩
    · intro x hx
      rcases List.mem_cons.mp hx with rfl | hx
      · rw [← h.others _ unwritten]
        exact absent
      · exact h.fresh x hx
    · intro x hx
      rw [update]
      rcases List.mem_cons.mp hx with rfl | hx
      · exact Function.update_self ..
      · have ne : x.2.record.key ≠ reply.record.key := fun same =>
          unwritten (List.mem_map.mpr ⟨x, hx, same⟩)
        rw [Function.update_of_ne ne]
        exact h.stored x hx
    · intro key other
      obtain ⟨ne, other⟩ := not_or.mp (mt List.mem_cons.mpr other)
      rw [update, Function.update_of_ne ne]
      exact h.others key other
  · have same := once.untouched s reply.record ok fun h => wrote (by rw [← houtcome, h]; rfl)
    rw [List.filter_cons_of_neg (by exact wrote), List.filter_nil, List.nil_append]
    exact ⟨h.once, h.fresh, by rw [same]; exact h.stored, by rw [same]; exact h.others⟩

end World

section Runs
variable [DecidableEq ι] {store : Store σ} {contents : σ → String → Option (Secret × Int)}
  {sound : σ → Prop} {plans : ι → Plan} {v w : Shared ι σ}
  {moves : List (Shared ι σ × Shared.Event ι)}

theorem trace_written (once : WriteOnce store contents sound) (ok : sound v.world)
    (trace : Trace (Shared.Step store plans) v moves w) :
    sound w.world ∧ Written contents v.world (writes store moves) w.world := by
  refine trace.preserves (P := fun moves w => sound w.world ∧
    Written contents v.world (writes store moves) w.world) ⟨ok, .refl contents _⟩ ?_
  rintro moves w e u - ⟨ok, h⟩ step
  unfold Shared.writes at h ⊢
  rw [Shared.replies_cons]
  rcases Shared.world_step step with ⟨none, same⟩ | ⟨reply, carried, migrated⟩
  · rw [none, same]
    exact ⟨ok, h⟩
  · have kept := once.kept w.world reply.record ok
    rw [migrated] at kept
    rw [carried, List.filter_append]
    exact ⟨kept, h.migrate once ok e.pass migrated⟩

/-- A key for which the store has not raised is present from then on. -/
theorem replied_present (once : WriteOnce store contents sound)
    (declines : Declines store contents sound) (ok : sound v.world)
    (trace : Trace (Shared.Step store plans) v moves w) : ∀ x ∈ replies store moves,
      ∀ b, x.2.outcome = .ok b → (contents w.world x.2.record.key).isSome = true := by
  refine trace.preserves (P := fun moves w => ∀ x ∈ replies store moves,
    ∀ b, x.2.outcome = .ok b → (contents w.world x.2.record.key).isSome = true)
    (by simp [replies]) ?_
  intro moves w e u earlier ih step x hx b hb
  have okw := (trace_written once ok earlier).1
  have later := (trace_written once okw (Trace.nil.snoc step)).2
  rw [Shared.replies_cons] at hx
  rcases List.mem_append.mp hx with hx | hx
  · obtain ⟨reply, carried, rfl⟩ := Option.map_eq_some_iff.mp (Option.mem_toList.mp hx)
    dsimp only at carried hb
    cases b with
    | true =>
      have hwritten : (e.pass, reply) ∈ writes store [(w, e)] := by
        simp [writes, replies, carried, hb, wrote]
      rw [later.stored _ hwritten]
      rfl
    | false =>
      have houtcome := Shared.reply_outcome step carried
      exact later.present (declines w.world reply.record okw (houtcome.trans hb))
  · exact later.present (ih x hx b hb)

theorem mem_carriedOut {i : ι} {reply : Reply} :
    reply ∈ carriedOut (Trace.seen (·.passes i) (Shared.label store i) moves) ↔
      (i, reply) ∈ replies store moves := by
  rw [Shared.carriedOut_seen]
  simp

variable {initial : σ} {before after : List (Shared ι σ × Shared.Event ι)}

theorem shared_pass (positive : ∀ i, (plans i).config.Positive)
    (trace : Trace (Shared.Step store plans) (.start plans initial) moves w) (i : ι) :
    (w.passes i).Invariant (plans i)
      (carriedOut (Trace.seen (·.passes i) (Shared.label store i) moves)) :=
  trace_pass (positive i) (Shared.pass_trace trace i)

theorem write_given (positive : ∀ i, (plans i).config.Positive)
    (trace : Trace (Shared.Step store plans) (.start plans initial) moves w) :
    ∀ x ∈ writes store moves, (plans x.1).Gives x.2.record := by
  intro x hx
  have mem := mem_carriedOut.mpr (List.mem_of_mem_filter hx)
  exact (shared_pass positive trace x.1).sourced x.2 mem

theorem sum_count {runs : List ι} (distinct : runs.Nodup) {l : List ι}
    (within : ∀ i ∈ l, i ∈ runs) : (runs.map (l.count ·)).sum = l.length := by
  induction runs generalizing l with
  | nil =>
    obtain rfl := List.eq_nil_iff_forall_not_mem.mpr fun i hi => by cases within i hi
    rfl
  | cons i runs ih =>
    obtain ⟨apart, distinct⟩ := List.nodup_cons.mp distinct
    have hrest : ∀ j ∈ l.filter (· != i), j ∈ runs := by
      intro j hj
      obtain ⟨mem, other⟩ := List.mem_filter.mp hj
      exact (List.mem_cons.mp (within j mem)).resolve_left (by simpa using other)
    have hsame : runs.map (l.count ·) = runs.map ((l.filter (· != i)).count ·) := by
      refine List.map_congr_left fun j hj => (List.count_filter ?_).symm
      have other : j ≠ i := fun same => apart (same ▸ hj)
      simpa using other
    rw [List.map_cons, List.sum_cons, hsame, ih distinct hrest, ← List.countP_eq_length_filter,
      List.length_eq_countP_add_countP (· == i), List.count]
    refine congrArg (List.countP (· == i) l + ·) (List.countP_congr fun j _ => ?_)
    simp

/-- When a run has returned it has counted what was written for it. -/
theorem shared_migrated (positive : ∀ i, (plans i).config.Positive)
    (trace : Trace (Shared.Step store plans) (.start plans initial) moves w) (i : ι)
    {summary : Summary} (completed : (w.passes i).run.status = .completed summary) :
    (w.passes i).run.tally.migrated =
      (plans i).baseline.migrated + ((writes store moves).map (·.1)).count i := by
  have h := shared_pass positive trace i
  have hcounted := h.counted
  rw [(h.completed completed).2.2, Shared.counted_eq, List.countP_nil, Nat.add_zero] at hcounted
  rw [h.migrated, hcounted]

/-- A run whose records are all present changes nothing. -/
theorem present_run_quiet (once : WriteOnce store contents sound)
    (positive : ∀ i, (plans i).config.Positive) (ok : sound initial)
    (first : Trace (Shared.Step store plans) (.start plans initial) before v) {b : ι}
    (present : ∀ record, (plans b).Gives record → (contents v.world record.key).isSome = true)
    (later : Trace (Shared.Step store plans) v after w) :
    ((writes store after).map (·.1)).count b = 0 ∧
      ∀ m ∈ after, m.2.pass = b →
        contents (m.1.next store plans m.2).world = contents m.1.world := by
  have okv := (trace_written once ok first).1
  refine later.preserves (P := fun after _ => ((writes store after).map (·.1)).count b = 0 ∧
    ∀ m ∈ after, m.2.pass = b → contents (m.1.next store plans m.2).world = contents m.1.world)
    (by simp [writes, replies]) ?_
  intro after w e u earlier ih step
  obtain ⟨uncounted, quiet⟩ := ih
  obtain ⟨okw, written⟩ := trace_written once okv earlier
  suffices own : e.pass = b → contents u.world = contents w.world ∧
      ∀ reply, w.reply? store e = some reply → wrote reply.outcome = false by
    obtain ⟨enabled⟩ := step
    refine ⟨?_, List.forall_mem_cons.mpr ⟨fun he => (own he).1, quiet⟩⟩
    refine List.count_eq_zero.mpr fun mem => List.count_eq_zero.mp uncounted ?_
    obtain ⟨x, hx, rfl⟩ := List.mem_map.mp mem
    obtain ⟨hx, wrote⟩ := List.mem_filter.mp hx
    rw [Shared.replies_cons] at hx
    rcases List.mem_append.mp hx with hx | hx
    · obtain ⟨reply, carried, rfl⟩ := Option.map_eq_some_iff.mp (Option.mem_toList.mp hx)
      rw [(own rfl).2 reply carried] at wrote
      cases wrote
    · exact List.mem_map_of_mem (List.mem_filter.mpr ⟨hx, wrote⟩)
  rintro rfl
  rcases Shared.world_step step with ⟨none, same⟩ | ⟨reply, carried, migrated⟩
  · rw [none, same]
    exact ⟨rfl, fun reply carried => by cases carried⟩
  · have houtcome := Shared.reply_outcome step carried
    have gives : (plans e.pass).Gives reply.record := by
      have h := shared_pass positive ((first.append earlier).snoc step) e.pass
      refine h.sourced reply (mem_carriedOut.mpr ?_)
      rw [Shared.replies_cons, carried]
      exact List.mem_cons_self
    have unwritten : reply.outcome ≠ .ok true := by
      intro hwrote
      have absent := (once.written w.world reply.record okw (houtcome.trans hwrote)).1
      have := written.present (present reply.record gives)
      rw [absent] at this
      cases this
    have same := once.untouched w.world reply.record okw (houtcome ▸ unwritten)
    rw [migrated] at same
    refine ⟨same, fun reply' carried' => ?_⟩
    obtain rfl := Option.some.inj (carried.symm.trans carried')
    cases hreply : reply.outcome with
    | error => rfl
    | ok b =>
      cases b with
      | true => exact absurd hreply unwritten
      | false => rfl

/-- After a clean run the records of its source are present. -/
theorem clean_present (once : WriteOnce store contents sound)
    (declines : Declines store contents sound) (positive : ∀ i, (plans i).config.Positive)
    (ok : sound initial) (first : Trace (Shared.Step store plans) (.start plans initial) before v)
    {a : ι} (uncancelled : Uncancelled store before a) (clean : Clean (plans a) (v.passes a).run)
    {record : Record} (gives : (plans a).Gives record) :
    (contents v.world record.key).isSome = true := by
  obtain ⟨reply, mem, rfl, b, answered⟩ := clean_answered (positive a) (Shared.pass_trace first a)
    (fun reply mem => uncancelled (a, reply) (mem_carriedOut.mp mem) rfl) clean gives
  exact replied_present once declines ok first _ (mem_carriedOut.mp mem) b answered

/-- However many runs work on a store that writes a key only if it is absent, running again is
safe. -/
theorem rerun_safe (once : WriteOnce store contents sound)
    (positive : ∀ i, (plans i).config.Positive) (ok : sound initial)
    (first : Trace (Shared.Step store plans) (.start plans initial) before v)
    (later : Trace (Shared.Step store plans) v after w) :
    RerunSafe store contents sound plans initial before v after w := by
  have whole := first.append later
  obtain ⟨okv, -⟩ := trace_written once ok first
  obtain ⟨-, since⟩ := trace_written once okv later
  obtain ⟨-, written⟩ := trace_written once ok whole
  constructor
  · exact fun key entry => since.kept
  · intro key entry present
    by_cases mem : key ∈ (writes store (after ++ before)).map (·.2.record.key)
    · obtain ⟨x, hx, rfl⟩ := List.mem_map.mp mem
      rw [written.stored x hx] at present
      exact .inr ⟨x.1, x.2.record, write_given positive whole x hx, rfl,
        (Option.some.inj present).symm⟩
    · rw [written.others key mem] at present
      exact .inl present
  · exact ⟨written.once, written.fresh⟩
  · intro runs distinct all returned
    refine ⟨(writes store (after ++ before)).map (·.2.record.key),
      fun i => ((writes store (after ++ before)).map (·.1)).count i, written.once, written.mem_iff,
      fun i => ?_, ?_⟩
    · obtain ⟨summary, completed⟩ := returned i
      exact shared_migrated positive whole i completed
    · rw [sum_count distinct fun i _ => all i, List.length_map, List.length_map]
  · intro declines a b uncancelled clean begun within
    have present : ∀ record, (plans b).Gives record →
        (contents v.world record.key).isSome = true := by
      intro record gives
      obtain ⟨other, gives, same⟩ := within record gives
      rw [← same]
      exact clean_present once declines positive ok first uncancelled clean gives
    obtain ⟨uncounted, quiet⟩ := present_run_quiet once positive ok first present later
    refine ⟨?_, quiet⟩
    have hv := (shared_pass positive first b).counted
    have hw := (shared_pass positive whole b).counted
    rw [begun, Shared.counted_eq] at hv
    rw [Shared.counted_eq, Shared.writes_append, List.map_append, List.count_append, uncounted,
      ← hv] at hw
    rw [(shared_pass positive whole b).migrated]
    have zero : (Pass.start (plans b)).run.migration.tally.migrated +
        (Pass.start (plans b)).replies.countP (wrote ·.outcome) = 0 := rfl
    omega

end Runs

/-! ## Runs over one record -/

open Scripted (ListStore Script)

def listContents (s : ListStore) (key : String) : Option (Secret × Int) :=
  (s.written.lookup key).join

def Raising : Script → Prop
  | .always _ => True
  | .each outcomes => ∀ outcome ∈ outcomes, ∃ failure, outcome = .error failure

/-- What is scripted raises, and all that is written has a content. -/
structure Faithful (s : ListStore) : Prop where
  scripts : ∀ script ∈ s.scripts, Raising script.2
  written : ∀ key, s.written.lookup key ≠ some none

section ListStores
variable {s : ListStore} {scripts : List (String × Script)}

theorem nextScripted_raising (h : ∀ script ∈ scripts, Raising script.2) (key : String) :
    (∀ outcome, (ListStore.nextScripted key scripts).1 = some outcome →
      ∃ failure, outcome = .error failure) ∧
      ∀ script ∈ (ListStore.nextScripted key scripts).2, Raising script.2 := by
  induction scripts with
  | nil => exact ⟨nofun, h⟩
  | cons script scripts ih =>
    obtain ⟨first, rest⟩ := List.forall_mem_cons.mp h
    obtain ⟨k, script⟩ := script
    unfold ListStore.nextScripted
    by_cases own : k = key
    · rw [if_pos own]
      cases script with
      | always failure => exact ⟨fun outcome raised => ⟨failure, by cases raised; rfl⟩, h⟩
      | each outcomes =>
        cases outcomes with
        | nil => exact ⟨nofun, h⟩
        | cons outcome outcomes =>
          obtain ⟨raised, later⟩ := List.forall_mem_cons.mp first
          exact ⟨fun o same => by cases same; exact raised, List.forall_mem_cons.mpr ⟨later, rest⟩⟩
    · rw [if_neg own]
      obtain ⟨raised, later⟩ := ih rest
      exact ⟨raised, List.forall_mem_cons.mpr ⟨first, later⟩⟩

/-- A call raises, finds its key present, or writes it. -/
theorem migrate_cases (faithful : Faithful s) (record : Record) :
    (∃ failure scripts, (∀ script ∈ scripts, Raising script.2) ∧ s.migrate record =
        (.error failure, { s with calls := record :: s.calls, scripts })) ∨
      ((s.written.lookup record.key).isSome = true ∧
        s.migrate record = (.ok false, { s with calls := record :: s.calls })) ∨
      (s.written.lookup record.key = none ∧ s.migrate record = (.ok true, { s with
        calls := record :: s.calls
        written := (record.key, some (record.secret, record.expiresAt)) :: s.written })) := by
  obtain ⟨raised, later⟩ := nextScripted_raising faithful.scripts record.key
  unfold ListStore.migrate
  rcases hnext : ListStore.nextScripted record.key s.scripts with ⟨_ | outcome, scripts⟩
  · simp only [hnext]
    by_cases present : (s.written.lookup record.key).isSome = true
    · exact .inr (.inl ⟨present, if_pos present⟩)
    · exact .inr (.inr ⟨Option.not_isSome_iff_eq_none.mp present, if_neg present⟩)
  · obtain ⟨failure, rfl⟩ := raised outcome (by rw [hnext])
    exact .inl ⟨failure, scripts, by rwa [hnext] at later, by simp only [hnext]⟩

theorem lookup_written (s : ListStore) (record : Record) (key : String) :
    ((record.key, some (record.secret, record.expiresAt)) :: s.written).lookup key =
      if key = record.key then some (some (record.secret, record.expiresAt))
      else s.written.lookup key := by
  rw [List.lookup_cons]
  by_cases same : key = record.key
  · simp [same]
  · simp [same, beq_eq_false_iff_ne.mpr same]

theorem list_writeOnce : WriteOnce ListStore.store listContents Faithful := by
  constructor
  · intro s record faithful
    dsimp only [ListStore.store]
    rcases migrate_cases faithful record with ⟨failure, scripts, raising, heq⟩ | ⟨-, heq⟩ | ⟨-, heq⟩
    · rw [heq]
      exact ⟨raising, faithful.written⟩
    · rw [heq]
      exact ⟨faithful.scripts, faithful.written⟩
    · rw [heq]
      refine ⟨faithful.scripts, fun key => ?_⟩
      dsimp only
      rw [lookup_written]
      split
      · simp
      · exact faithful.written key
  · intro s record faithful wrote
    dsimp only [ListStore.store] at wrote ⊢
    rcases migrate_cases faithful record with ⟨_, _, -, heq⟩ | ⟨-, heq⟩ | ⟨absent, heq⟩
    · rw [heq] at wrote; cases wrote
    · rw [heq] at wrote; cases wrote
    · rw [heq]
      refine ⟨by rw [listContents, absent]; rfl, funext fun key => ?_⟩
      dsimp only [listContents]
      rw [lookup_written, Function.update_apply]
      split <;> rfl
  · intro s record faithful declined
    dsimp only [ListStore.store] at declined ⊢
    rcases migrate_cases faithful record with ⟨_, _, -, heq⟩ | ⟨-, heq⟩ | ⟨-, heq⟩
    · rw [heq]; rfl
    · rw [heq]; rfl
    · rw [heq] at declined; exact absurd rfl declined

theorem list_declines : Declines ListStore.store listContents Faithful := by
  intro s record faithful declined
  dsimp only [ListStore.store] at declined
  rcases migrate_cases faithful record with ⟨_, _, -, heq⟩ | ⟨present, -⟩ | ⟨-, heq⟩
  · rw [heq] at declined; cases declined
  · obtain ⟨content, hcontent⟩ := Option.isSome_iff_exists.mp present
    rw [listContents, hcontent]
    cases content with
    | none => exact absurd hcontent (faithful.written record.key)
    | some => rfl
  · rw [heq] at declined; cases declined

end ListStores

def smallPlan : Plan := ⟨smallConfig, .bool false, .zero, 0, fun i => (smallSource i).answer⟩

def smallShared (scripts : List (String × Script)) : Shared (Fin 3) ListStore :=
  .start (fun _ => smallPlan) (.new [ada] none scripts [])

theorem small_faithful {scripts : List (String × Script)}
    (raising : ∀ script ∈ scripts, Raising script.2) : Faithful (smallShared scripts).world :=
  ⟨raising, by simp [smallShared, Shared.start, ListStore.new]⟩

def smallNext : Shared (Fin 3) ListStore → Shared.Event (Fin 3) → Shared (Fin 3) ListStore :=
  Shared.next ListStore.store fun _ => smallPlan

/-- The events of a run up to its call, the last of which comes first. -/
def leading (i : Fin 3) : List (Shared.Event (Fin 3)) :=
  [.inner i (.start 0), .inner i .assign, .inner i .begin, .inner i (.collect [ada]),
    .inner i (.put 0), .read i 0, .inner i .acquire, .inner i .request]

/-- The events of a run from the answer to its call on, the last of which comes first. -/
def closing (i : Fin 3) : List (Shared.Event (Fin 3)) :=
  [.inner i (.finish 0), .inner i .conclude, .inner i .exhaust, .inner i (.collect []),
    .inner i (.put 0), .read i 0, .inner i .acquire, .inner i .request, .answer i 0 0]

/-- A run that has the store to itself. -/
def undisturbed (i : Fin 3) : List (Shared.Event (Fin 3)) :=
  closing i ++ [.carryOut i 0] ++ leading i

/-- Two runs side by side. Both call for the record before either call is carried out. -/
def paired : List (Shared.Event (Fin 3)) :=
  closing 0 ++ closing 1 ++ [.carryOut 0 0, .carryOut 1 0] ++ leading 1 ++ leading 0

def Shared.Happen (w : Shared (Fin 3) ListStore) : List (Shared.Event (Fin 3)) → Prop
  | [] => True
  | e :: events =>
    (Trace.reached smallNext w events).Enabled (fun _ => smallPlan) e ∧ w.Happen events

instance Shared.decideHappen (w : Shared (Fin 3) ListStore) :
    (events : List (Shared.Event (Fin 3))) → Decidable (w.Happen events)
  | [] => .isTrue trivial
  | _ :: events => @instDecidableAnd _ _ _ (Shared.decideHappen w events)

theorem Shared.trace_of_happen {w : Shared (Fin 3) ListStore}
    {events : List (Shared.Event (Fin 3))} (h : w.Happen events) :
    Trace (Step ListStore.store fun _ => smallPlan) w (Trace.replay smallNext w events)
      (Trace.reached smallNext w events) := by
  refine Trace.of_replays _ ?_
  induction events with
  | nil => trivial
  | cons e events ih => exact ⟨.intro h.1, ih h.2⟩

def pairEnd : Shared (Fin 3) ListStore := Trace.reached smallNext (smallShared []) paired

def thirdEnd : Shared (Fin 3) ListStore := Trace.reached smallNext pairEnd (undisturbed 2)

theorem pair_happen : (smallShared []).Happen paired := by decide +kernel

theorem third_happens : pairEnd.Happen (undisturbed 2) := by decide +kernel

/-- The record is written once, by the run whose call is carried out first, and the third run, which
comes after clean ones, counts and changes nothing. -/
theorem third_run_safe : WriteOnce ListStore.store listContents Faithful ∧
    Declines ListStore.store listContents Faithful ∧ smallPlan.config.Positive ∧
    Faithful (smallShared []).world ∧
    RerunSafe ListStore.store listContents Faithful (fun _ => smallPlan) (smallShared []).world
      (Trace.replay smallNext (smallShared []) paired) pairEnd
      (Trace.replay smallNext pairEnd (undisturbed 2)) thirdEnd ∧
    Uncancelled ListStore.store (Trace.replay smallNext (smallShared []) paired) 0 ∧
    Clean smallPlan (pairEnd.passes 0).run ∧ pairEnd.passes 2 = .start smallPlan ∧
    (∀ i, ∃ summary, (thirdEnd.passes i).run.status = .completed summary) ∧
    (∀ i, (thirdEnd.passes i).run.tally.migrated = if i = 1 then 1 else 0) ∧
    listContents thirdEnd.world "ada" = some (ada.secret, ada.expiresAt) := by
  have faithful : Faithful (smallShared []).world := small_faithful (by simp)
  refine ⟨list_writeOnce, list_declines, small_positive, faithful,
    rerun_safe list_writeOnce (fun _ => small_positive) faithful
      (Shared.trace_of_happen pair_happen) (Shared.trace_of_happen third_happens),
    by unfold Uncancelled; decide +kernel,
    ⟨rfl, completed_of_matches (by decide +kernel), by decide +kernel⟩, rfl, fun i => ?_,
    by decide +kernel, by decide +kernel⟩
  apply completed_of_matches
  revert i
  decide +kernel

def cancellation : Failure := .plain .cancelled "stop"

def cancelling : List (String × Script) := [("ada", .each [.error cancellation])]

def passedOver : Shared (Fin 3) ListStore :=
  Trace.reached smallNext (smallShared cancelling) (undisturbed 0)

def madeUp : Shared (Fin 3) ListStore := Trace.reached smallNext passedOver (undisturbed 1)

/-- A cancellation that the store raises is not counted. The record is passed over, and a run that
follows writes it although the first one has returned and abandoned nothing. -/
theorem passed_over_written_later : WriteOnce ListStore.store listContents Faithful ∧
    Declines ListStore.store listContents Faithful ∧ smallPlan.config.Positive ∧
    Faithful (smallShared cancelling).world ∧
    (∃ before, Trace (Shared.Step ListStore.store fun _ => smallPlan) (smallShared cancelling)
      before passedOver) ∧
    Clean smallPlan (passedOver.passes 0).run ∧ passedOver.passes 1 = .start smallPlan ∧
    (∃ after, Trace (Shared.Step ListStore.store fun _ => smallPlan) passedOver after madeUp) ∧
    Clean smallPlan (madeUp.passes 1).run ∧
    (madeUp.passes 1).run.tally.migrated = smallPlan.baseline.migrated + 1 ∧
    listContents passedOver.world ≠ listContents madeUp.world := by
  have raising : ∀ script ∈ cancelling, Raising script.2 := by
    intro script mem
    obtain rfl := List.mem_singleton.mp mem
    exact fun outcome mem => ⟨cancellation, List.mem_singleton.mp mem⟩
  refine ⟨list_writeOnce, list_declines, small_positive, small_faithful raising,
    ⟨_, Shared.trace_of_happen (by decide +kernel)⟩,
    ⟨rfl, completed_of_matches (by decide +kernel), by decide +kernel⟩, rfl,
    ⟨_, Shared.trace_of_happen (by decide +kernel)⟩,
    ⟨rfl, completed_of_matches (by decide +kernel), by decide +kernel⟩, by decide +kernel, ?_⟩
  intro same
  have absent : listContents passedOver.world "ada" = none := by decide +kernel
  rw [same] at absent
  exact absurd absent (by decide +kernel)

end Rekey.Run
