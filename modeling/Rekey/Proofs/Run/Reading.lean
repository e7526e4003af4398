import Rekey.Run.Work
import Rekey.Proofs.Run.Accounting
import Rekey.Proofs.Service.Client

/-! # What the readers are told

Over a client without failures the readers are told, page by page, the records of the well-formed
legacy items of their segments: what a reader has read and what its scan has still to give are
together the records of its segment. -/
namespace Rekey.Run

open Counter (Tally)
open Service (Client Item Repository Reliable Serving Session Tells View)

section Steps
variable {config : Config} {baseline : Tally} {source : Nat → Stream Record} {s t : State}

theorem produced_of_step (h : Invariant config baseline source s)
    (ht : Invariant config baseline source t) {e : Event} (step : OrdinaryStep source s e t)
    (silent : ∀ segment answer, e ≠ .read segment answer) :
    t.scan.readers.map (·.produced) = s.scan.readers.map (·.produced) := by
  obtain ⟨step, ordinary⟩ := step
  have change := change_of_step step ordinary h.whole h.ready_nonempty
  obtain ⟨enabled, follows⟩ := step
  generalize s.next e = t at ht change
  cases change with
  | read => exact absurd rfl (silent _ _)
  | put => exact Scan.State.put_produced _ _
  | gather | fill | mark | fault => exact Scan.State.take_produced _
  | acquire | flush | exhaust | next | await | begin | conclude | assign | move | settle | finish =>
    rfl
  | lose _ _ status =>
    rcases ht.status with ⟨hs, -⟩ | ⟨_, hs, -⟩ <;> rw [status] at hs <;> cases hs

/-- The records inspected so far are some of those of the streams. -/
theorem Invariant.given_subperm (h : Invariant config baseline source s)
    (sound : ∀ i < config.segments, (source i).failure = none) :
    s.given.Subperm ((List.range config.segments).flatMap fun i => (source i).items) := by
  have healthy : ∀ failure, s.scan.status ≠ .failed failure := by
    intro failure hs
    obtain ⟨i, hi, cause, hcause, -⟩ := h.scan.failed failure hs
    rw [sound i hi] at hcause
    cases hcause
  have going : s.scan.status = .running ∨ s.scan.status = .ended := by
    have hopen := h.gathering.still_open
    cases hs : s.scan.status with
    | running => exact .inl rfl
    | ended => exact .inr rfl
    | failed failure => exact absurd hs (healthy failure)
    | closed => exact absurd hs hopen
  have hgiven : s.given.Sublist s.dispatch.pulled.reverse.flatten := by
    rw [← h.dispatch.records_eq, List.append_assoc]
    exact List.sublist_append_left _ _
  have hpulled : s.dispatch.pulled.reverse.flatten.Perm s.dispatch.pulled.flatten :=
    (List.reverse_perm _).flatten
  have hyielded : s.dispatch.pulled.flatten.Subperm (s.scan.yielded.map (·.2)) :=
    (h.gathering.gathered healthy).subperm_left.mp (List.sublist_append_left _ _).subperm
  exact hgiven.subperm.trans (hpulled.subperm.trans
    (hyielded.trans (h.scan.yielded_subperm (ordinary_of_sound sound) going)))

end Steps

def streams {μ : Type} (v : View μ) (segment : Nat) : Stream Record :=
  ⟨(v.rest segment none).filterMap Item.legacyRecord?, none⟩

/-- What a reader has read and what its scan has still to give are the records of its segment. -/
structure Reading {μ : Type} [Client μ] (v : View μ) (readers : List (Scan.Reader Record))
    (session : Session μ) : Prop where
  goesOn : ∀ i : Nat, v.CanGoOn i (session.position i)
  whole : ∀ (i : Nat) r, readers[i]? = some r →
    r.produced.reverse ++ v.left i (session.position i) = (streams v i).items

section Reading
variable {μ : Type} [Client μ] {v : View μ} {readers readers' : List (Scan.Reader Record)}
  {session session' : Session μ}

theorem start_reading (v : View μ) (segments capacity : Nat) (repository : Repository μ) :
    Reading v (Scan.start segments capacity).readers (.new repository) := by
  refine ⟨fun _ => trivial, fun i r hr => ?_⟩
  obtain rfl := List.eq_of_mem_replicate (List.mem_of_getElem? hr)
  rfl

theorem Reading.congr (h : Reading v readers session)
    (produced : readers'.map (·.produced) = readers.map (·.produced))
    (position : ∀ i : Nat, session'.position i = session.position i) :
    Reading v readers' session' := by
  refine ⟨fun i => by rw [position]; exact h.goesOn i, fun i r' hr' => ?_⟩
  have hget := congrArg (·[i]?) produced
  simp only [List.getElem?_map, hr', Option.map_some] at hget
  obtain ⟨r, hr, hproduced⟩ := Option.map_eq_some_iff.mp hget.symm
  rw [position, ← hproduced]
  exact h.whole i r hr

theorem Reading.goesOn_of_step (h : Reading v readers session) {i : Nat}
    (goes : v.CanGoOn i (session'.position i))
    (others : ∀ j : Nat, j ≠ i → session'.position j = session.position j) (j : Nat) :
    v.CanGoOn j (session'.position j) := by
  by_cases hj : j = i
  · exact hj ▸ goes
  · rw [others j hj]
    exact h.goesOn j

theorem Reading.page (h : Reading v readers session) {i : Nat}
    (goes : v.CanGoOn i (session'.position i))
    (tells : Tells (v.left i (session.position i)) (v.left i (session'.position i)) none)
    (others : ∀ j : Nat, j ≠ i → session'.position j = session.position j) :
    Reading v readers session' := by
  refine ⟨h.goesOn_of_step goes others, fun j r hr => ?_⟩
  by_cases hj : j = i
  · subst hj
    rw [← show _ = _ from tells]
    exact h.whole j r hr
  · rw [others j hj]
    exact h.whole j r hr

/-- What a reader is told is what its segment's stream has next. -/
theorem Reading.answer_eq (h : Reading v readers session) {i : Nat} {r : Scan.Reader Record}
    (hr : readers[i]? = some r) {answer : Answer Record}
    (tells : Tells (v.left i (session.position i)) (v.left i (session'.position i)) (some answer)) :
    answer = (streams v i).answer r.produced.length := by
  have hall := h.whole i r hr
  unfold Stream.answer
  rw [← hall, ← List.length_reverse]
  cases answer with
  | item record =>
    rw [show v.left i (session.position i) = record :: _ from tells]
    simp
  | exhausted =>
    rw [show v.left i (session.position i) = [] from tells.1]
    simp [streams]
  | failed failure => exact tells.elim

theorem Reading.told {scan : Scan.State Record} (h : Reading v scan.readers session) {i : Nat}
    {r : Scan.Reader Record} (hr : scan.readers[i]? = some r) {answer : Answer Record}
    (goes : v.CanGoOn i (session'.position i))
    (tells : Tells (v.left i (session.position i)) (v.left i (session'.position i)) (some answer))
    (others : ∀ j : Nat, j ≠ i → session'.position j = session.position j) :
    Reading v (scan.read i answer).readers session' := by
  have hall := h.whole i r hr
  refine ⟨h.goesOn_of_step goes others, fun j r' hr' => ?_⟩
  simp only [Scan.State.read, hr] at hr'
  rcases Scan.State.reader_of_set hr hr' with ⟨rfl, rfl⟩ | ⟨hj, hr'⟩
  · cases answer with
    | item record =>
      rw [show v.left j (session.position j) = record :: _ from tells] at hall
      simpa using hall
    | exhausted =>
      rw [show v.left j (session.position j) = [] from tells.1] at hall
      rw [show v.left j (session'.position j) = [] from tells.2]
      exact hall
    | failed failure => exact tells.elim
  · rw [others j hj]
    exact h.whole j r' hr'

end Reading

end Rekey.Run
