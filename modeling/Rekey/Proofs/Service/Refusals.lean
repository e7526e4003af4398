import Rekey.Service.Repository

/-! # How the refusal of a write is handled

A refusal of the write of a record says that the record is there already, that the write may succeed
later, or that something is wrong, and its code tells which. The code is looked up as though it were
always there: where it is missing, or is a value with parts, the lookup itself fails, and its failure
takes the place of the refusal. -/
namespace Rekey.Service

def conditionFailed : String := "ConditionalCheckFailedException"

/-- Whether a failure is the refusal of a write whose condition does not hold. -/
def IsConditionFailed : Failure → Prop
  | .service response _ => response.code? = some (.text conditionFailed)
  | _ => False

/-- What is told of a write that may succeed later. -/
def laterFailure (key code : String) : Failure :=
  .transient ("Write for " ++ key ++ " failed: " ++ code) (some code)

/-- What the migration of the record with a key comes to when its write is refused. -/
inductive Handling (key : String) (response : Response) (title : String) :
    Except Failure Bool → Prop where
  | passedOver : response.code? = some (.text conditionFailed) →
    Handling key response title (.ok false)
  | later {code : String} : response.code? = some (.text code) → code ∈ Response.transientCodes →
    Handling key response title
      (.error (.because (laterFailure key code) (.service response title)))
  | raised {code : Value} : response.code? = some code → code.compound? = none →
    (∀ text ∈ code.text?, text ∉ conditionFailed :: Response.transientCodes) →
    Handling key response title (.error (.service response title))
  | noEntry : response.error = none →
    Handling key response title
      (.error (.because (.missingEntry "Error") (.service response title)))
  | noCode {entry : ErrorEntry} : response.error = some entry → entry.code = none →
    Handling key response title
      (.error (.because (.missingEntry "Code") (.service response title)))
  | compound {code : Value} {called : String} : response.code? = some code →
    code.compound? = some called →
    Handling key response title
      (.error (.because (.unhashable called) (.service response title)))

/-- How a refused write is handled. The code of the refusal decides, if there is one that can be
looked up. If not, a failure that is none of the store takes the place of the refusal. -/
structure RefusalHandled (key : String) (response : Response) (title : String)
    (outcome : Except Failure Bool) : Prop where
  passed_over : outcome = .ok false ↔ response.code? = some (.text conditionFailed)
  later : ∀ failure, outcome = .error failure ∧ failure.isTransient = true ↔
    ∃ code ∈ Response.transientCodes, response.code? = some (.text code) ∧
      failure = .because (laterFailure key code) (.service response title)
  raised : outcome = .error (.service response title) ↔
    ∃ code, response.code? = some code ∧ code.compound? = none ∧
      ∀ text ∈ code.text?, text ∉ conditionFailed :: Response.transientCodes
  astray : ∀ failure, (outcome = .error failure ∧ failure.kind ≠ .service ∧
      failure.kind ≠ .transient) ↔
    (response.error = none ∧ failure = .because (.missingEntry "Error") (.service response title)) ∨
    (∃ entry, response.error = some entry ∧ entry.code = none ∧
      failure = .because (.missingEntry "Code") (.service response title)) ∨
    ∃ code called, response.code? = some code ∧ code.compound? = some called ∧
      failure = .because (.unhashable called) (.service response title)
  not_written : outcome ≠ .ok true

section Refusal
variable {key title : String} {response : Response}

theorem text?_eq_some_iff {v : Value} {s : String} : v.text? = some s ↔ v = .text s := by
  cases v <;> simp [Value.text?]

theorem Response.isTransient_iff {code : Value} (h : response.code? = some code) :
    response.isTransient = true ↔ ∃ text ∈ code.text?, text ∈ Response.transientCodes := by
  unfold Response.isTransient
  rw [h]
  cases code <;> simp [Value.text?]

/-- What comes of a refusal with a code. -/
theorem writeFailure_of_code {code : Value} (h : response.code? = some code) :
    Repository.writeFailure key (.service response title) =
      if code.text? = some conditionFailed then .ok false
      else match code.compound? with
        | some called => .error (.because (.unhashable called) (.service response title))
        | none =>
          if response.isTransient = true then
            .error (.because (.transient ("Write for " ++ key ++ " failed: " ++ code.plain)
              code.text?) (.service response title))
          else .error (.service response title) := by
  obtain ⟨_ | ⟨code', message⟩, metadata⟩ := response
  · cases h
  · obtain rfl : some code = code' := h.symm
    simp only [Repository.writeFailure, Repository.codeOf, Repository.mayPass, h, Option.bind_some,
      beq_iff_eq]
    cases code.compound? with
    | some called => rfl
    | none => cases Response.isTransient _ <;> rfl

theorem writeFailure_handling (key : String) (response : Response) (title : String) :
    Handling key response title (Repository.writeFailure key (.service response title)) := by
  cases hcode : response.code? with
  | none =>
    obtain ⟨_ | ⟨_ | code, message⟩, metadata⟩ := response
    · exact .noEntry rfl
    · exact .noCode rfl rfl
    · cases hcode
  | some code =>
    have transient_iff := Response.isTransient_iff hcode
    rw [writeFailure_of_code hcode]
    split
    · next failed =>
      obtain rfl := text?_eq_some_iff.mp failed
      exact .passedOver hcode
    · next other =>
      cases parts : code.compound? with
      | some called => exact .compound hcode parts
      | none =>
        dsimp only
        split
        · next transient =>
          obtain ⟨text, htext, known⟩ := transient_iff.mp transient
          obtain rfl := text?_eq_some_iff.mp htext
          exact .later hcode known
        · next lasting =>
          refine .raised hcode parts fun text htext listed => ?_
          rcases List.mem_cons.mp listed with rfl | known
          · exact other htext
          · exact lasting (transient_iff.mpr ⟨text, htext, known⟩)

/-- What a refusal says decides what comes of it. -/
theorem Handling.outcome_eq {outcome : Except Failure Bool}
    (h : Handling key response title outcome) :
    outcome = Repository.writeFailure key (.service response title) := by
  cases h with
  | passedOver hcode =>
    rw [writeFailure_of_code hcode]
    exact (if_pos rfl).symm
  | @later code hcode known =>
    have other : (Value.text code).text? ≠ some conditionFailed := by
      rintro ⟨⟩
      revert known
      decide
    rw [writeFailure_of_code hcode, if_neg other]
    exact (if_pos ((Response.isTransient_iff hcode).mpr ⟨code, rfl, known⟩)).symm
  | @raised code hcode whole other =>
    have lasting : ¬ response.isTransient = true := by
      rw [Response.isTransient_iff hcode]
      rintro ⟨text, htext, known⟩
      exact other text htext (List.mem_cons_of_mem _ known)
    have unmet : code.text? ≠ some conditionFailed :=
      fun htext => other _ htext List.mem_cons_self
    rw [writeFailure_of_code hcode, if_neg unmet, whole]
    exact (if_neg lasting).symm
  | noEntry missing => simp [Repository.writeFailure, Repository.codeOf, missing]
  | noCode found missing => simp [Repository.writeFailure, Repository.codeOf, found, missing]
  | @compound code called hcode parts =>
    have other : code.text? ≠ some conditionFailed := by
      intro htext
      rw [text?_eq_some_iff.mp htext] at parts
      cases parts
    rw [writeFailure_of_code hcode, if_neg other, parts]

theorem Handling.handled {outcome : Except Failure Bool}
    (h : Handling key response title outcome) : RefusalHandled key response title outcome where
  passed_over := by
    refine ⟨?_, fun hcode => h.outcome_eq.trans (Handling.outcome_eq (.passedOver hcode)).symm⟩
    rintro rfl
    cases h with
    | passedOver hcode => exact hcode
  later failure := by
    constructor
    · rintro ⟨rfl, transient⟩
      cases h with
      | later hcode known => exact ⟨_, known, hcode, rfl⟩
      | raised | noEntry | noCode | compound => cases transient
    · rintro ⟨code, known, hcode, rfl⟩
      exact ⟨h.outcome_eq.trans (Handling.outcome_eq (.later hcode known)).symm, rfl⟩
  raised := by
    constructor
    · rintro rfl
      cases h with
      | raised hcode whole other => exact ⟨_, hcode, whole, other⟩
    · rintro ⟨code, hcode, whole, other⟩
      exact h.outcome_eq.trans (Handling.outcome_eq (.raised hcode whole other)).symm
  astray failure := by
    constructor
    · rintro ⟨rfl, other, lasting⟩
      cases h with
      | later => exact absurd rfl lasting
      | raised => exact absurd rfl other
      | noEntry missing => exact .inl ⟨missing, rfl⟩
      | noCode found missing => exact .inr (.inl ⟨_, found, missing, rfl⟩)
      | compound hcode parts => exact .inr (.inr ⟨_, _, hcode, parts, rfl⟩)
    · have same {failure : Failure} (h' : Handling key response title (.error failure)) :
          outcome = .error failure := h.outcome_eq.trans h'.outcome_eq.symm
      rintro (⟨missing, rfl⟩ | ⟨entry, found, missing, rfl⟩ | ⟨code, called, hcode, parts, rfl⟩)
      · exact ⟨same (.noEntry missing), nofun, nofun⟩
      · exact ⟨same (.noCode found missing), nofun, nofun⟩
      · exact ⟨same (.compound hcode parts), nofun, nofun⟩
  not_written := by
    rintro rfl
    cases h

/-- A failed write amounts to a refusal by its condition or to a failure, but never to a write. -/
theorem writeFailure_eq_ok_iff {failure : Failure} {written : Bool} :
    Repository.writeFailure key failure = .ok written ↔
      written = false ∧ IsConditionFailed failure := by
  cases failure with
  | service response title =>
    have handled := (writeFailure_handling key response title).handled
    cases written with
    | false => simpa [IsConditionFailed] using handled.passed_over
    | true => simpa using handled.not_written
  | link fault url =>
    unfold Repository.writeFailure
    dsimp only
    split <;> simp [IsConditionFailed]
  | plain | transient | invalid | scan | notReady | missingEntry | unhashable | tagReserved
  | powerTooLarge | integerTooLarge | because =>
    simp [Repository.writeFailure, IsConditionFailed]

theorem writeFailure_ne_written (key : String) (failure : Failure) :
    Repository.writeFailure key failure ≠ .ok true := by
  simp [writeFailure_eq_ok_iff]

end Refusal

section Repository
variable {μ : Type} [Client μ] {r : Repository μ} {record : Record} {now : Int}

theorem Repository.connect_destination (r : Repository μ) :
    r.connect.destination = r.destination := by
  unfold Repository.connect
  split <;> rfl

/-- A migration whose write fails. -/
theorem migrate_of_failed (clock : r.nowSeconds = .ok now) (unexpired : now < record.expiresAt)
    (writable : Item.refusal? record = none) {failure : Failure} {service : μ}
    (failed : Client.putItem r.connect.service r.destination (.ofMigrated record now) true =
      (.error failure, service)) :
    r.migrate record =
      (Repository.writeFailure record.key failure, { r.connect with service }) := by
  unfold Repository.migrate
  rw [clock]
  dsimp only
  rw [if_neg (Int.not_le.mpr unexpired), writable]
  dsimp only
  rw [r.connect_destination, failed]

/-- What the refusal of the write of an unexpired record comes to. -/
theorem refused_write_handled (clock : r.nowSeconds = .ok now)
    (unexpired : now < record.expiresAt) (writable : Item.refusal? record = none)
    {response : Response} {title : String} {service : μ}
    (refused : Client.putItem r.connect.service r.destination (.ofMigrated record now) true =
      (.error (.service response title), service)) :
    RefusalHandled record.key response title (r.migrate record).1 ∧
      (r.migrate record).2 = { r.connect with service } := by
  rw [migrate_of_failed clock unexpired writable refused]
  exact ⟨(writeFailure_handling record.key response title).handled, rfl⟩

/-! ## Refusals with and without a code -/

def emil : Record := ⟨"emil", ⟨"hash", "salt"⟩, 20⟩

/-- An empty destination, whose next write is refused. -/
def refusing (response : Response) : Repository :=
  ⟨"old", "new", none, none, .none, 10,
    { Memory.empty with
      tables := [("new", [])]
      faults := [("put_item", [some (.refused response)])] }, []⟩

theorem refusing_put (response : Response) : ∃ service,
    Client.putItem (refusing response).connect.service (refusing response).destination
      (.ofMigrated emil 10) true = (.error (.service response "PutItem"), service) := ⟨_, rfl⟩

theorem throttled_write_handled : (10 : Int) < emil.expiresAt ∧ Item.refusal? emil = none ∧
    ((refusing (.ofCode "ThrottlingException" "slow down")).migrate emil).1 =
      .error (.because (laterFailure "emil" "ThrottlingException")
        (.service (.ofCode "ThrottlingException" "slow down") "PutItem")) := by
  have unexpired : (10 : Int) < emil.expiresAt := by decide
  obtain ⟨service, refused⟩ := refusing_put (.ofCode "ThrottlingException" "slow down")
  have handled := (refused_write_handled rfl unexpired rfl refused).1
  exact ⟨unexpired, rfl, ((handled.later _).mpr ⟨_, by decide, rfl, rfl⟩).1⟩

/-- A refusal without a code is not raised again. A failed lookup is raised in its stead. -/
theorem nameless_refusal_lost :
    (refusing ⟨none, none⟩).nowSeconds = .ok 10 ∧ (10 : Int) < emil.expiresAt ∧
    (∃ service, Client.putItem (refusing ⟨none, none⟩).connect.service "new"
      (.ofMigrated emil 10) true = (.error (.service ⟨none, none⟩ "PutItem"), service)) ∧
    ((refusing ⟨none, none⟩).migrate emil).1 =
      .error (.because (.missingEntry "Error") (.service ⟨none, none⟩ "PutItem")) ∧
    ((refusing ⟨none, none⟩).migrate emil).1 ≠ .error (.service ⟨none, none⟩ "PutItem") :=
  ⟨rfl, by decide, refusing_put _, rfl, nofun⟩

end Repository

end Rekey.Service
