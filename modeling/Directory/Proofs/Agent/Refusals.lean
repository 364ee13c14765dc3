import Directory.Proofs.Agent.Writes
import Directory.Proofs.Schema.ClassClosure

namespace Directory

/-! # Why an agent refuses

Most refusals are faults.  Those that speak of a delegation come from the one decision that a
request goes through, or from the place that an entry is to be moved to. -/

/-- No refusal of the computation speaks of a delegation. -/
abbrev HasOnlyFaults {α : Type} (computed : Except Error α) : Prop :=
  RefusesOnly (fun refusal => refusal.isReferralOutcome = false) computed

/-- Whether an entry is refused because it does not conform to the schema. -/
def Error.isNonconformance : Error → Bool
  | schemaViolation _ | invalidAttributeSyntax _ _ | undefinedAttributeType _ => true
  | _ => false

/-- The computation refuses only what does not conform to the schema. -/
abbrev ChecksConformance {α : Type} (computed : Except Error α) : Prop :=
  RefusesOnly (fun refusal => refusal.isNonconformance = true) computed

/-- Whether a store refuses a write because of the names that it holds. -/
def Error.isMisplacement : Error → Bool
  | noSuchObject _ | alreadyExists _ | notAllowedOnNonLeaf _ | unwillingToPerform _
  | storageFailure _ => true
  | _ => false

/-- The computation refuses only what has no place in the store. -/
abbrev ChecksPlacement {α : Type} (computed : Except Error α) : Prop :=
  RefusesOnly (fun refusal => refusal.isMisplacement = true) computed

theorem Error.isFault_of_isNonconformance (refusal : Error)
    (nonconformance : refusal.isNonconformance = true) : refusal.isReferralOutcome = false := by
  cases refusal <;> first | rfl | contradiction

theorem Error.isFault_of_isMisplacement (refusal : Error)
    (misplacement : refusal.isMisplacement = true) : refusal.isReferralOutcome = false := by
  cases refusal <;> first | rfl | contradiction

namespace Schema

variable {schema : Schema} {entry : Entry}

theorem hasOnlyFaults_normalizeRdn (rdn : Rdn) : HasOnlyFaults (schema.normalizeRdn rdn) := by
  unfold normalizeRdn
  split
  · exact .error rfl
  · exact .ok _

theorem hasOnlyFaults_normalizeDn (dn : Dn) : HasOnlyFaults (schema.normalizeDn dn) :=
  (RefusesOnly.mapM hasOnlyFaults_normalizeRdn dn.rdns).bind fun _ _ => .ok _

theorem checksConformance_classClosure (pending : List Text) (found : List ObjectClass) :
    ChecksConformance (schema.classClosure pending found) := by
  induction pending, found using classClosure.induct schema with
  | case1 found =>
    rw [classClosure_nil]
    exact .ok found
  | case2 found name rest unknown =>
    rw [classClosure_cons, unknown]
    exact .error rfl
  | case3 found name rest cls known before ih =>
    rw [classClosure_cons, known]
    simpa only [if_pos before] using ih
  | case4 found name rest cls known fresh ih =>
    rw [classClosure_cons, known]
    simpa only [if_neg fresh] using ih

theorem checksConformance_attributeOid (name : Text) :
    ChecksConformance (schema.attributeOid name) := by
  unfold attributeOid
  split
  · exact .error rfl
  · exact .ok _

theorem checksConformance_requirements (classes : List ObjectClass) :
    ChecksConformance (schema.requirements classes) := by
  refine .bind (.mapM (fun cls => ?_) classes) fun lists _ =>
    (checksConformance_attributeOid _).bind fun _ _ => .ok _
  exact (RefusesOnly.mapM checksConformance_attributeOid cls.must).bind fun must _ =>
    (RefusesOnly.mapM checksConformance_attributeOid cls.may).bind fun may _ => .ok (must, may)

theorem checksConformance_checkAttribute (dn : Dn) (asked : Requirements) (present : List Text)
    (attr : Attribute) : ChecksConformance (schema.checkAttribute dn asked present attr) := by
  unfold checkAttribute
  split
  · exact .error rfl
  · exact .bind (.refuseIf rfl) fun _ _ => .bind (.refuseIf rfl) fun _ _ =>
      .bind (.refuseIf rfl) fun _ _ => .bind (.refuseAny fun _ => rfl) fun _ _ =>
        .bind (.refuseIf rfl) fun _ _ => .ok _

theorem checksConformance_checkAttributes (dn : Dn) (asked : Requirements) (attrs : List Attribute)
    (present : List Text) : ChecksConformance (schema.checkAttributes dn asked attrs present) := by
  induction attrs generalizing present with
  | nil => exact .ok present
  | cons attr rest ih =>
    exact (checksConformance_checkAttribute dn asked present attr).bind fun oid _ =>
      ih (oid :: present)

theorem checksConformance_checkNaming (entry : Entry) :
    ChecksConformance (schema.checkNaming entry) := by
  unfold checkNaming
  split
  · exact .ok ()
  · split
    · exact .error rfl
    · exact .refuseIf rfl

theorem checksConformance_validate (entry : Entry) : ChecksConformance (schema.validate entry) :=
  .bind (.refuseIf rfl) fun _ _ => .bind (checksConformance_classClosure _ _) fun classes _ =>
    .bind (.refuseIf rfl) fun _ _ => .bind (checksConformance_requirements classes) fun asked _ =>
      .bind (checksConformance_checkAttributes entry.dn asked _ _) fun _ _ =>
        .bind (.refuseIf rfl) fun _ _ => .bind (checksConformance_checkNaming entry) fun _ _ =>
          .refuseAny fun _ => rfl

theorem hasOnlyFaults_validate (entry : Entry) : HasOnlyFaults (schema.validate entry) :=
  (checksConformance_validate entry).mono Error.isFault_of_isNonconformance

end Schema

namespace Entry

theorem hasOnlyFaults_addValues (id : Text) (values : List Text) (entry : Entry) :
    HasOnlyFaults (addValues id values entry).1 := by
  induction values generalizing entry with
  | nil => exact .ok ()
  | cons value rest ih =>
    rw [addValues]
    split
    · exact .error rfl
    · exact ih (entry.pushValue id value)

theorem hasOnlyFaults_removeValues (id : Text) (values : List Text) (entry : Entry) :
    HasOnlyFaults (removeValues id values entry).1 := by
  induction values generalizing entry with
  | nil => exact .ok ()
  | cons value rest ih =>
    rw [removeValues]
    split
    · exact ih (entry.removeValue id value)
    · exact .error rfl

theorem hasOnlyFaults_applyOne (change : Modification) (entry : Entry) :
    HasOnlyFaults (entry.applyOne change).1 := by
  unfold applyOne
  cases change.kind with
  | add => exact hasOnlyFaults_addValues change.id change.values entry
  | replace => exact .ok ()
  | remove =>
    simp only
    split
    · cases entry.get? change.id with
      | none => exact .error rfl
      | some attr => exact .ok ()
    · exact hasOnlyFaults_removeValues change.id change.values entry

theorem hasOnlyFaults_apply (changes : List Modification) (entry : Entry) :
    HasOnlyFaults (entry.apply changes).1 := by
  induction changes generalizing entry with
  | nil => exact .ok ()
  | cons change rest ih =>
    have first := hasOnlyFaults_applyOne change entry
    rw [apply]
    cases outcome : entry.applyOne change with
    | mk answer changed =>
      rw [outcome] at first
      cases answer with
      | error refusal => exact first
      | ok => exact ih changed

theorem hasOnlyFaults_modified (changes : List Modification) (entry : Entry) :
    HasOnlyFaults (entry.modified changes) := by
  have applied := hasOnlyFaults_apply changes entry
  unfold modified
  split
  · exact .ok _
  · next outcome =>
    rw [outcome] at applied
    exact .error (applied _ rfl)

end Entry

theorem Partition.checksPlacement_admits (partition : Partition) (write : Write) :
    ChecksPlacement (partition.admits write) := by
  have superior (dn : Dn) : ChecksPlacement (partition.checkParent dn) := by
    unfold checkParent
    split
    · exact .ok ()
    · split
      · exact .error rfl
      · exact .refuseIf rfl
  cases write with
  | create entry =>
    exact .bind (.refuseIf rfl) fun _ _ => .bind (.refuseIf rfl) fun _ _ => superior entry.dn
  | update entry => exact .bind (.refuseIf rfl) fun _ _ => .refuseIf rfl
  | delete dn =>
    exact .bind (.refuseIf rfl) fun _ _ => .bind (.refuseIf rfl) fun _ _ => .refuseIf rfl
  | relocate source entry =>
    exact .bind (.refuseIf rfl) fun _ _ => .bind (.refuseIf rfl) fun _ _ =>
      .bind (.refuseIf rfl) fun _ _ => .bind (.refuseIf rfl) fun _ _ =>
        .bind (.refuseIf rfl) fun _ _ => superior entry.dn

theorem NamingContexts.checksPlacement_perform (contexts : NamingContexts) (id : Text)
    (write : Partition.Write) : ChecksPlacement (contexts.perform id write).1 := by
  unfold perform
  cases contexts.partition? id with
  | none => exact .error rfl
  | some partition =>
    have admits := partition.checksPlacement_admits write
    simp only [Partition.perform]
    cases answer : partition.admits write with
    | ok => exact .ok ()
    | error refusal => exact .error (admits refusal answer)

namespace Agent

variable {agent : Agent} {contexts : NamingContexts} {partition : Partition} {dn : Dn}
  {request : Request} {mode : ReferralMode}

theorem hasOnlyFaults_covering (contexts : NamingContexts) (dn : Dn) :
    HasOnlyFaults (covering contexts dn) := by
  unfold covering
  split
  · exact .error rfl
  · exact .ok _

theorem hasOnlyFaults_existing (partition : Partition) (dn : Dn) :
    HasOnlyFaults (existing partition dn) := by
  unfold existing
  split
  · exact .error rfl
  · exact .ok _

theorem hasOnlyFaults_asserts (entry : Entry) (attr value : Text) :
    HasOnlyFaults (agent.asserts entry attr value) := by
  unfold asserts
  split
  · exact .error rfl
  · exact .bind (.refuseIf rfl) fun _ _ => .ok _

/-- What the delegations make of an operation on a canonical name. -/
inductive Decides (agent : Agent) (contexts : NamingContexts) (mode : ReferralMode) :
    OperationKind → Dn → Outcome → Prop where
  | classified {kind : OperationKind} {dn : Dn} {partition : Partition} (other : kind ≠ .add)
      (resolved : contexts.resolve? dn = some partition) :
      Decides agent contexts mode kind dn (agent.classify kind mode partition dn)
  | added {dn parent : Dn} {partition : Partition}
      (resolved : contexts.resolve? dn = some partition) (isParent : dn.parent? = some parent) :
      Decides agent contexts mode .add dn (ReferralPolicy.classifyAdd mode dn parent
        (partition.store.find? parent) (partition.walk parent))

/-- What an agent may refuse a request with. -/
inductive Grounds (agent : Agent) (contexts : NamingContexts) (request : Request)
    (mode : ReferralMode) : Error → Prop where
  | fault {refusal : Error} (isFault : refusal.isReferralOutcome = false) :
      Grounds agent contexts request mode refusal
  | decided {dn : Dn} {outcome : Outcome} {refusal : Error}
      (normalized : agent.schema.normalizeDn request.target = .ok dn)
      (decides : agent.Decides contexts mode request.kind dn outcome)
      (refused : outcome.result dn = .error refusal) : Grounds agent contexts request mode refusal
  | destination (moves : request.kind = .move) (dn : Dn) :
      Grounds agent contexts request mode (.affectsMultipleDsas dn.text)

theorem grounds_of_faults {α : Type} {computed : Except Error α} (faults : HasOnlyFaults computed) :
    RefusesOnly (agent.Grounds contexts request mode) computed :=
  faults.mono fun _ isFault => .fault isFault

theorem refusesOnly_classify (other : request.kind ≠ .add)
    (normalized : agent.schema.normalizeDn request.target = .ok dn)
    (covered : covering contexts dn = .ok partition) :
    RefusesOnly (agent.Grounds contexts request mode)
      ((agent.classify request.kind mode partition dn).result dn) :=
  fun _ refused =>
    .decided normalized (.classified other (covering_eq_ok_iff.mp covered)) refused

theorem refusesOnly_classified {α : Type} (request : Request) (other : request.kind ≠ .add)
    {next : Partition → Dn → Except Error α}
    (later : ∀ partition dn, agent.schema.normalizeDn request.target = .ok dn →
      covering contexts dn = .ok partition →
        RefusesOnly (agent.Grounds contexts request mode) (next partition dn)) :
    RefusesOnly (agent.Grounds contexts request mode) (do
      let dn ← agent.schema.normalizeDn request.target
      let partition ← covering contexts dn
      (agent.classify request.kind mode partition dn).result dn
      next partition dn) :=
  .bind (grounds_of_faults (Schema.hasOnlyFaults_normalizeDn _)) fun dn normalized =>
    .bind (grounds_of_faults (hasOnlyFaults_covering contexts dn)) fun partition covered =>
      .bind (refusesOnly_classify other normalized covered) fun _ _ =>
        later partition dn normalized covered

theorem refusesOnly_checkPlace (given : Entry)
    (normalized : agent.schema.normalizeDn given.dn = .ok dn)
    (covered : covering contexts dn = .ok partition) :
    RefusesOnly (agent.Grounds contexts (.add given) mode) (checkPlace mode partition dn) := by
  unfold checkPlace
  split
  · exact .ok ()
  · next parent isParent =>
    split
    · exact .ok ()
    · exact fun _ refused =>
        .decided normalized (.added (covering_eq_ok_iff.mp covered) isParent) refused

theorem refusesOnly_planAdd (given : Entry) :
    RefusesOnly (agent.Grounds contexts (.add given) mode) (agent.planAdd contexts given mode) := by
  have canonical : HasOnlyFaults (agent.canonicalEntry given) :=
    (Schema.hasOnlyFaults_normalizeDn given.dn).bind fun _ _ => .ok _
  refine .bind (grounds_of_faults canonical) fun entry isCanonical => ?_
  obtain ⟨dn, normalized, same⟩ := bind_eq_ok_iff.mp isCanonical
  cases same
  exact .bind (grounds_of_faults (hasOnlyFaults_covering contexts dn)) fun partition covered =>
    .bind (.refuseIf (.fault rfl)) fun _ _ =>
      .bind (grounds_of_faults (Schema.hasOnlyFaults_validate _)) fun _ _ =>
        .bind (refusesOnly_checkPlace given normalized covered) fun _ _ => .ok _

theorem refusesOnly_planModify (given : Dn) (changes : List Modification) :
    RefusesOnly (agent.Grounds contexts (.modify given changes) mode)
      (agent.planModify contexts given changes mode) :=
  refusesOnly_classified (.modify given changes) nofun fun partition dn _ _ =>
    .bind (grounds_of_faults (hasOnlyFaults_existing partition dn)) fun entry _ =>
      .bind (grounds_of_faults (Entry.hasOnlyFaults_modified _ entry)) fun changed _ =>
        .bind (grounds_of_faults (Schema.hasOnlyFaults_validate changed)) fun _ _ => .ok _

theorem refusesOnly_planDelete (given : Dn) :
    RefusesOnly (agent.Grounds contexts (.delete given) mode)
      (agent.planDelete contexts given mode) :=
  refusesOnly_classified (.delete given) nofun fun _ _ _ _ =>
    .bind (.refuseIf (.fault rfl)) fun _ _ => .ok _

theorem refusesOnly_destination (moves : request.kind = .move) (superior : Dn) :
    RefusesOnly (agent.Grounds contexts request mode) (destination contexts dn superior) := by
  unfold destination
  split
  · exact .error (.fault rfl)
  · dsimp only
    split
    · exact .error (.destination moves dn)
    · exact .ok _

theorem refusesOnly_checkDestination (moves : request.kind = .move) (found : Destination) :
    RefusesOnly (agent.Grounds contexts request mode) (checkDestination partition dn found) :=
  .bind (.refuseIf (.fault rfl)) fun _ _ => .refuseIf (.destination moves dn)

theorem refusesOnly_planRelocation (moves : request.kind = .move)
    (normalized : agent.schema.normalizeDn request.target = .ok dn)
    (covered : covering contexts dn = .ok partition) (old : Rdn) (above : List Rdn)
    (superior? : Option Dn) (rdn? : Option Rdn) (deleteOld : Bool) :
    RefusesOnly (agent.Grounds contexts request mode)
      (agent.planRelocation contexts partition dn old above superior? rdn? deleteOld mode) := by
  have classified : RefusesOnly (agent.Grounds contexts request mode)
      ((agent.classify .move mode partition dn).result dn) :=
    moves ▸ refusesOnly_classify (by simp [moves]) normalized covered
  refine .bind (.refuseIf (.fault rfl)) fun _ _ =>
    .bind (.optionMapM (refusesOnly_destination moves) superior?) fun destination? _ =>
      .bind classified fun _ _ => ?_
  cases destination? <;> refine .bind ?_ fun _ _ => .bind (.refuseIf (.fault rfl)) fun _ _ =>
    .bind (.refuseIf (.fault rfl)) fun _ _ =>
      .bind (grounds_of_faults (hasOnlyFaults_existing partition dn)) fun _ _ =>
        .bind (grounds_of_faults (Schema.hasOnlyFaults_validate _)) fun _ _ => .ok _
  · exact .ok ()
  · exact refusesOnly_checkDestination moves _

theorem refusesOnly_planMove (given : Dn) (superior? : Option Dn) (rdn? : Option Rdn)
    (deleteOld : Bool) :
    RefusesOnly (agent.Grounds contexts (.move given superior? rdn? deleteOld) mode)
      (agent.planMove contexts given superior? rdn? deleteOld mode) := by
  refine .bind (.refuseIf (.fault rfl)) fun _ _ =>
    .bind (grounds_of_faults (Schema.hasOnlyFaults_normalizeDn given)) fun dn normalized =>
      .bind (grounds_of_faults (.optionMapM Schema.hasOnlyFaults_normalizeDn superior?)) fun _ _ =>
        .bind (grounds_of_faults (.optionMapM Schema.hasOnlyFaults_normalizeRdn rdn?)) fun _ _ =>
          .bind (grounds_of_faults (hasOnlyFaults_covering contexts dn)) fun source covered => ?_
  split
  · exact .error (.fault rfl)
  · exact refusesOnly_planRelocation rfl normalized covered _ _ _ _ _

theorem refusesOnly_read (request : Request) (other : request.kind ≠ .add) : RefusesOnly
    (agent.Grounds contexts request mode) (agent.read contexts request.kind request.target mode) :=
  refusesOnly_classified request other fun partition dn _ _ =>
    grounds_of_faults (hasOnlyFaults_existing partition dn)

theorem refusesOnly_compare (given : Dn) (attr value : Text) :
    RefusesOnly (agent.Grounds contexts (.compare given attr value) mode)
      (agent.compare contexts given attr value mode) :=
  .bind (refusesOnly_read (.compare given attr value) nofun) fun entry _ =>
    grounds_of_faults (hasOnlyFaults_asserts entry attr value)

theorem refusesOnly_exists? (given : Dn) :
    RefusesOnly (agent.Grounds contexts (.exists given) mode)
      (agent.exists? contexts given mode) := by
  have read : RefusesOnly (agent.Grounds contexts (.exists given) mode)
      (agent.read contexts .exists given mode) := refusesOnly_read (.exists given) nofun
  unfold exists?
  split
  · exact .ok true
  · exact .ok false
  · next refusal _ refused => exact .error (read refusal refused)

theorem refusesOnly_search (given : Dn) (scope : SearchScope) (filter : Filter) :
    RefusesOnly (agent.Grounds contexts (.search given scope filter) mode)
      (agent.search contexts given scope filter mode) :=
  refusesOnly_classified (.search given scope filter) nofun fun _ _ _ _ => .ok _

theorem refusesOnly_commit {plan : Except Error Plan}
    (planned : RefusesOnly (agent.Grounds contexts request mode) plan) :
    RefusesOnly (agent.Grounds contexts request mode) (commit contexts plan).1 := by
  cases plan with
  | error refusal => exact .error (planned refusal rfl)
  | ok made =>
    have places := contexts.checksPlacement_perform made.partition made.write
    exact (grounds_of_faults (places.mono Error.isFault_of_isMisplacement)).map _

theorem refusesOnly_answer (agent : Agent) (contexts : NamingContexts) (request : Request)
    (mode : ReferralMode) :
    RefusesOnly (agent.Grounds contexts request mode) (agent.answer contexts request mode).1 := by
  cases request with
  | add given => exact refusesOnly_commit (refusesOnly_planAdd given)
  | modify given changes => exact refusesOnly_commit (refusesOnly_planModify given changes)
  | delete given => exact refusesOnly_commit (refusesOnly_planDelete given)
  | move given superior? rdn? deleteOld =>
    exact refusesOnly_commit (refusesOnly_planMove given superior? rdn? deleteOld)
  | search given scope filter => exact (refusesOnly_search given scope filter).map _
  | compare given attr value => exact (refusesOnly_compare given attr value).map _
  | lookup given =>
    exact (refusesOnly_read (.lookup given) nofun).map _
  | «exists» given => exact (refusesOnly_exists? given).map _

end Agent

end Directory
