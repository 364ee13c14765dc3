import Directory.Proofs.Agent.Refusals
import Directory.Proofs.Referral.NearestDelegation

namespace Directory

/-! # What is said of delegations in each mode

One decision stands before every operation, and there each mode has one word for a delegation: a
referral, a partial result, or none.  Searches have two more, references and the note that trees
were left out, and keep to the mode as well. -/

/-- A search result shows delegations in the way of the mode only. -/
structure ReferralMode.Shows (mode : ReferralMode) (result : SearchResult) : Prop where
  references : result.references ≠ [] → mode = .throw
  isPartial : result.isPartial = true → mode = .ignore

/-- An answer speaks of delegations in the way of the mode only. -/
structure ReferralMode.Speaks (mode : ReferralMode) (answer : Except Error Response) : Prop where
  referral : ∀ urls, answer = .error (.referral urls) → mode = .throw
  partialResult : answer = .error .partialResult → mode = .ignore
  found : ∀ result, answer = .ok (.found result) → mode.Shows result

theorem Outcome.decide_cases (isPresent : Bool) (above? itself? : Option Delegation)
    (mode : ReferralMode) (name : Dn) :
    decide isPresent above? itself? mode name = .proceed ∨
      decide isPresent above? itself? mode name = .notFound ∨
      (mode = .throw ∧ ∃ targets, decide isPresent above? itself? mode name = .redirect targets) ∨
      mode = .ignore ∧ decide isPresent above? itself? mode name = .partialResult := by
  cases mode with
  | manageDsaIt => cases isPresent <;> simp [decide, ReferralMode.managesDsaIt]
  | throw | ignore =>
    cases above? <;> cases isPresent <;> cases itself? <;>
      simp [decide, ReferralMode.managesDsaIt, Delegation.outcome]

namespace Agent

variable {agent : Agent} {contexts : NamingContexts} {partition : Partition} {dn : Dn}
  {request : Request} {mode : ReferralMode} {outcome : Outcome}

theorem Decides.outcome_cases {kind : OperationKind}
    (decides : agent.Decides contexts mode kind dn outcome) :
    outcome = .proceed ∨ outcome = .notFound ∨
      (mode = .throw ∧ ∃ targets, outcome = .redirect targets) ∨
      mode = .ignore ∧ outcome = .partialResult := by
  cases decides <;> exact Outcome.decide_cases _ _ _ _ _

theorem speaks_of_fault {refusal : Error} (isFault : refusal.isReferralOutcome = false) :
    mode.Speaks (.error refusal) := by
  refine ⟨?_, ?_, nofun⟩
  · rintro urls ⟨⟩
    contradiction
  · rintro ⟨⟩
    contradiction

theorem Grounds.speaks {refusal : Error} (grounds : agent.Grounds contexts request mode refusal) :
    mode.Speaks (.error refusal) := by
  cases grounds with
  | fault isFault => exact speaks_of_fault isFault
  | destination moves dn => exact ⟨nofun, nofun, nofun⟩
  | decided normalized decides refused =>
    rcases decides.outcome_cases with rfl | rfl | ⟨throws, targets, rfl⟩ | ⟨ignores, rfl⟩
    · contradiction
    · cases refused
      exact speaks_of_fault rfl
    · cases refused
      exact ⟨fun _ _ => throws, nofun, nofun⟩
    · cases refused
      exact ⟨nofun, fun _ => ignores, nofun⟩

section Searches

variable {schema : Schema} {filter : Filter} {base : Dn} {result : SearchResult}

theorem shows_empty : mode.Shows .empty := ⟨nofun, nofun⟩

theorem shows_reporting (unmanaged : mode ≠ .manageDsaIt) (entry : Entry)
    (shows : mode.Shows result) : mode.Shows (reporting mode entry result) := by
  cases mode with
  | throw => exact ⟨fun _ => rfl, shows.isPartial⟩
  | ignore => exact ⟨shows.references, fun _ => rfl⟩
  | manageDsaIt => exact absurd rfl unmanaged

theorem shows_gather (points : List Dn) (entries : List Entry) :
    mode.Shows (gather schema filter mode base points entries) := by
  induction entries generalizing points with
  | nil => exact shows_empty
  | cons entry rest ih =>
    rw [gather]
    split
    · exact ih points
    · split
      · next stops =>
        have unmanaged : mode ≠ .manageDsaIt := by
          rintro rfl
          simp [ReferralMode.managesDsaIt] at stops
        exact shows_reporting unmanaged entry (ih _)
      · dsimp only
        split
        · exact ⟨(ih points).references, (ih points).isPartial⟩
        · exact ih points

theorem shows_searchStore (store : Store) (base : Dn) (scope : SearchScope) :
    mode.Shows (searchStore schema store base scope filter mode) := by
  unfold searchStore
  dsimp only
  split
  · exact shows_gather [] _
  · next entry top =>
    have unmanaged : mode ≠ .manageDsaIt := by
      rintro rfl
      simp [ReferralMode.managesDsaIt] at top
    split
    · exact shows_gather [] _
    · exact shows_reporting unmanaged entry (shows_gather [] _)

end Searches

theorem speaks_answer (agent : Agent) (contexts : NamingContexts) (request : Request)
    (mode : ReferralMode) : mode.Speaks (agent.answer contexts request mode).1 := by
  cases answered : (agent.answer contexts request mode).1 with
  | error refusal => exact (agent.refusesOnly_answer contexts request mode _ answered).speaks
  | ok response =>
    refine ⟨nofun, nofun, fun result same => ?_⟩
    obtain ⟨given, scope, filter, rfl, searched⟩ := found_of_answer (answered.trans same)
    simp only [search, bind_eq_ok_iff] at searched
    obtain ⟨base, _, partition, _, _, _, same⟩ := searched
    cases same
    exact shows_searchStore partition.store base scope

section Delegated

variable {refusal : Error} (normalized : agent.schema.normalizeDn request.target = .ok dn)
  (resolved : contexts.resolve? dn = some partition)
  (settled : (agent.classify request.kind mode partition dn).result dn = .error refusal)
include normalized resolved settled

theorem classified_eq_error {α : Type} (next : Partition → Dn → Except Error α) :
    (do
      let dn ← agent.schema.normalizeDn request.target
      let partition ← covering contexts dn
      (agent.classify request.kind mode partition dn).result dn
      next partition dn) = .error refusal := by
  simp only [normalized, covering_eq_ok_iff.mpr resolved, settled, bind, Except.bind]

/-- What the decision says of a delegation is said of the operation: nothing but an add gets
around it. -/
theorem refused_of_settled (other : request.kind ≠ .add)
    (delegated : refusal.isReferralOutcome = true) :
    ∃ refusal, (agent.answer contexts request mode).1 = .error refusal := by
  cases request with
  | add => exact absurd rfl other
  | modify given changes =>
    have refused : agent.planModify contexts given changes mode = .error refusal :=
      classified_eq_error normalized resolved settled _
    exact ⟨refusal, by rw [answer, refused]; rfl⟩
  | delete given =>
    have refused : agent.planDelete contexts given mode = .error refusal :=
      classified_eq_error normalized resolved settled _
    exact ⟨refusal, by rw [answer, refused]; rfl⟩
  | move given superior? rdn? deleteOld =>
    cases planned : agent.planMove contexts given superior? rdn? deleteOld mode with
    | error early => exact ⟨early, by rw [answer, planned]; rfl⟩
    | ok plan =>
      simp only [planMove, bind_eq_ok_iff] at planned
      obtain ⟨_, _, name, isNormal, superior?, _, rdn?, _, source, covered, planned⟩ := planned
      obtain rfl : dn = name := Except.ok.inj (normalized.symm.trans isNormal)
      obtain rfl : partition = source :=
        Option.some.inj (resolved.symm.trans (covering_eq_ok_iff.mp covered))
      cases named : dn.rdns with
      | nil => simp [named] at planned
      | cons old above =>
        simp only [named, planRelocation, bind_eq_ok_iff] at planned
        obtain ⟨_, _, _, _, _, proceeds, _⟩ := planned
        cases proceeds.symm.trans settled
  | search given scope filter =>
    have refused : agent.search contexts given scope filter mode = .error refusal :=
      classified_eq_error normalized resolved settled _
    exact ⟨refusal, by rw [answer, refused]; rfl⟩
  | compare given attr value =>
    have refused : agent.read contexts .compare given mode = .error refusal :=
      classified_eq_error normalized resolved settled _
    exact ⟨refusal, by rw [answer, compare, refused]; rfl⟩
  | lookup given =>
    have refused : agent.read contexts .lookup given mode = .error refusal :=
      classified_eq_error normalized resolved settled _
    exact ⟨refusal, by rw [answer, lookup, refused]; rfl⟩
  | «exists» given =>
    have refused : agent.read contexts .exists given mode = .error refusal :=
      classified_eq_error normalized resolved settled _
    refine ⟨refusal, ?_⟩
    rw [answer, exists?, refused]
    cases refusal with
    | noSuchObject name => contradiction
    | _ => rfl

end Delegated

/-- Whoever does not manage delegations gets nothing done on a name below one, an add apart. -/
theorem refused_of_delegatesAt (named : partition.suffix.isRoot = false)
    (unmanaged : mode ≠ .manageDsaIt) (other : request.kind ≠ .add)
    (normalized : agent.schema.normalizeDn request.target = .ok dn)
    (resolved : contexts.resolve? dn = some partition) {point : Dn} {entry : Entry}
    (delegates : partition.DelegatesAt dn point entry) :
    ∃ refusal, (agent.answer contexts request mode).1 = .error refusal := by
  obtain ⟨delegation, ended⟩ := delegates.exists_walk named
  obtain ⟨nearestEntry, nearest, _⟩ := Partition.nearest_of_walk named ended
  have settled : agent.classify request.kind mode partition dn =
      handedOver mode dn delegation.point nearestEntry :=
    Partition.classify_of_nearest named unmanaged nearest agent.policy request.kind _
  cases mode with
  | throw => exact refused_of_settled normalized resolved (by rw [settled]; rfl) other rfl
  | ignore => exact refused_of_settled normalized resolved (by rw [settled]; rfl) other rfl
  | manageDsaIt => exact absurd rfl unmanaged

end Agent

end Directory
