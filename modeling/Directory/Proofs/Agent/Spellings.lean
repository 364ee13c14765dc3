import Directory.Proofs.Agent.Writes
import Directory.Proofs.Partition.Scopes
import Directory.Proofs.Referral.NearestDelegation

namespace Directory

/-! # Spellings of a name

Two names with one path are spellings of the same name.  Stores, walks and searches go by paths,
so an agent does for the one spelling what it does for the other, and a refusal tells no more than
the spelling that was asked about. -/

/-- Refusals of one kind that differ at most in how they spell a name, and lead to as many URLs. -/
inductive Error.Alike : Error → Error → Prop where
  | same (refusal : Error) : Alike refusal refusal
  | noSuchObject (ours theirs : Text) : Alike (.noSuchObject ours) (.noSuchObject theirs)
  | notAllowedOnNonLeaf (ours theirs : Text) :
      Alike (.notAllowedOnNonLeaf ours) (.notAllowedOnNonLeaf theirs)
  | affectsMultipleDsas (ours theirs : Text) :
      Alike (.affectsMultipleDsas ours) (.affectsMultipleDsas theirs)
  | insufficientAccessRights (ours theirs : Text) :
      Alike (.insufficientAccessRights ours) (.insufficientAccessRights theirs)
  | storageFailure (ours theirs : Text) : Alike (.storageFailure ours) (.storageFailure theirs)
  | referral {ours theirs : List Text} (sameCount : ours.length = theirs.length) :
      Alike (.referral ours) (.referral theirs)

/-- Where a referral leads to; nowhere for other refusals. -/
def Error.referralUrls : Error → List Text
  | referral urls => urls
  | _ => []

theorem Error.Alike.resultCode_eq {ours theirs : Error} (alike : ours.Alike theirs) :
    ours.resultCode = theirs.resultCode := by
  cases alike <;> rfl

theorem Error.Alike.length_referralUrls {ours theirs : Error} (alike : ours.Alike theirs) :
    ours.referralUrls.length = theirs.referralUrls.length := by
  cases alike with
  | referral sameCount => exact sameCount
  | _ => rfl

/-- Both computations succeed with results that agree, or both are refused alike. -/
inductive AnswersAlike {α β : Type} (agree : α → β → Prop) :
    Except Error α → Except Error β → Prop where
  | ok {ours : α} {theirs : β} (agrees : agree ours theirs) :
      AnswersAlike agree (.ok ours) (.ok theirs)
  | error {ours theirs : Error} (alike : ours.Alike theirs) :
      AnswersAlike agree (.error ours) (.error theirs)

/-- Outcomes that differ at most in the names that the targets are asked for. -/
inductive Outcome.Alike : Outcome → Outcome → Prop where
  | same (outcome : Outcome) : Alike outcome outcome
  | redirect {ours theirs : List RedirectTarget} (sameCount : ours.length = theirs.length) :
      Alike (.redirect ours) (.redirect theirs)

/-- Writes that differ at most in how the name of a deleted entry is spelled. -/
inductive Partition.Write.Alike : Partition.Write → Partition.Write → Prop where
  | same (write : Partition.Write) : Alike write write
  | delete {ours theirs : Dn} (samePath : ours.path = theirs.path) :
      Alike (.delete ours) (.delete theirs)

namespace AnswersAlike

variable {α β γ δ : Type} {agree : α → β → Prop} {agreeNext : γ → δ → Prop}

theorem refl (answer : Except Error α) : AnswersAlike Eq answer answer := by
  cases answer with
  | ok value => exact .ok rfl
  | error refusal => exact .error (.same refusal)

theorem bind {ours : Except Error α} {theirs : Except Error β} {oursNext : α → Except Error γ}
    {theirsNext : β → Except Error δ} (first : AnswersAlike agree ours theirs)
    (later : ∀ value other, agree value other →
      AnswersAlike agreeNext (oursNext value) (theirsNext other)) :
    AnswersAlike agreeNext (ours >>= oursNext) (theirs >>= theirsNext) := by
  cases first with
  | ok agrees => exact later _ _ agrees
  | error alike => exact .error alike

theorem bind_eq {ours theirs : Except Error α} {oursNext : α → Except Error γ}
    {theirsNext : α → Except Error δ} (first : AnswersAlike Eq ours theirs)
    (later : ∀ value, AnswersAlike agreeNext (oursNext value) (theirsNext value)) :
    AnswersAlike agreeNext (ours >>= oursNext) (theirs >>= theirsNext) :=
  first.bind fun value _ same => same ▸ later value

theorem map {ours : Except Error α} {theirs : Except Error β} {change : α → γ} {other : β → δ}
    (alike : AnswersAlike agree ours theirs)
    (agrees : ∀ value result, agree value result → agreeNext (change value) (other result)) :
    AnswersAlike agreeNext (ours.map change) (theirs.map other) := by
  cases alike with
  | ok same => exact .ok (agrees _ _ same)
  | error alike => exact .error alike

theorem refuseIf {fault : Bool} {ours theirs : Error} (alike : ours.Alike theirs) :
    AnswersAlike Eq (Directory.refuseIf fault ours) (Directory.refuseIf fault theirs) := by
  cases fault with
  | false => exact .ok rfl
  | true => exact .error alike

end AnswersAlike

namespace Dn

variable {left right : Dn}

/-- The names are spellings of one. -/
def SamePath (left right : Dn) : Prop := left.path = right.path

theorem length_eq_of_path (same : left.path = right.path) : left.length = right.length := by
  rw [← length_path, same, length_path]

theorem isAncestorOrSelfOf_congr (above : Dn) (same : left.path = right.path) :
    above.isAncestorOrSelfOf left = above.isAncestorOrSelfOf right := by
  rw [isAncestorOrSelfOf, isAncestorOrSelfOf, same]

theorem beq_congr (dn : Dn) (same : left.path = right.path) : (dn == left) = (dn == right) := by
  rw [Bool.eq_iff_iff, beq_iff_path, beq_iff_path, same]

theorem storageKeys_takeWhile_go (bound : Nat) {ours theirs : List Rdn}
    (same : ours.map Rdn.key = theirs.map Rdn.key) :
    ((ancestors.go ours).takeWhile fun above => bound ≤ above.length).map storageKey =
      ((ancestors.go theirs).takeWhile fun above => bound ≤ above.length).map storageKey := by
  induction ours generalizing theirs with
  | nil =>
    rw [List.map_nil, eq_comm, List.map_eq_nil_iff] at same
    rw [same]
  | cons rdn above ih =>
    cases theirs with
    | nil => simp at same
    | cons other others =>
      have sameHere : (Dn.mk (rdn :: above)).path = (Dn.mk (other :: others)).path := same
      have sameAbove : above.map Rdn.key = others.map Rdn.key := (List.cons.inj same).2
      rw [ancestors.go, ancestors.go, List.takeWhile_cons, List.takeWhile_cons,
        length_eq_of_path sameHere]
      split
      · rw [List.map_cons, List.map_cons, storageKey_eq_of_path sameHere, ih sameAbove]
      · rfl

theorem storageKeys_takeWhile_ancestors (bound : Nat) (same : left.path = right.path) :
    (left.ancestors.takeWhile fun above => bound ≤ above.length).map storageKey =
      (right.ancestors.takeWhile fun above => bound ≤ above.length).map storageKey := by
  obtain ⟨ours⟩ := left
  obtain ⟨theirs⟩ := right
  cases ours with
  | nil =>
    have empty : theirs = [] := by simpa [path, eq_comm] using same
    rw [empty]
  | cons rdn above =>
    cases theirs with
    | nil => simp [path] at same
    | cons other others => exact storageKeys_takeWhile_go bound (List.cons.inj same).2

end Dn

namespace Store

variable {left right : Dn}

theorem subtree_eq_of_path (store : Store) (same : left.path = right.path) :
    store.subtree left = store.subtree right := by
  simp only [subtree, isUnder, Dn.storageKey_eq_of_path same]

theorem hasChildren_eq_of_path (store : Store) (same : left.path = right.path) :
    store.hasChildren left = store.hasChildren right := by
  rw [hasChildren, hasChildren, store.subtree_eq_of_path same]

theorem holds_eq_of_path (store : Store) (same : left.path = right.path) :
    store.holds left = store.holds right := by
  rw [holds, holds, store.find?_eq_of_path same]

end Store

theorem NamingContexts.resolve?_eq_of_path (contexts : NamingContexts) {left right : Dn}
    (same : left.path = right.path) : contexts.resolve? left = contexts.resolve? right := by
  simp only [resolve?, Dn.isAncestorOrSelfOf_congr _ same]

theorem ReferralPolicy.targets_delegationAt? (dn : Dn) (stored? : Option Entry) :
    (delegationAt? dn stored?).map Delegation.targets =
      (stored?.filter Entry.isReferral).map Entry.delegationTargets := by
  rw [delegationAt?, Option.map_map]
  rfl

theorem Partition.targets_walk_eq (partition : Partition) {left right : Dn}
    (same : left.path = right.path) :
    (partition.walk left).delegation?.map Delegation.targets =
      (partition.walk right).delegation?.map Delegation.targets := by
  have sought (dn : Dn) (lies : partition.suffix.isAncestorOf dn = true) :
      (partition.walk dn).delegation?.map Delegation.targets =
        ((partition.walked dn).map Dn.storageKey).findSome? fun key =>
          ((partition.store.get? key).filter Entry.isReferral).map Entry.delegationTargets := by
    rw [delegation?_walk lies, List.map_findSome?, List.findSome?_map]
    refine congrArg (List.findSome? · _) (funext fun above => ?_)
    exact ReferralPolicy.targets_delegationAt? above _
  have sameWay := Dn.isAncestorOf_congr partition.suffix same
  by_cases lies : partition.suffix.isAncestorOf left = true
  · rw [sought left lies, sought right (sameWay ▸ lies), walked, walked,
      Dn.storageKeys_takeWhile_ancestors _ same]
  · rw [walk, walk, AncestorWalk.upTo, AncestorWalk.upTo, if_neg lies, if_neg (sameWay ▸ lies)]

theorem Outcome.Alike.result {ours theirs : Outcome} (alike : ours.Alike theirs) (left right : Dn) :
    AnswersAlike Eq (ours.result left) (theirs.result right) := by
  cases alike with
  | redirect sameCount => exact .error (.referral (by simpa using sameCount))
  | same =>
    cases ours with
    | proceed => exact .ok rfl
    | notFound => exact .error (.noSuchObject _ _)
    | partialResult => exact .error (.same _)
    | redirect targets => exact .error (.referral rfl)
    | affectsMultipleNamingContexts => exact .error (.affectsMultipleDsas _ _)

theorem Delegation.outcome_alike {ours theirs : Delegation} (same : ours.targets = theirs.targets)
    (mode : ReferralMode) (left right : Dn) :
    (ours.outcome mode left).Alike (theirs.outcome mode right) := by
  cases mode with
  | ignore => exact .same _
  | throw | manageDsaIt => exact .redirect (by simp [redirects, same])

theorem Outcome.decide_alike {above otherAbove itself otherItself : Option Delegation}
    (sameAbove : above.map Delegation.targets = otherAbove.map Delegation.targets)
    (sameItself : itself.map Delegation.targets = otherItself.map Delegation.targets)
    (isPresent : Bool) (mode : ReferralMode) (left right : Dn) :
    (decide isPresent above itself mode left).Alike
      (decide isPresent otherAbove otherItself mode right) := by
  unfold decide
  split
  · exact .same _
  · cases above with
    | some delegation =>
      obtain ⟨other, rfl, targets⟩ := Option.map_eq_some_iff.mp sameAbove.symm
      exact delegation.outcome_alike targets.symm mode left right
    | none =>
      obtain rfl := Option.map_eq_none_iff.mp sameAbove.symm
      cases isPresent with
      | false => exact .same _
      | true =>
        cases itself with
        | some delegation =>
          obtain ⟨other, rfl, targets⟩ := Option.map_eq_some_iff.mp sameItself.symm
          exact delegation.outcome_alike targets.symm mode left right
        | none =>
          obtain rfl := Option.map_eq_none_iff.mp sameItself.symm
          exact .same _

theorem Partition.Write.Alike.perform {ours theirs : Partition.Write} (alike : ours.Alike theirs)
    (partition : Partition) :
    AnswersAlike Eq (partition.perform ours).1 (partition.perform theirs).1 ∧
      (partition.perform ours).2 = (partition.perform theirs).2 := by
  cases alike with
  | same write => exact ⟨.refl _, rfl⟩
  | @delete left right samePath =>
    have admits : AnswersAlike Eq (partition.admits (.delete left))
        (partition.admits (.delete right)) := by
      simp only [admits, checkOwned, Dn.isAncestorOrSelfOf_congr _ samePath,
        partition.store.holds_eq_of_path samePath, partition.store.hasChildren_eq_of_path samePath]
      exact (AnswersAlike.refuseIf (.storageFailure _ _)).bind_eq fun _ =>
        (AnswersAlike.refuseIf (.noSuchObject _ _)).bind_eq fun _ =>
          .refuseIf (.notAllowedOnNonLeaf _ _)
    have effects : partition.effect (.delete left) = partition.effect (.delete right) := by
      rw [effect, effect, Dn.storageKey_eq_of_path samePath]
    unfold Partition.perform
    rw [effects]
    revert admits
    cases partition.admits (.delete left) <;> cases partition.admits (.delete right) <;>
      rintro ⟨⟩ <;> exact ⟨by constructor; assumption, rfl⟩

namespace Agent

variable {agent : Agent} {contexts : NamingContexts} {left right given other : Dn}
  {mode : ReferralMode}

theorem searchStore_eq_of_path (schema : Schema) (store : Store) (same : left.path = right.path)
    (scope : SearchScope) (filter : Filter) (mode : ReferralMode) :
    searchStore schema store left scope filter mode =
      searchStore schema store right scope filter mode := by
  have gathers (points : List Dn) (entries : List Entry) :
      gather schema filter mode left points entries =
        gather schema filter mode right points entries := by
    induction entries generalizing points with
    | nil => rfl
    | cons entry rest ih => simp only [gather, Dn.beq_congr entry.dn same, ih]
  have inScope : candidates store left scope = candidates store right scope := by
    cases scope with
    | base => rw [candidates, candidates, store.find?_eq_of_path same]
    | oneLevel =>
      rw [candidates, candidates, Store.children, Store.children, store.subtree_eq_of_path same,
        Dn.length_eq_of_path same]
    | subtree => exact store.subtree_eq_of_path same
  have atBase : (fun candidate : Entry => candidate.dn == left) = fun candidate =>
      candidate.dn == right := funext fun candidate => Dn.beq_congr candidate.dn same
  simp only [searchStore, inScope, atBase, store.find?_eq_of_path same, gathers]

theorem covering_alike (contexts : NamingContexts) (same : left.path = right.path) :
    AnswersAlike Eq (covering contexts left) (covering contexts right) := by
  rw [covering, covering, contexts.resolve?_eq_of_path same]
  cases contexts.resolve? right with
  | none => exact .error (.noSuchObject _ _)
  | some partition => exact .ok rfl

theorem existing_alike (partition : Partition) (same : left.path = right.path) :
    AnswersAlike Eq (existing partition left) (existing partition right) := by
  rw [existing, existing, partition.store.find?_eq_of_path same]
  cases partition.store.find? right with
  | none => exact .error (.noSuchObject _ _)
  | some entry => exact .ok rfl

theorem classify_alike (agent : Agent) (kind : OperationKind) (mode : ReferralMode)
    (partition : Partition) (same : left.path = right.path) :
    (agent.classify kind mode partition left).Alike (agent.classify kind mode partition right) := by
  rw [classify, classify, partition.store.find?_eq_of_path same]
  refine Outcome.decide_alike (partition.targets_walk_eq same) ?_ _ mode left right
  split
  · rw [ReferralPolicy.targets_delegationAt?, ReferralPolicy.targets_delegationAt?]
  · rfl

theorem decided_alike {α β : Type} {agree : α → β → Prop} {ours : Partition → Except Error α}
    {theirs : Partition → Except Error β} (agent : Agent) (contexts : NamingContexts)
    (kind : OperationKind) (mode : ReferralMode) (same : left.path = right.path)
    (later : ∀ partition, AnswersAlike agree (ours partition) (theirs partition)) :
    AnswersAlike agree
      (do
        let partition ← covering contexts left
        (agent.classify kind mode partition left).result left
        ours partition)
      (do
        let partition ← covering contexts right
        (agent.classify kind mode partition right).result right
        theirs partition) :=
  (covering_alike contexts same).bind_eq fun partition =>
    ((agent.classify_alike kind mode partition same).result left right).bind_eq fun _ =>
      later partition

theorem read_alike (same : AnswersAlike Dn.SamePath (agent.schema.normalizeDn given)
      (agent.schema.normalizeDn other)) (contexts : NamingContexts) (kind : OperationKind)
    (mode : ReferralMode) :
    AnswersAlike Eq (agent.read contexts kind given mode) (agent.read contexts kind other mode) :=
  same.bind fun _ _ path => agent.decided_alike contexts kind mode path fun partition =>
    existing_alike partition path

theorem exists?_alike (same : AnswersAlike Dn.SamePath (agent.schema.normalizeDn given)
      (agent.schema.normalizeDn other)) (contexts : NamingContexts) (mode : ReferralMode) :
    AnswersAlike Eq (agent.exists? contexts given mode) (agent.exists? contexts other mode) := by
  have reads := read_alike same contexts .exists mode
  unfold exists?
  generalize agent.read contexts .exists given mode = ours at reads ⊢
  generalize agent.read contexts .exists other mode = theirs at reads ⊢
  cases reads with
  | ok _ => exact .ok rfl
  | error alike =>
    cases alike with
    | same refusal => exact .refl _
    | noSuchObject => exact .ok rfl
    | notAllowedOnNonLeaf => exact .error (.notAllowedOnNonLeaf _ _)
    | affectsMultipleDsas => exact .error (.affectsMultipleDsas _ _)
    | insufficientAccessRights => exact .error (.insufficientAccessRights _ _)
    | storageFailure => exact .error (.storageFailure _ _)
    | referral sameCount => exact .error (.referral sameCount)

theorem search_alike (same : AnswersAlike Dn.SamePath (agent.schema.normalizeDn given)
      (agent.schema.normalizeDn other)) (contexts : NamingContexts) (scope : SearchScope)
    (filter : Filter) (mode : ReferralMode) :
    AnswersAlike Eq (agent.search contexts given scope filter mode)
      (agent.search contexts other scope filter mode) :=
  same.bind fun _ _ path => agent.decided_alike contexts .search mode path fun partition =>
    .ok (searchStore_eq_of_path agent.schema partition.store path scope filter mode)

/-- Plans for one partition, whose writes differ at most in how a name is spelled. -/
structure Plan.Alike (ours theirs : Plan) : Prop where
  partition : ours.partition = theirs.partition
  write : ours.write.Alike theirs.write

theorem planModify_alike (same : AnswersAlike Dn.SamePath (agent.schema.normalizeDn given)
      (agent.schema.normalizeDn other)) (contexts : NamingContexts) (changes : List Modification)
    (mode : ReferralMode) :
    AnswersAlike Plan.Alike (agent.planModify contexts given changes mode)
      (agent.planModify contexts other changes mode) :=
  same.bind fun _ _ path => agent.decided_alike contexts .modify mode path fun partition =>
    (existing_alike partition path).bind_eq fun _ =>
      (AnswersAlike.refl _).bind_eq fun _ =>
        (AnswersAlike.refl _).bind_eq fun _ => .ok ⟨rfl, .same _⟩

theorem planDelete_alike (same : AnswersAlike Dn.SamePath (agent.schema.normalizeDn given)
      (agent.schema.normalizeDn other)) (contexts : NamingContexts) (mode : ReferralMode) :
    AnswersAlike Plan.Alike (agent.planDelete contexts given mode)
      (agent.planDelete contexts other mode) :=
  same.bind fun _ _ path => agent.decided_alike contexts .delete mode path fun partition => by
    rw [partition.store.hasChildren_eq_of_path path]
    exact (AnswersAlike.refuseIf (.notAllowedOnNonLeaf _ _)).bind_eq fun _ =>
      .ok ⟨rfl, .delete path⟩

theorem commit_alike {ours theirs : Except Error Plan} (alike : AnswersAlike Plan.Alike ours theirs)
    (contexts : NamingContexts) :
    AnswersAlike Eq (commit contexts ours).1 (commit contexts theirs).1 ∧
      (commit contexts ours).2 = (commit contexts theirs).2 := by
  cases alike with
  | error alike => exact ⟨.error alike, rfl⟩
  | @ok ours theirs agrees =>
    simp only [commit, NamingContexts.perform, agrees.partition]
    cases contexts.partition? theirs.partition with
    | none => exact ⟨.refl _, rfl⟩
    | some partition =>
      obtain ⟨answers, changed⟩ := agrees.write.perform partition
      exact ⟨answers.map fun _ _ _ => rfl, by simp only [changed]⟩

end Agent

/-- A request that goes by one name, about either of two names. -/
inductive Request.Readdresses (given other : Dn) : Request → Request → Prop where
  | modify (changes : List Modification) :
      Readdresses given other (.modify given changes) (.modify other changes)
  | delete : Readdresses given other (.delete given) (.delete other)
  | search (scope : SearchScope) (filter : Filter) :
      Readdresses given other (.search given scope filter) (.search other scope filter)
  | compare (attr value : Text) :
      Readdresses given other (.compare given attr value) (.compare other attr value)
  | lookup : Readdresses given other (.lookup given) (.lookup other)
  | exists : Readdresses given other (.exists given) (.exists other)

/-- An agent answers alike for two spellings of a name, and leaves the same contents. -/
theorem Agent.answer_alike {agent : Agent} {given other : Dn} {request otherRequest : Request}
    (same : AnswersAlike Dn.SamePath (agent.schema.normalizeDn given)
      (agent.schema.normalizeDn other))
    (readdressed : request.Readdresses given other otherRequest) (contexts : NamingContexts)
    (mode : ReferralMode) :
    AnswersAlike Eq (agent.answer contexts request mode).1
        (agent.answer contexts otherRequest mode).1 ∧
      (agent.answer contexts request mode).2 = (agent.answer contexts otherRequest mode).2 := by
  cases readdressed with
  | modify changes => exact commit_alike (planModify_alike same contexts changes mode) contexts
  | delete => exact commit_alike (planDelete_alike same contexts mode) contexts
  | search scope filter =>
    exact ⟨(search_alike same contexts scope filter mode).map fun _ _ => congrArg _, rfl⟩
  | compare attr value =>
    exact ⟨((read_alike same contexts .compare mode).bind_eq fun _ => .refl _).map
      fun _ _ => congrArg _, rfl⟩
  | lookup => exact ⟨(read_alike same contexts .lookup mode).map fun _ _ => congrArg _, rfl⟩
  | «exists» => exact ⟨(exists?_alike same contexts mode).map fun _ _ => congrArg _, rfl⟩

end Directory
