import Directory.Proofs.Agent.PlainMoves
import Directory.Proofs.Partition.MovesBack
import Directory.Proofs.Service.Access
import Directory.Proofs.Service.Conformance
import Directory.Proofs.Service.Frames

namespace Directory

/-! # Moves are undone by moves

What a move was checked for holds of the way back, read the other way round: the entry has left a
free place under a superior that stayed where it was.  Going back therefore succeeds and leaves what
there was before. -/

namespace Agent

variable {agent : Agent} {contexts after : NamingContexts} {mode : ReferralMode}
  {partition : Partition} {given givenSuperior home superior name : Dn} {old : Rdn} {before : Entry}
  {givenOld : Rdn} {givenAbove : List Rdn}

section Return

variable
  (can : agent.CanMove contexts mode given givenSuperior home superior old partition before)
  (plain : (home.child old).HasPlainTypes) (superiorPlain : superior.HasPlainTypes)
include can plain superiorPlain

theorem CanMove.hasPlace :
    partition.store.HasPlace partition.suffix (home.child old) (superior.child old) := by
  refine ⟨plain, superiorPlain.child (plain old List.mem_cons_self),
    (NamingContexts.mem_of_resolve? can.resolved).2,
    Dn.isAncestorOrSelfOf_trans (NamingContexts.mem_of_resolve? can.superiorResolved).2
      (Dn.parent_isAncestorOrSelfOf rfl), can.outside, fun elsewhere => ?_⟩
  exact can.free.resolve_left fun same => elsewhere (Dn.beq_iff_path.mp same)

variable (tree : partition.store.IsTree partition.suffix)
include tree

/-- The new place does not lie above the old one, where it would have been taken. -/
theorem CanMove.target_apart (upper : name.isAncestorOrSelfOf home = true) :
    (superior.child old).isAncestorOrSelfOf name = false := by
  rw [Bool.eq_false_iff]
  intro lies
  have place := can.hasPlace plain superiorPlain
  have strict : (superior.child old).isAncestorOf (home.child old) = true :=
    Dn.isAncestorOf_of_parent rfl (Dn.isAncestorOrSelfOf_trans lies upper)
  obtain ⟨above, other⟩ := Dn.isAncestorOf_iff.mp strict
  have held : partition.store.holds (home.child old) = true :=
    Store.holds_iff.mpr ⟨before, can.stored⟩
  have taken := tree.holds_ancestor plain held place.owned above
  rw [place.free other] at taken
  contradiction

theorem CanMove.target_outside : (superior.child old).isAncestorOf (home.child old) = false := by
  rw [Bool.eq_false_iff]
  intro strict
  obtain ⟨lies, other⟩ := Dn.isAncestorOf_iff.mp strict
  have upper := Dn.isAncestorOrSelfOf_parent rfl lies other
  rw [can.target_apart plain superiorPlain tree (Dn.isAncestorOrSelfOf_refl home)] at upper
  contradiction

/-- At and above both superiors the move changes nothing. -/
theorem CanMove.find?_effect_of_upper
    (upper : name.isAncestorOrSelfOf home = true ∨ name.isAncestorOrSelfOf superior = true) :
    Store.find? (partition.effect (.plainMove home superior old before)) name =
      partition.store.find? name := by
  have place := can.hasPlace plain superiorPlain
  have names : ∀ dn ∈ (Partition.Write.plainMove home superior old before).names,
      dn.HasPlainTypes := by
    simp [Partition.Write.names, place.sourcePlain, place.plain]
  have namePlain : name.HasPlainTypes := by
    rcases upper with upper | upper
    · exact plain.of_lies (Dn.isAncestorOrSelfOf_trans upper (Dn.parent_isAncestorOrSelfOf rfl))
    · exact superiorPlain.of_lies upper
  refine Partition.find?_effect_of_apart tree.isFiled names namePlain ?_
  simp only [Partition.Write.names, List.forall_mem_cons, List.not_mem_nil, false_imp_iff,
    implies_true, and_true]
  rcases upper with upper | upper
  · exact ⟨Dn.child_not_lies upper old, can.target_apart plain superiorPlain tree upper⟩
  · refine ⟨?_, Dn.child_not_lies upper old⟩
    rw [Bool.eq_false_iff]
    intro lies
    have strict : (home.child old).isAncestorOf (superior.child old) = true :=
      Dn.isAncestorOf_of_parent rfl (Dn.isAncestorOrSelfOf_trans lies upper)
    rw [can.outside] at strict
    contradiction

theorem CanMove.isTree_effect :
    Store.IsTree (partition.effect (.plainMove home superior old before)) partition.suffix := by
  have place := can.hasPlace plain superiorPlain
  refine Partition.isTree_effect tree ?_ can.admits
  simp [Partition.Write.names, place.sourcePlain, place.plain]

theorem CanMove.free_effect : (home.child old == superior.child old) = true ∨
    Store.holds (partition.effect (.plainMove home superior old before)) (home.child old) =
      false := by
  have place := can.hasPlace plain superiorPlain
  have held : partition.store.HasName (home.child old) :=
    (tree.holds_iff_hasName plain).mp (Store.holds_iff.mpr ⟨before, can.stored⟩)
  have moves : partition.store.MovesTree
      (partition.effect (.plainMove home superior old before)) (home.child old)
      { before with dn := superior.child old } := tree.movesTree place held
  cases same : superior.child old == home.child old with
  | true => exact .inl (Dn.beq_iff_path.mpr (Dn.beq_iff_path.mp same).symm)
  | false =>
    refine .inr ?_
    have afterTree := can.isTree_effect plain superiorPlain tree
    rw [Bool.eq_false_iff, ne_eq, afterTree.holds_iff_hasName plain]
    rintro ⟨other, listed, named⟩
    have apart := moves.left same other listed
    rw [Dn.isAncestorOrSelfOf_of_beq named] at apart
    contradiction

theorem CanMove.handsOver_of_after
    (upper : name.isAncestorOrSelfOf home = true ∨ name.isAncestorOrSelfOf superior = true)
    (handsOver : (partition.after (.plainMove home superior old before)).HandsOver name) :
    partition.HandsOver name := by
  refine handsOver.of_agree rfl fun point above _ => ?_
  exact can.find?_effect_of_upper plain superiorPlain tree
    (upper.imp (Dn.isAncestorOrSelfOf_trans above) (Dn.isAncestorOrSelfOf_trans above))

/-- No delegation lies above the new place, since none was at or above the new superior. -/
theorem CanMove.undelegated_after (rootless : partition.suffix.isRoot = false) :
    ((partition.after (.plainMove home superior old before)).walk
      (superior.child old)).delegation? = none := by
  cases ended : ((partition.after (.plainMove home superior old before)).walk
      (superior.child old)).delegation? with
  | none => rfl
  | some delegation =>
    have named : (partition.after (.plainMove home superior old before)).suffix.isRoot = false :=
      rootless
    obtain ⟨entry, nearest, _⟩ := Partition.nearest_of_walk named ended
    obtain ⟨above, other⟩ := Dn.isAncestorOf_iff.mp nearest.above
    have upper : delegation.point.isAncestorOrSelfOf superior = true :=
      Dn.isAncestorOrSelfOf_parent rfl above other
    refine absurd ?_ can.undelegated
    exact can.handsOver_of_after plain superiorPlain tree
      (.inr (Dn.isAncestorOrSelfOf_refl superior))
      ⟨delegation.point, entry, upper, nearest.owned, nearest.stored, nearest.isReferral⟩

theorem CanMove.reversed (unmanaged : mode ≠ .manageDsaIt) (distinct : contexts.HasDistinctIds)
    (separated : contexts.IsSeparated)
    (performed : contexts.Performs partition (.plainMove home superior old before) after)
    (steps : given.rdns = givenOld :: givenAbove) :
    agent.CanMove after mode (givenSuperior.child givenOld) ⟨givenAbove⟩ superior home old
      (partition.after (.plainMove home superior old before))
      { before with dn := superior.child old } := by
  have place := can.hasPlace plain superiorPlain
  have rootless := separated.named partition performed.member
  obtain ⟨_, _, whole, oldNormalized, homeNormalized⟩ :=
    Schema.normalizeDn_eq_cons can.normalized rfl
  obtain ⟨rfl, rfl⟩ := List.cons.inj (steps.symm.trans whole)
  have longer : (home.child old).path ≠ partition.suffix.path := by
    intro same
    simpa [Dn.beq_iff_path.mpr same] using can.notSuffix
  have homeOwned : partition.suffix.isAncestorOrSelfOf home = true :=
    Dn.isAncestorOrSelfOf_parent rfl place.sourceOwned longer.symm
  obtain ⟨_, isHome, homeHeld⟩ := tree.exists_parent plain
    (Store.holds_iff.mpr ⟨before, can.stored⟩) longer
  cases isHome
  obtain ⟨undelegated, top, isTop, shown⟩ :=
    (classify_eq_proceed_iff unmanaged).mp can.proceeds
  obtain rfl : before = top := Option.some.inj (can.stored.symm.trans isTop)
  have found : Store.find? (partition.effect (.plainMove home superior old before))
      (superior.child old) = some { before with dn := superior.child old } :=
    Partition.find?_effect_relocate tree.isFiled can.admits can.stored
      (Dn.beq_iff_path.mpr (tree.path_of_find? plain can.stored))
  have sameLeaf : Entry.SameButSuperiors { before with dn := home.child old }
      { before with dn := superior.child old } := ⟨rfl, rfl⟩
  refine {
    normalized := Schema.normalizeDn_child can.superiorNormalized oldNormalized
    superiorNormalized := homeNormalized
    resolved := performed.resolve?_eq distinct separated place.owned
    superiorResolved := performed.resolve?_eq distinct separated homeOwned
    stored := found
    superiorHeld := ?_
    notSuffix := ?_
    undelegated := ?_
    proceeds := ?_
    outside := can.target_outside plain superiorPlain tree
    free := can.free_effect plain superiorPlain tree
    accepted := Schema.validate_of_sameButSuperiors sameLeaf can.accepted }
  · rw [Store.holds, can.find?_effect_of_upper plain superiorPlain tree
      (.inl (Dn.isAncestorOrSelfOf_refl home))]
    exact homeHeld
  · rw [Bool.eq_false_iff]
    intro same
    have superiorOwned := (NamingContexts.mem_of_resolve? can.superiorResolved).2
    have below := Dn.child_not_lies superiorOwned old
    rw [Bool.eq_false_iff, ne_eq, Dn.isAncestorOrSelfOf_iff, Dn.beq_iff_path.mp same] at below
    exact below List.suffix_rfl
  · intro handsOver
    obtain ⟨point, entry, above, owned, stored, referral⟩ := can.handsOver_of_after plain
      superiorPlain tree (.inl (Dn.isAncestorOrSelfOf_refl home)) handsOver
    have delegates : partition.DelegatesAt (home.child old) point entry :=
      ⟨Dn.isAncestorOf_of_parent rfl above, owned, stored, referral⟩
    obtain ⟨delegation, ended⟩ := delegates.exists_walk rootless
    cases undelegated.symm.trans ended
  · exact (classify_eq_proceed_iff unmanaged).mpr
      ⟨can.undelegated_after plain superiorPlain tree rootless, _, found, shown⟩

theorem CanMove.sameEntries_of_return {last : NamingContexts} (unmanaged : mode ≠ .manageDsaIt)
    (distinct : contexts.HasDistinctIds) (separated : contexts.IsSeparated)
    (performed : contexts.Performs partition (.plainMove home superior old before) after)
    (steps : given.rdns = givenOld :: givenAbove)
    (returned : after.Performs (partition.after (.plainMove home superior old before))
      (.plainMove superior home old { before with dn := superior.child old }) last) :
    last.SameEntries contexts := by
  have reversed :=
    can.reversed plain superiorPlain tree unmanaged distinct separated performed steps
  have place := can.hasPlace plain superiorPlain
  have back := reversed.hasPlace place.plain (plain.of_lies (Dn.parent_isAncestorOrSelfOf rfl))
  exact performed.sameEntries_of_return returned distinct (tree.sameEntries_of_return place
    (can.isTree_effect plain superiorPlain tree) back rfl can.stored rfl rfl)

end Return

/-- The canonical name is plain, and the partition that covers it holds a tree. -/
def StandsInTree (agent : Agent) (contexts : NamingContexts) (given : Dn) : Prop :=
  ∀ dn, agent.schema.normalizeDn given = .ok dn → dn.HasPlainTypes ∧
    ∀ partition, contexts.resolve? dn = some partition → partition.store.IsTree partition.suffix

end Agent

namespace Service

variable {config : Config} {service : Service} {start contexts : NamingContexts}
  {given givenSuperior : Dn} {principal? : Option Dn} {mode : ReferralMode} {deleteOld : Bool}
  {response : Response} {now : Instant} {context : Context}

theorem Reachable.standsInTree (reached : Reachable config service contexts)
    (named : service.agent.schema.HasPlainNames) (given : Dn) :
    service.agent.StandsInTree contexts given := by
  intro dn normalized
  refine ⟨Schema.hasPlainTypes_of_normalizeDn named normalized, fun partition resolved => ?_⟩
  exact reached.isTree named partition (NamingContexts.mem_of_resolve? resolved).1

/-- The answer to a move that keeps the naming step, and what there is after it. -/
def movePlainly (service : Service) (now : Instant) (contexts : NamingContexts)
    (mode : ReferralMode) (principal? : Option Dn) (given superior : Dn) (deleteOld : Bool) :
    Except Error Response × NamingContexts :=
  (service.execute now contexts ⟨.move given (some superior) none deleteOld, mode, principal?⟩).1

theorem movePlainly_eq (started : ofConfig config = .ok (service, start))
    (clear : config.access.bars .move principal? = false) (now : Instant)
    (contexts : NamingContexts) (mode : ReferralMode) (given superior : Dn) (deleteOld : Bool) :
    service.movePlainly now contexts mode principal? given superior deleteOld =
      service.agent.answer contexts (.move given (some superior) none deleteOld) mode := by
  obtain ⟨passed, passes⟩ := exists_passAll started
    ⟨.move given (some superior) none deleteOld, mode, principal?⟩ clear now
  obtain ⟨becomes, sameMode, _⟩ := Stage.becomes_of_passAll passes
  simp only [movePlainly, execute, passes, sameMode]
  generalize passed.request = request at becomes
  cases becomes
  rfl

/-- A move that is done can be undone: the way back succeeds for the same caller in the same mode,
at any later time, and leaves entries equal to those before.  The mode is not that of a caller who
manages delegations, and the names stand in a tree. -/
theorem moves_undone (reached : Reachable config service contexts)
    (unmanaged : mode ≠ .manageDsaIt) (inTree : service.agent.StandsInTree contexts given)
    (superiorInTree : service.agent.StandsInTree contexts givenSuperior)
    (answered : (service.movePlainly now contexts mode principal? given givenSuperior deleteOld).1 =
      .ok response) :
    ∃ step above, given.rdns = step :: above ∧ ∀ later again,
      let moved := service.movePlainly now contexts mode principal? given givenSuperior deleteOld
      let returned := service.movePlainly later moved.2 mode principal? (givenSuperior.child step)
        ⟨above⟩ again
      returned.1 = .ok .done ∧ returned.2.SameEntries contexts := by
  obtain ⟨start, _, started, _⟩ := id reached
  have distinct := reached.hasDistinctIds
  have separated := reached.isSeparated
  have clear : config.access.bars .move principal? = false := not_barred_of_execute started answered
  rw [movePlainly_eq started clear] at answered
  obtain ⟨home, superior, old, partition, before, can⟩ :=
    Agent.canMove_of_answer distinct separated.named answered
  obtain ⟨plain, trees⟩ := inTree _ can.normalized
  obtain ⟨superiorPlain, _⟩ := superiorInTree _ can.superiorNormalized
  have tree := trees partition can.resolved
  obtain ⟨step, above, steps, _, _⟩ := Schema.normalizeDn_eq_cons can.normalized rfl
  obtain ⟨after, moves, performed⟩ := can.exists_performs distinct separated.named deleteOld
  have reversed :=
    can.reversed plain superiorPlain tree unmanaged distinct separated performed steps
  have afterDistinct : after.HasDistinctIds := by
    rw [NamingContexts.hasDistinctIds_iff, performed.frame_eq distinct]
    exact NamingContexts.hasDistinctIds_iff.mp distinct
  have afterSeparated : after.IsSeparated := by
    rw [NamingContexts.isSeparated_iff_frame, performed.frame_eq distinct]
    exact NamingContexts.isSeparated_iff_frame.mp separated
  refine ⟨step, above, steps, fun later again => ?_⟩
  obtain ⟨last, returns, returned⟩ :=
    reversed.exists_performs afterDistinct afterSeparated.named again
  simp only [movePlainly_eq started clear, moves, returns, true_and]
  exact can.sameEntries_of_return plain superiorPlain tree unmanaged distinct separated performed
    steps returned

/-- A unit goes below its neighbour, with the entry under it, and comes back. -/
theorem moves_undone_of_unit :
    ∃ (config : Config) (service : Service) (contexts : NamingContexts) (given neighbour above : Dn)
      (step : Rdn),
      Reachable config service contexts ∧ contexts.entryCount = 4 ∧
      service.agent.StandsInTree contexts given ∧ service.agent.StandsInTree contexts neighbour ∧
      (service.movePlainly ⟨2024, 1, 1, 0, 0, 0⟩ contexts .throw (some given) given neighbour
        false).1 = .ok .done ∧
      (service.movePlainly ⟨2024, 1, 1, 0, 0, 0⟩ contexts .throw (some given) given neighbour
        false).2 ≠ contexts ∧
      given = above.child step ∧ ∀ later again,
        let moved := service.movePlainly ⟨2024, 1, 1, 0, 0, 0⟩ contexts .throw (some given) given
          neighbour false
        let returned := service.movePlainly later moved.2 .throw (some given) (neighbour.child step)
          above again
        returned.1 = .ok .done ∧ returned.2.SameEntries contexts := by
  have run : (do
      let given ← Dn.parse "OU=B,o=a"
      let leaf ← Dn.parse "cn=c,ou=b,o=a"
      let neighbour ← Dn.parse "ou=d,o=a"
      let built ← ofConfig
        (Config.single "p" "o=a" [("objectClass", ["organization"]), ("o", ["a"])])
      let contexts := built.1.after built.2 [
        .seed (.ofValues given [("objectClass", ["organizationalUnit"]), ("ou", ["b"])]),
        .seed (.ofValues leaf [("objectClass", ["person"]), ("cn", ["c"]), ("sn", ["s"])]),
        .seed (.ofValues neighbour [("objectClass", ["organizationalUnit"]), ("ou", ["d"])])]
      let moved := built.1.movePlainly ⟨2024, 1, 1, 0, 0, 0⟩ contexts .throw (some given) given
        neighbour false
      Except.ok (decide (built.1.agent.schema.HasPlainNames ∧ contexts.entryCount = 4 ∧
        moved.1 = .ok .done ∧ moved.2 ≠ contexts))) = Except.ok (ε := Error) true := by
    decide +kernel
  obtain ⟨given, _, run⟩ := bind_eq_ok_iff.mp run
  obtain ⟨leaf, _, run⟩ := bind_eq_ok_iff.mp run
  obtain ⟨neighbour, _, run⟩ := bind_eq_ok_iff.mp run
  obtain ⟨⟨service, start⟩, started, run⟩ := bind_eq_ok_iff.mp run
  obtain ⟨named, counted, answered, changed⟩ := of_decide_eq_true (Except.ok.inj run)
  have reached := (Reachable.atStart started).after [
    .seed (.ofValues given [("objectClass", ["organizationalUnit"]), ("ou", ["b"])]),
    .seed (.ofValues leaf [("objectClass", ["person"]), ("cn", ["c"]), ("sn", ["s"])]),
    .seed (.ofValues neighbour [("objectClass", ["organizationalUnit"]), ("ou", ["d"])])]
  have inTree := reached.standsInTree named
  obtain ⟨step, above, steps, undone⟩ :=
    moves_undone reached (by decide) (inTree given) (inTree neighbour) answered
  exact ⟨_, service, _, given, neighbour, ⟨above⟩, step, reached, counted, inTree given,
    inTree neighbour, answered, changed, congrArg Dn.mk steps, undone⟩

/-- Where `1.2.3` is called `x=1,cn`, the entry `1.2.3=b,o=a` moves as `cn=b,x=1,o=a`, and is not
found under the name that it went to. -/
theorem move_not_undone :
    ∃ (config : Config) (service : Service) (contexts : NamingContexts) (given suffix above : Dn)
      (step : Rdn),
      Reachable config service contexts ∧ given = above.child step ∧
      (service.movePlainly ⟨2024, 1, 1, 0, 0, 0⟩ contexts .throw (some suffix) given suffix
        false).1 = .ok .done ∧
      (service.movePlainly ⟨2024, 1, 1, 0, 0, 0⟩
          (service.movePlainly ⟨2024, 1, 1, 0, 0, 0⟩ contexts .throw (some suffix) given suffix
            false).2
          .throw (some suffix) (suffix.child step) above false).1 =
        .error (.noSuchObject "cn=b,o=a") := by
  have run : (do
      let suffix ← Dn.parse "o=a"
      let above ← Dn.parse "x=1,o=a"
      let step ← Rdn.parse "cn=b"
      let odd ← Dn.parse "1.2.3=b,o=a"
      let built ← ofConfig
        (.oddlyNamed [("objectClass", ["organization"]), ("o", ["a"])])
      let contexts := built.1.after built.2 [
        .seed (.ofValues odd [("objectClass", ["organization", "extensibleObject"]),
          ("1.2.3", ["b"]), ("cn", ["b"]), ("o", ["b"])])]
      let moved := built.1.movePlainly ⟨2024, 1, 1, 0, 0, 0⟩ contexts .throw (some suffix)
        (above.child step) suffix false
      Except.ok (decide (moved.1 = .ok .done ∧
        (built.1.movePlainly ⟨2024, 1, 1, 0, 0, 0⟩ moved.2 .throw (some suffix)
          (suffix.child step) above false).1 = .error (.noSuchObject "cn=b,o=a")))) =
        Except.ok (ε := Error) true := by
    decide +kernel
  obtain ⟨suffix, _, run⟩ := bind_eq_ok_iff.mp run
  obtain ⟨above, _, run⟩ := bind_eq_ok_iff.mp run
  obtain ⟨step, _, run⟩ := bind_eq_ok_iff.mp run
  obtain ⟨odd, _, run⟩ := bind_eq_ok_iff.mp run
  obtain ⟨⟨service, start⟩, started, run⟩ := bind_eq_ok_iff.mp run
  obtain ⟨answered, refused⟩ := of_decide_eq_true (Except.ok.inj run)
  exact ⟨_, service, _, above.child step, suffix, above, step, (Reachable.atStart started).after _,
    rfl, answered, refused⟩

end Service

end Directory
