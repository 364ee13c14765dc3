import Directory.Proofs.Partition.Superiors
import Directory.Proofs.Referral.NearestDelegation

namespace Directory

/-! # Which ancestors a walk looks at

A walk looks at the tops of a name from its parent on, one for each depth, and ends with the first
delegation it meets, or else at the suffix. -/

namespace Dn

open NamingContexts (depthsDown depthsDown_of_lt depthsDown_succ mem_depthsDown)

theorem top_cons (rdn : Rdn) {above : List Rdn} {depth : Nat} (within : depth ≤ above.length) :
    top ⟨rdn :: above⟩ depth = top ⟨above⟩ depth := by
  simp only [top, length, List.length_cons]
  rw [Nat.succ_sub within, List.drop_succ_cons]

theorem takeWhile_ancestors_go {bound : Nat} (positive : 0 < bound) (rdns : List Rdn) :
    ((ancestors.go rdns).takeWhile fun ancestor => bound ≤ ancestor.length) =
      (depthsDown bound rdns.length).map (top ⟨rdns⟩) := by
  induction rdns with
  | nil => rw [List.length_nil, depthsDown_of_lt positive]; rfl
  | cons rdn above ih =>
    rw [ancestors.go]
    by_cases deep : bound ≤ above.length + 1
    · have whole : top ⟨rdn :: above⟩ (above.length + 1) = ⟨rdn :: above⟩ := by simp [top, length]
      rw [List.takeWhile_cons_of_pos (by simp [length, deep]), ih, List.length_cons,
        depthsDown_succ deep, List.map_cons, whole]
      congr 1
      exact List.map_congr_left fun depth listed => (top_cons rdn (mem_depthsDown.mp listed).2).symm
    · rw [List.takeWhile_cons_of_neg (by simp [length, deep]), List.length_cons,
        depthsDown_of_lt (Nat.lt_of_not_le deep), List.map_nil]

end Dn

/-- What is found of a name in a store. -/
def Store.look (store : Store) (dn : Dn) : AncestorStep := ⟨dn, store.find? dn⟩

namespace AncestorWalk

open ReferralPolicy (delegationAt?)

variable {store : Store} {dn point : Dn} {names nearer : List Dn} {entry : Entry}

theorem along_cons_of_clear (clear : delegationAt? dn (store.find? dn) = none) :
    along store (dn :: names) =
      ⟨store.look dn :: (along store names).steps, (along store names).delegation?⟩ := by
  rw [along, Store.look]
  cases found : store.find? dn with
  | none => rfl
  | some entry =>
    cases referral : entry.isReferral with
    | false => simp [referral]
    | true => simp [delegationAt?, found, Option.filter_some, referral] at clear

theorem along_of_clear
    (clear : ∀ dn ∈ names, delegationAt? dn (store.find? dn) = none) :
    along store names = ⟨names.map store.look, none⟩ := by
  induction names with
  | nil => rfl
  | cons dn rest ih =>
    rw [along_cons_of_clear (clear dn List.mem_cons_self),
      ih fun dn member => clear dn (List.mem_cons_of_mem _ member), List.map_cons]

theorem along_of_met (farther : List Dn)
    (clear : ∀ dn ∈ nearer, delegationAt? dn (store.find? dn) = none)
    (stored : store.find? point = some entry) (referral : entry.isReferral = true) :
    along store (nearer ++ point :: farther) =
      ⟨(nearer ++ [point]).map store.look, some (.ofEntry point entry)⟩ := by
  induction nearer with
  | nil => simp [along, stored, referral, Store.look]
  | cons dn rest ih =>
    rw [List.cons_append, along_cons_of_clear (clear dn List.mem_cons_self),
      ih fun dn member => clear dn (List.mem_cons_of_mem _ member), List.cons_append, List.map_cons]

end AncestorWalk

namespace Partition

open NamingContexts (depthsDown depthsDown_eq_of_append mem_depthsDown)

variable {partition : Partition} {name point : Dn} {entry : Entry} {depth : Nat}

/-- A walk of the tops of the name from its parent to the given depth, every one of which was
looked up. -/
structure WalksTo (partition : Partition) (name : Dn) (depth : Nat) : Prop where
  shallow : partition.suffix.length ≤ depth
  deep : depth < name.length
  steps : (partition.walk name).steps =
    (depthsDown depth (name.length - 1)).map fun step => partition.store.look (name.top step)

theorem walked_eq (named : partition.suffix.isRoot = false)
    (lies : partition.suffix.isAncestorOf name = true) :
    partition.walked name =
      (depthsDown partition.suffix.length (name.length - 1)).map name.top := by
  obtain ⟨rdns⟩ := name
  cases rdns with
  | nil => simp [Dn.isAncestorOf, Dn.length] at lies
  | cons rdn above =>
    rw [walked, Dn.ancestors, Dn.takeWhile_ancestors_go (Dn.isRoot_eq_false_iff.mp named)]
    exact List.map_congr_left fun depth listed =>
      (Dn.top_cons rdn (mem_depthsDown.mp listed).2).symm

theorem walk_of_clear (named : partition.suffix.isRoot = false)
    (lies : partition.suffix.isAncestorOf name = true)
    (clear : (partition.walk name).delegation? = none) :
    partition.WalksTo name partition.suffix.length := by
  rw [delegation?_walk lies, List.findSome?_eq_none_iff] at clear
  refine ⟨Nat.le_refl _, Dn.length_lt_of_isAncestorOf lies, ?_⟩
  rw [walk_of_lies lies, AncestorWalk.along_of_clear clear, walked_eq named lies, List.map_map]
  rfl

theorem walk_of_met (named : partition.suffix.isRoot = false)
    (lies : partition.suffix.isAncestorOf name = true) {delegation : Delegation}
    (met : (partition.walk name).delegation? = some delegation) :
    ∃ depth, partition.WalksTo name depth ∧ delegation.point = name.top depth := by
  have shorter := Dn.length_lt_of_isAncestorOf lies
  rw [delegation?_walk lies] at met
  obtain ⟨nearer, point, farther, walked, found, clear⟩ := List.findSome?_eq_some_iff.mp met
  obtain ⟨entry, stored, referral, rfl⟩ := ReferralPolicy.delegationAt?_eq_some_iff.mp found
  have whole := walked_eq named lies
  rw [walked] at whole
  obtain ⟨before, rest, cut, rfl, ends⟩ := List.map_eq_append_iff.mp whole.symm
  obtain ⟨depth, after, rfl, rfl, rfl⟩ := List.map_eq_cons_iff.mp ends
  have listed : depth ∈ depthsDown partition.suffix.length (name.length - 1) := by simp [cut]
  have within := mem_depthsDown.mp listed
  refine ⟨depth, ⟨within.1, by omega, ?_⟩, rfl⟩
  rw [walk_of_lies lies, walked, AncestorWalk.along_of_met _ clear stored referral,
    depthsDown_eq_of_append cut, ← List.map_singleton, ← List.map_append, List.map_map]
  rfl

/-- A name at the suffix or not below it has nothing to walk.  From any other name a walk looks up
every ancestor from the parent to the nearest delegation, which is what it returns, or if there is
none to the suffix. -/
theorem walk_reaches_nearest_delegation (named : partition.suffix.isRoot = false) (name : Dn) :
    (partition.suffix.isAncestorOf name = false → partition.walk name = .empty) ∧
      (partition.suffix.isAncestorOf name = true → ∃ depth, partition.WalksTo name depth ∧
        ((∃ entry, partition.NearestDelegation name (name.top depth) entry ∧
            (partition.walk name).delegation? =
              some ⟨name.top depth, entry.delegationTargets⟩) ∨
          (∀ point entry, ¬ partition.DelegatesAt name point entry) ∧
            (name.top depth).path = partition.suffix.path ∧
            (partition.walk name).delegation? = none)) ∧
      ((partition.walk name).isDelegated = true ↔
        ∃ point entry, partition.DelegatesAt name point entry) := by
  refine ⟨fun outside => ?_, fun lies => ?_, fun delegated => ?_, ?_⟩
  · rw [walk, AncestorWalk.upTo, if_neg (by simp [outside])]
  · cases met : (partition.walk name).delegation? with
    | none =>
      refine ⟨_, walk_of_clear named lies met, .inr ⟨fun point entry delegates => ?_, ?_, rfl⟩⟩
      · obtain ⟨_, ended⟩ := delegates.exists_walk named
        rw [met] at ended
        contradiction
      · exact Dn.path_top_of_lies (Dn.isAncestorOf_iff.mp lies).1
    | some delegation =>
      obtain ⟨depth, walks, point⟩ := walk_of_met named lies met
      obtain ⟨entry, nearest, same⟩ := nearest_of_walk named met
      rw [point] at nearest same
      exact ⟨depth, walks, .inl ⟨entry, nearest, congrArg some same.symm⟩⟩
  · obtain ⟨_, ended⟩ := Option.isSome_iff_exists.mp delegated
    obtain ⟨entry, nearest, _⟩ := nearest_of_walk named ended
    exact ⟨_, entry, nearest.toDelegatesAt⟩
  · rintro ⟨_, _, delegates⟩
    exact Option.isSome_iff_exists.mpr (delegates.exists_walk named)

/-- Two entries above the name hand their trees over, and the walk ends at the inner one, in the
spelling of the name. -/
theorem walk_reaches_nearest_delegation_of_leaf :
    ∃ (suffix outer inner name : Dn) (partition : Partition),
      Dn.parse "o=a" = .ok suffix ∧ Dn.parse "ou=b,o=a" = .ok outer ∧
      Dn.parse "ou=c,ou=b,o=a" = .ok inner ∧ Dn.parse "cn=e,cn=d,OU=c,ou=B,o=a" = .ok name ∧
      (empty "p" suffix).performAll
        [.create (.empty suffix),
        .create (.ofValues outer [("objectClass", ["referral"]), ("ref", ["ldap://far/o=a"])]),
        .create (.ofValues inner [("objectClass", ["referral"]), ("ref", ["ldap://near/o=a"])])] =
        partition ∧
      ∃ depth entry, partition.WalksTo name depth ∧
        partition.NearestDelegation name (name.top depth) entry ∧
        (partition.walk name).delegation? = some ⟨name.top depth, entry.delegationTargets⟩ := by
  have run : (do
      let suffix ← Dn.parse "o=a"
      let outer ← Dn.parse "ou=b,o=a"
      let inner ← Dn.parse "ou=c,ou=b,o=a"
      let name ← Dn.parse "cn=e,cn=d,OU=c,ou=B,o=a"
      let partition := (empty "p" suffix).performAll
        [.create (.empty suffix),
        .create (.ofValues outer [("objectClass", ["referral"]), ("ref", ["ldap://far/o=a"])]),
        .create (.ofValues inner [("objectClass", ["referral"]), ("ref", ["ldap://near/o=a"])])]
      Except.ok (decide (partition.suffix.isRoot = false ∧
        partition.suffix.isAncestorOf name = true ∧ inner.isAncestorOf name = true ∧
        partition.suffix.isAncestorOrSelfOf inner = true ∧
        (partition.store.find? inner).any Entry.isReferral = true))) =
        Except.ok (ε := Error) true := by
    decide +kernel
  obtain ⟨suffix, suffixRead, run⟩ := bind_eq_ok_iff.mp run
  obtain ⟨outer, outerRead, run⟩ := bind_eq_ok_iff.mp run
  obtain ⟨inner, innerRead, run⟩ := bind_eq_ok_iff.mp run
  obtain ⟨name, nameRead, run⟩ := bind_eq_ok_iff.mp run
  obtain ⟨named, lies, above, owned, held⟩ := of_decide_eq_true (Except.ok.inj run)
  obtain ⟨_, stored, referral⟩ := (Option.any_eq_true _ _).mp held
  obtain ⟨depth, walks, ⟨entry, nearest, returned⟩ | ⟨clear, _⟩⟩ :=
    (walk_reaches_nearest_delegation named name).2.1 lies
  · exact ⟨suffix, outer, inner, name, _, suffixRead, outerRead, innerRead, nameRead, rfl,
      depth, entry, walks, nearest, returned⟩
  · exact absurd ⟨above, owned, stored, referral⟩ (clear inner _)

end Partition

end Directory
