import Directory.Proofs.Partition.Contexts
import Directory.Proofs.Partition.Writes
import Directory.Referral.Policy
import Mathlib.Data.List.Forall2

namespace Directory

/-! # Writes that do not meet

A write of a single entry changes what is kept under its key.  Whether it is admitted, and what is
decided before it, rests on what is kept under the keys that its own starts with and those that
start with its own.  So where neither of two keys starts with the other, the two writes can be
carried out in either order. -/

/-- Neither text starts with the other. -/
def Text.Apart (left right : Text) : Prop := ¬ left <+: right ∧ ¬ right <+: left

instance (left right : Text) : Decidable (left.Apart right) :=
  inferInstanceAs (Decidable (¬ _ ∧ ¬ _))

/-- The stores keep the same under every key that a key starts with or that starts with it. -/
def Store.AgreeAlong (left right : Store) (key : Text) : Prop :=
  ∀ other, other <+: key ∨ key <+: other → left.get? other = right.get? other

/-- The partitions differ at most in what is kept apart from a key. -/
structure Partition.AgreeAlong (left right : Partition) (key : Text) : Prop where
  id : left.id = right.id
  suffix : left.suffix = right.suffix
  store : left.store.AgreeAlong right.store key

/-- The partitions of two states agree one by one. -/
def NamingContexts.AgreeAlong (left right : NamingContexts) (key : Text) : Prop :=
  List.Forall₂ (fun ours theirs : Partition => ours.AgreeAlong theirs key)
    left.partitions right.partitions

/-- What a write of a single entry leaves under which key. -/
inductive Partition.Write.Sets : Partition.Write → Text → Option Entry → Prop where
  | create (entry : Entry) : Sets (.create entry) entry.dn.storageKey (some entry)
  | update (entry : Entry) : Sets (.update entry) entry.dn.storageKey (some entry)
  | delete (dn : Dn) : Sets (.delete dn) dn.storageKey none

theorem Text.Apart.symm {left right : Text} (apart : left.Apart right) : right.Apart left :=
  ⟨apart.2, apart.1⟩

theorem Text.Apart.ne {left right other : Text} (apart : left.Apart right)
    (near : other <+: right ∨ right <+: other) : left ≠ other := by
  rintro rfl
  exact near.elim apart.1 apart.2

theorem Dn.apart_of_plain {left right : Dn} (leftPlain : left.HasPlainTypes)
    (rightPlain : right.HasPlainTypes) (leftBeside : left.isAncestorOrSelfOf right = false)
    (rightBeside : right.isAncestorOrSelfOf left = false) :
    left.storageKey.Apart right.storageKey := by
  constructor
  · rw [storageKey_isPrefix_iff leftPlain rightPlain, leftBeside]
    exact Bool.false_ne_true
  · rw [storageKey_isPrefix_iff rightPlain leftPlain, rightBeside]
    exact Bool.false_ne_true

namespace Store.AgreeAlong

variable {left right : Store} {dn above : Dn} {key : Text}

theorem find?_eq (agree : left.AgreeAlong right dn.storageKey)
    (lies : above.isAncestorOrSelfOf dn = true) : left.find? above = right.find? above :=
  agree _ (.inl (Dn.storageKey_isPrefix_of_lies lies))

theorem holds_eq (agree : left.AgreeAlong right dn.storageKey)
    (lies : above.isAncestorOrSelfOf dn = true) : left.holds above = right.holds above := by
  rw [holds, holds, agree.find?_eq lies]

theorem hasChildren_eq (agree : left.AgreeAlong right dn.storageKey) :
    left.hasChildren dn = right.hasChildren dn := by
  have same : (left.filter fun key _ => isUnder dn key) =
      right.filter fun key _ => isUnder dn key := by
    refine KeyTable.ext_get? fun key => ?_
    rw [KeyTable.get?_filter, KeyTable.get?_filter]
    by_cases under : isUnder dn key = true
    · rw [agree key (.inr (isUnder_iff.mp under))]
    · cases left.get? key <;> cases right.get? key <;> simp [Option.filter_some, under]
  rw [hasChildren, hasChildren, subtree, subtree, same]

end Store.AgreeAlong

theorem AncestorWalk.along_congr {left right : Store} {names : List Dn}
    (same : ∀ dn ∈ names, left.find? dn = right.find? dn) :
    along left names = along right names := by
  induction names with
  | nil => rfl
  | cons dn rest ih =>
    rw [along, along, same dn List.mem_cons_self,
      ih fun other listed => same other (List.mem_cons_of_mem _ listed)]

namespace Partition

variable {left right partition : Partition} {dn above : Dn} {key other : Text} {write : Write}
  {bound? : Option Entry}

namespace AgreeAlong

theorem walk_eq (agree : left.AgreeAlong right dn.storageKey)
    (lies : above.isAncestorOrSelfOf dn = true) : left.walk above = right.walk above := by
  have same : ∀ name ∈ above.ancestors.takeWhile fun name => right.suffix.length ≤ name.length,
      left.store.find? name = right.store.find? name := by
    intro name listed
    have higher := Dn.isAncestorOf_of_mem_ancestors ((List.takeWhile_sublist _).mem listed)
    exact agree.store.find?_eq
      (Dn.isAncestorOrSelfOf_trans (Dn.isAncestorOf_iff.mp higher.1).1 lies)
  rw [walk, walk, AncestorWalk.upTo, AncestorWalk.upTo, agree.suffix,
    AncestorWalk.along_congr same]

theorem checkParent_eq (agree : left.AgreeAlong right dn.storageKey) :
    left.checkParent dn = right.checkParent dn := by
  rw [checkParent, checkParent, agree.suffix]
  split
  · rfl
  · split
    · rfl
    · next parent isParent =>
      rw [agree.store.holds_eq (Dn.parent_isAncestorOrSelfOf isParent)]

theorem checkOwned_eq (agree : left.AgreeAlong right key) (dn : Dn) :
    left.checkOwned dn = right.checkOwned dn := by
  rw [checkOwned, checkOwned, agree.id, agree.suffix]

end AgreeAlong

theorem Write.Sets.admits_eq (sets : write.Sets key bound?) (agree : left.AgreeAlong right key) :
    left.admits write = right.admits write := by
  cases sets with
  | create entry =>
    rw [admits, admits, agree.checkOwned_eq, agree.checkParent_eq,
      agree.store.holds_eq (Dn.isAncestorOrSelfOf_refl entry.dn)]
  | update entry =>
    rw [admits, admits, agree.checkOwned_eq,
      agree.store.holds_eq (Dn.isAncestorOrSelfOf_refl entry.dn)]
  | delete dn =>
    rw [admits, admits, agree.checkOwned_eq, agree.store.hasChildren_eq,
      agree.store.holds_eq (Dn.isAncestorOrSelfOf_refl dn)]

theorem Write.Sets.get?_effect (sets : write.Sets key bound?) (partition : Partition)
    (other : Text) :
    (partition.effect write).get? other =
      if key = other then bound? else partition.store.get? other := by
  cases sets with
  | create entry | update entry => rw [effect, Store.put, KeyTable.get?_insert]
  | delete dn => rw [effect, KeyTable.get?_erase]

theorem Write.Sets.get?_perform (sets : write.Sets key bound?) (partition : Partition)
    (other : Text) :
    (partition.perform write).2.store.get? other =
      if partition.admits write = .ok () ∧ key = other then bound?
      else partition.store.get? other := by
  cases answer : partition.admits write with
  | ok => simp only [perform_of_admits answer, sets.get?_effect, true_and]
  | error refusal => simp only [perform_of_refused answer, reduceCtorEq, false_and, if_false]

theorem Write.Sets.agreeAlong_perform (sets : write.Sets key bound?) (apart : key.Apart other)
    (partition : Partition) : partition.AgreeAlong (partition.perform write).2 other := by
  refine ⟨(id_perform _ _).symm, (suffix_perform _ _).symm, fun found near => ?_⟩
  rw [sets.get?_perform, if_neg fun ⟨_, same⟩ => apart.ne near same]

theorem answer_perform (partition : Partition) (write : Write) :
    (partition.perform write).1 = partition.admits write := by
  cases answer : partition.admits write with
  | ok => rw [perform_of_admits answer]
  | error refusal => rw [perform_of_refused answer]

theorem perform_comm {first second : Write} {firstKey secondKey : Text}
    {firstBound? secondBound? : Option Entry} (firstSets : first.Sets firstKey firstBound?)
    (secondSets : second.Sets secondKey secondBound?) (apart : firstKey.Apart secondKey)
    (partition : Partition) :
    ((partition.perform first).2.perform second).2 =
      ((partition.perform second).2.perform first).2 := by
  have secondAdmits : partition.admits second = (partition.perform first).2.admits second :=
    secondSets.admits_eq (firstSets.agreeAlong_perform apart partition)
  have firstAdmits : partition.admits first = (partition.perform second).2.admits first :=
    firstSets.admits_eq (secondSets.agreeAlong_perform apart.symm partition)
  have different : firstKey ≠ secondKey := apart.ne (.inl List.prefix_rfl)
  have stores : ((partition.perform first).2.perform second).2.store =
      ((partition.perform second).2.perform first).2.store := by
    refine KeyTable.ext_get? fun other => ?_
    rw [secondSets.get?_perform, firstSets.get?_perform, firstSets.get?_perform,
      secondSets.get?_perform, ← secondAdmits, ← firstAdmits]
    by_cases atFirst : firstKey = other
    · have notSecond : secondKey ≠ other := fun same => different (atFirst.trans same.symm)
      simp only [notSecond, and_false, if_false]
    · simp only [atFirst, and_false, if_false]
  have ids : ((partition.perform first).2.perform second).2.id =
      ((partition.perform second).2.perform first).2.id := by
    simp only [id_perform]
  have suffixes : ((partition.perform first).2.perform second).2.suffix =
      ((partition.perform second).2.perform first).2.suffix := by
    simp only [suffix_perform]
  have fields := congr (congr (congrArg Partition.mk ids) suffixes) stores
  exact fields

end Partition

theorem find?_cases_of_forall₂ {α β : Type} {relates : α → β → Prop} {left : List α}
    {right : List β} {ours : α → Bool} {theirs : β → Bool}
    (related : List.Forall₂ relates left right) (same : ∀ a b, relates a b → ours a = theirs b) :
    (left.find? ours = none ∧ right.find? theirs = none) ∨
      ∃ a b, left.find? ours = some a ∧ right.find? theirs = some b ∧ relates a b := by
  induction related with
  | nil => exact .inl ⟨rfl, rfl⟩
  | @cons a b _ _ first _ ih =>
    rw [List.find?_cons, List.find?_cons, same a b first]
    cases theirs b with
    | true => exact .inr ⟨a, b, rfl, rfl, first⟩
    | false => exact ih

namespace NamingContexts

variable {left right contexts : NamingContexts} {id : Text} {write : Partition.Write}
  {key other : Text} {bound? : Option Entry}

theorem AgreeAlong.refl (contexts : NamingContexts) (key : Text) :
    contexts.AgreeAlong contexts key :=
  List.forall₂_same.mpr fun _ _ => ⟨rfl, rfl, fun _ _ => rfl⟩

theorem AgreeAlong.resolve?_cases (agree : left.AgreeAlong right key) (dn : Dn) :
    (left.resolve? dn = none ∧ right.resolve? dn = none) ∨
      ∃ ours theirs, left.resolve? dn = some ours ∧ right.resolve? dn = some theirs ∧
        ours.AgreeAlong theirs key :=
  find?_cases_of_forall₂ agree fun _ _ alike => by rw [alike.suffix]

theorem AgreeAlong.answer_eq (agree : left.AgreeAlong right key) (sets : write.Sets key bound?)
    (id : Text) : (left.perform id write).1 = (right.perform id write).1 := by
  have found : (left.partition? id = none ∧ right.partition? id = none) ∨
      ∃ ours theirs, left.partition? id = some ours ∧ right.partition? id = some theirs ∧
        ours.AgreeAlong theirs key :=
    find?_cases_of_forall₂ agree fun _ _ alike => by rw [alike.id]
  rcases found with ⟨ours, theirs⟩ | ⟨ours, theirs, isOurs, isTheirs, alike⟩
  · rw [perform, perform, ours, theirs]
  · simp only [perform, isOurs, isTheirs, Partition.answer_perform, sets.admits_eq alike]

theorem agreeAlong_perform (distinct : contexts.HasDistinctIds) (sets : write.Sets key bound?)
    (apart : key.Apart other) (id : Text) :
    contexts.AgreeAlong (contexts.perform id write).2 other := by
  rw [AgreeAlong, partitions_perform distinct, List.forall₂_map_right_iff, List.forall₂_same]
  intro partition _
  split
  · exact sets.agreeAlong_perform apart partition
  · exact ⟨rfl, rfl, fun _ _ => rfl⟩

theorem perform_comm (distinct : contexts.HasDistinctIds) {first second : Partition.Write}
    {firstKey secondKey : Text} {firstBound? secondBound? : Option Entry}
    (firstSets : first.Sets firstKey firstBound?) (secondSets : second.Sets secondKey secondBound?)
    (apart : firstKey.Apart secondKey) (firstId secondId : Text) :
    ((contexts.perform firstId first).2.perform secondId second).2 =
      ((contexts.perform secondId second).2.perform firstId first).2 := by
  have partitions : ((contexts.perform firstId first).2.perform secondId second).2.partitions =
      ((contexts.perform secondId second).2.perform firstId first).2.partitions := by
    rw [partitions_perform (distinct.perform _ _), partitions_perform (distinct.perform _ _),
      partitions_perform distinct, partitions_perform distinct, List.map_map, List.map_map]
    refine List.map_congr_left fun partition _ => ?_
    simp only [Function.comp_apply]
    by_cases byFirst : (partition.id == firstId) = true <;>
      by_cases bySecond : (partition.id == secondId) = true <;>
      simp only [byFirst, bySecond, if_true, if_false, Partition.id_perform, Bool.false_eq_true]
    exact Partition.perform_comm firstSets secondSets apart partition
  exact congrArg NamingContexts.mk partitions

end NamingContexts

end Directory
