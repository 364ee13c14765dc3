import Directory.Proofs.Partition.Tree
import Directory.Schema.Canonical
import Directory.Schema.Core

namespace Directory

/-! # Partitions hold trees

Every write keeps a partition filed, whether it is carried out or refused.  It keeps the tree as
long as no compared type of its names holds an equals sign.  A type that does can make the key
of one name the key of another, and then a superior can be missing. -/

/-- The names that a write speaks of. -/
def Partition.Write.names : Partition.Write → List Dn
  | create entry | update entry => [entry.dn]
  | delete dn => [dn]
  | relocate source entry => [source, entry.dn]

namespace Partition

variable {partition : Partition} {suffix source dn : Dn} {entry : Entry} {write : Write}

theorem superior_of_checkParent (checked : partition.checkParent dn = .ok ())
    (other : dn.path ≠ partition.suffix.path) :
    ∃ parent, dn.parent? = some parent ∧ partition.store.holds parent = true := by
  have notSuffix : ¬ (dn == partition.suffix) = true := fun same => other (Dn.beq_iff_path.mp same)
  rw [checkParent, if_neg notSuffix] at checked
  split at checked
  · contradiction
  · next parent isParent =>
    exact ⟨parent, isParent, by simpa [refuseIf_eq_ok_iff] using checked⟩

theorem owned_of_checkOwned (checked : partition.checkOwned dn = .ok ()) :
    partition.suffix.isAncestorOrSelfOf dn = true := by
  simpa [checkOwned, refuseIf_eq_ok_iff] using checked

theorem admits_create (admitted : partition.admits (.create entry) = .ok ()) :
    partition.checkOwned entry.dn = .ok () ∧ partition.checkParent entry.dn = .ok () := by
  simp only [admits, bind_eq_ok_iff, refuseIf_eq_ok_iff] at admitted
  obtain ⟨_, owned, _, _, superior⟩ := admitted
  exact ⟨owned, superior⟩

theorem admits_update (admitted : partition.admits (.update entry) = .ok ()) :
    partition.checkOwned entry.dn = .ok () ∧ partition.store.holds entry.dn = true := by
  simp only [admits, bind_eq_ok_iff, refuseIf_eq_ok_iff] at admitted
  obtain ⟨_, owned, held⟩ := admitted
  exact ⟨owned, by simpa using held⟩

theorem admits_delete (admitted : partition.admits (.delete dn) = .ok ()) :
    partition.store.holds dn = true ∧ partition.store.hasChildren dn = false := by
  simp only [admits, bind_eq_ok_iff, refuseIf_eq_ok_iff] at admitted
  obtain ⟨_, _, _, held, childless⟩ := admitted
  exact ⟨by simpa using held, childless⟩

theorem admits_relocate (admitted : partition.admits (.relocate source entry) = .ok ()) :
    partition.checkOwned source = .ok () ∧ partition.checkOwned entry.dn = .ok () ∧
      source.isAncestorOf entry.dn = false ∧ partition.checkParent entry.dn = .ok () := by
  simp only [admits, bind_eq_ok_iff, refuseIf_eq_ok_iff] at admitted
  obtain ⟨_, sourceOwned, _, owned, _, outside, _, _, _, _, superior⟩ := admitted
  exact ⟨sourceOwned, owned, outside, superior⟩

theorem isFiled_effect (filed : partition.store.IsFiled partition.suffix)
    (admitted : partition.admits write = .ok ()) :
    (partition.effect write).IsFiled partition.suffix := by
  cases write with
  | create entry => exact filed.put (owned_of_checkOwned (admits_create admitted).1)
  | update entry => exact filed.put (owned_of_checkOwned (admits_update admitted).1)
  | delete dn => exact filed.erase dn.storageKey
  | relocate source entry =>
    obtain ⟨_, owned, _, _⟩ := admits_relocate admitted
    exact filed.relocate (owned_of_checkOwned owned)

theorem isTree_effect (tree : partition.store.IsTree partition.suffix)
    (plain : ∀ dn ∈ write.names, dn.HasPlainTypes) (admitted : partition.admits write = .ok ()) :
    (partition.effect write).IsTree partition.suffix := by
  cases write with
  | create entry =>
    obtain ⟨owned, superior⟩ := admits_create admitted
    exact tree.put ⟨⟨rfl, owned_of_checkOwned owned⟩, plain _ (by simp [Write.names]),
      superior_of_checkParent superior⟩
  | update entry =>
    obtain ⟨owned, held⟩ := admits_update admitted
    have entryPlain : entry.dn.HasPlainTypes := plain _ (by simp [Write.names])
    exact tree.put ⟨⟨rfl, owned_of_checkOwned owned⟩, entryPlain,
      tree.exists_parent entryPlain held⟩
  | delete dn =>
    obtain ⟨held, childless⟩ := admits_delete admitted
    exact tree.erase fun key entry found starts =>
      Store.eq_storageKey_of_not_hasChildren childless held found starts
  | relocate source entry =>
    obtain ⟨sourceOwned, owned, outside, superior⟩ := admits_relocate admitted
    exact tree.relocate (plain _ (by simp [Write.names])) (plain _ (by simp [Write.names]))
      (owned_of_checkOwned sourceOwned) (owned_of_checkOwned owned) outside
      (superior_of_checkParent superior)

/-- A write changes nothing but what is kept under a key that starts with that of a name it speaks
of. -/
theorem get?_effect_of_outside {key : Text} (filed : partition.store.IsFiled partition.suffix)
    (outside : ∀ dn ∈ write.names, ¬ dn.storageKey <+: key) :
    (partition.effect write).get? key = partition.store.get? key := by
  have apart : ∀ dn ∈ write.names, dn.storageKey ≠ key :=
    fun dn named same => outside dn named (same ▸ List.prefix_rfl)
  cases write with
  | create entry | update entry =>
    rw [effect, Store.put, KeyTable.get?_insert, if_neg (apart entry.dn List.mem_cons_self)]
  | delete dn => rw [effect, KeyTable.get?_erase, if_neg (apart dn List.mem_cons_self)]
  | relocate source entry =>
    have sourceOutside := outside source List.mem_cons_self
    have targetOutside := outside entry.dn (List.mem_cons_of_mem _ List.mem_cons_self)
    rw [effect, Store.get?_foldl_put_of_apart]
    · refine Option.ext fun kept => ?_
      rw [Store.get?_outside, and_iff_left sourceOutside]
    · rintro moved listed rfl
      obtain ⟨origin, inside, rfl⟩ := List.mem_map.mp listed
      obtain ⟨key, bound, starts⟩ := Store.mem_subtree_iff.mp inside
      rw [(filed key origin bound).keyed] at starts
      exact (relocated_storageKey starts).elim sourceOutside targetOutside

/-- What holds of the store at the beginning and is kept by every admitted write holds at the
end. -/
theorem performAll_induction {motive : Store → Prop} {writes : List Write}
    (start : motive partition.store)
    (step : ∀ (current : Partition) (write : Write), write ∈ writes →
      current.suffix = partition.suffix → motive current.store → current.admits write = .ok () →
      motive (current.effect write)) :
    motive (partition.performAll writes).store := by
  induction writes generalizing partition with
  | nil => exact start
  | cons write rest ih =>
    have first : motive (partition.perform write).2.store := by
      cases answer : partition.admits write with
      | ok =>
        rw [perform_of_admits answer]
        exact step partition write List.mem_cons_self rfl start answer
      | error =>
        rw [perform_of_refused answer]
        exact start
    refine ih first fun current later member sameSuffix => ?_
    rw [suffix_perform] at sameSuffix
    exact step current later (List.mem_cons_of_mem _ member) sameSuffix

theorem isFiled_performAll (id : Text) (suffix : Dn) (writes : List Write) :
    ((empty id suffix).performAll writes).store.IsFiled suffix := by
  refine performAll_induction (motive := fun store => store.IsFiled suffix)
    (Store.isFiled_empty suffix) ?_
  intro current write _ sameSuffix filed admitted
  obtain rfl : current.suffix = suffix := sameSuffix
  exact isFiled_effect filed admitted

theorem isTree_performAll {id : Text} {suffix : Dn} {writes : List Write}
    (plain : ∀ write ∈ writes, ∀ dn ∈ write.names, dn.HasPlainTypes) :
    ((empty id suffix).performAll writes).store.IsTree suffix := by
  refine performAll_induction (motive := fun store => store.IsTree suffix)
    (Store.isTree_empty suffix) ?_
  intro current write member sameSuffix tree admitted
  obtain rfl : current.suffix = suffix := sameSuffix
  exact isTree_effect tree (plain write member) admitted

/-- Every entry of a reached partition is bound to the key of its own name, which lies at or
below the suffix, and no two names are equal.  A refused write leaves the partition as it was.
As long as no compared type holds an equals sign, the superior of every entry but the one at
the suffix is there. -/
theorem performAll_tree {id : Text} {suffix : Dn} {writes : List Write} {reached : Partition}
    (leads : (empty id suffix).performAll writes = reached) :
    (∀ key entry, (key, entry) ∈ reached.store.bindings →
        key = entry.dn.storageKey ∧ suffix.isAncestorOrSelfOf entry.dn = true) ∧
      reached.store.values.Pairwise (fun left right => (left.dn == right.dn) = false) ∧
      (∀ write refusal, (reached.perform write).1 = .error refusal →
        (reached.perform write).2 = reached) ∧
      ((∀ write ∈ writes, ∀ dn ∈ write.names, dn.HasPlainTypes) →
        ∀ entry ∈ reached.store.values, (entry.dn == suffix) = false →
          ∃ parent above, entry.dn.parent? = some parent ∧
            reached.store.find? parent = some above ∧ (above.dn == parent) = true) := by
  subst leads
  have filed := isFiled_performAll id suffix writes
  refine ⟨fun key entry bound => ?_, filed.names_distinct, fun write refusal refused => ?_,
    fun plain entry listed other => ?_⟩
  · have place := filed key entry (KeyTable.get?_eq_some_iff.mpr bound)
    exact ⟨place.keyed, place.owned⟩
  · cases answer : ((empty id suffix).performAll writes).admits write with
    | ok => simp [perform_of_admits answer] at refused
    | error => rw [perform_of_refused answer]
  · have tree : ((empty id suffix).performAll writes).store.IsTree suffix := isTree_performAll plain
    obtain ⟨key, bound⟩ := KeyTable.mem_values_iff.mp listed
    have seated := tree key entry bound
    have longer : entry.dn.path ≠ suffix.path := by
      intro same
      simp [Dn.beq_iff_path.mpr same] at other
    obtain ⟨parent, isParent, held⟩ := seated.superior longer
    obtain ⟨above, found⟩ := Store.holds_iff.mp held
    have named := tree.path_of_find? (seated.plain.parent isParent) found
    exact ⟨parent, above, isParent, found, Dn.beq_iff_path.mpr named⟩

/-- A move within a tree of three entries, and a refused write after it. -/
theorem performAll_tree_moved :
    ∃ suffix source leaf target : Dn, ∃ reached : Partition,
      Dn.parse "o=a" = .ok suffix ∧ Dn.parse "ou=b,o=a" = .ok source ∧
      Dn.parse "cn=c,ou=b,o=a" = .ok leaf ∧ Dn.parse "ou=d,o=a" = .ok target ∧
      (empty "p" suffix).performAll [.create (.empty suffix), .create (.empty source),
        .create (.empty leaf), .relocate source (.empty target), .delete target] = reached ∧
      reached.store.size = 3 ∧ reached.store.holds source = false ∧
      ∀ entry ∈ reached.store.values, (entry.dn == suffix) = false →
        ∃ parent above, entry.dn.parent? = some parent ∧
          reached.store.find? parent = some above ∧ (above.dn == parent) = true := by
  have run : (do
      let suffix ← Dn.parse "o=a"
      let source ← Dn.parse "ou=b,o=a"
      let leaf ← Dn.parse "cn=c,ou=b,o=a"
      let target ← Dn.parse "ou=d,o=a"
      let reached := (empty "p" suffix).performAll [.create (.empty suffix),
        .create (.empty source), .create (.empty leaf), .relocate source (.empty target),
        .delete target]
      Except.ok (reached.store.size, reached.store.holds source)) =
        Except.ok (ε := Error) (3, false) := by
    decide +kernel
  obtain ⟨suffix, suffixRead, run⟩ := bind_eq_ok_iff.mp run
  obtain ⟨source, sourceRead, run⟩ := bind_eq_ok_iff.mp run
  obtain ⟨leaf, leafRead, run⟩ := bind_eq_ok_iff.mp run
  obtain ⟨target, targetRead, run⟩ := bind_eq_ok_iff.mp run
  obtain ⟨sized, gone⟩ := Prod.mk.inj (Except.ok.inj run)
  refine ⟨suffix, source, leaf, target, _, suffixRead, sourceRead, leafRead, targetRead, rfl,
    sized, gone, (performAll_tree rfl).2.2.2 ?_⟩
  have suffixPlain := Dn.hasPlainTypes_of_parse suffixRead
  have sourcePlain := Dn.hasPlainTypes_of_parse sourceRead
  have leafPlain := Dn.hasPlainTypes_of_parse leafRead
  have targetPlain := Dn.hasPlainTypes_of_parse targetRead
  simp [Write.names, Entry.empty, suffixPlain, sourcePlain, leafPlain, targetPlain]

/-- The key of `1.2.3=b,o=a` is that of `cn=b,x=1,o=a` where the type `1.2.3` is called
`x=1,cn`.  The name `ou=c,cn=b,x=1,o=a` is then admitted, and after a move of what is not there
its new superior is missing. -/
theorem performAll_superior_absent :
    ∃ (schema : Schema) (suffix odd leaf source target : Dn) (reached : Partition),
      Schema.core.extended .oddlyNamed = .ok schema ∧
      schema.normalize "o=a" = .ok suffix ∧ schema.normalize "1.2.3=b,o=a" = .ok odd ∧
      schema.normalize "ou=c,cn=b,x=1,o=a" = .ok leaf ∧
      schema.normalize "cn=b,x=1,o=a" = .ok source ∧ schema.normalize "cn=b,o=a" = .ok target ∧
      (empty "p" suffix).performAll [.create (.empty suffix), .create (.empty odd),
        .create (.empty leaf), .relocate source (.empty target)] = reached ∧
      ∃ entry ∈ reached.store.values, (entry.dn == suffix) = false ∧
        ∀ parent ∈ entry.dn.parent?, reached.store.holds parent = false := by
  have run : (do
      let schema ← Schema.core.extended .oddlyNamed
      let suffix ← schema.normalize "o=a"
      let odd ← schema.normalize "1.2.3=b,o=a"
      let leaf ← schema.normalize "ou=c,cn=b,x=1,o=a"
      let source ← schema.normalize "cn=b,x=1,o=a"
      let target ← schema.normalize "cn=b,o=a"
      let reached := (empty "p" suffix).performAll [.create (.empty suffix),
        .create (.empty odd), .create (.empty leaf), .relocate source (.empty target)]
      Except.ok (decide (∃ entry ∈ reached.store.values, (entry.dn == suffix) = false ∧
        ∀ parent ∈ entry.dn.parent?, reached.store.holds parent = false))) =
        Except.ok (ε := Error) true := by
    decide +kernel
  obtain ⟨schema, built, run⟩ := bind_eq_ok_iff.mp run
  obtain ⟨suffix, suffixRead, run⟩ := bind_eq_ok_iff.mp run
  obtain ⟨odd, oddRead, run⟩ := bind_eq_ok_iff.mp run
  obtain ⟨leaf, leafRead, run⟩ := bind_eq_ok_iff.mp run
  obtain ⟨source, sourceRead, run⟩ := bind_eq_ok_iff.mp run
  obtain ⟨target, targetRead, run⟩ := bind_eq_ok_iff.mp run
  exact ⟨schema, suffix, odd, leaf, source, target, _, built, suffixRead, oddRead, leafRead,
    sourceRead, targetRead, rfl, of_decide_eq_true (Except.ok.inj run)⟩

end Partition

end Directory
