import Directory.Proofs.Partition.Scopes
import Directory.Proofs.Partition.Writes

namespace Directory

/-! # Moved trees

In a tree nothing lies below a free place.  What moves there therefore meets nothing, and the store
afterwards holds each entry as the move leaves it. -/

/-- One of the entries has the name. -/
def Store.HasName (store : Store) (dn : Dn) : Prop :=
  ∃ entry ∈ store.values, (entry.dn == dn) = true

instance (store : Store) (dn : Dn) : Decidable (store.HasName dn) :=
  inferInstanceAs (Decidable (∃ _ ∈ _, _))

/-- The tree under `source` can be put under `target`, which is free or `source` itself. -/
structure Store.HasPlace (store : Store) (suffix source target : Dn) : Prop where
  sourcePlain : source.HasPlainTypes
  plain : target.HasPlainTypes
  sourceOwned : suffix.isAncestorOrSelfOf source = true
  owned : suffix.isAncestorOrSelfOf target = true
  outside : source.isAncestorOf target = false
  free : target.path ≠ source.path → store.holds target = false

/-- What a store has become when the tree under `source` moved and `entry` took its top. -/
structure Store.MovesTree (before after : Store) (source : Dn) (entry : Entry) : Prop where
  top : entry ∈ after.values
  below : ∀ other ∈ before.values, source.isAncestorOf other.dn = true →
    ∃ moved ∈ after.values, other.dn.rebase? source entry.dn = some moved.dn ∧
      moved.attributes = other.attributes
  left : (entry.dn == source) = false →
    ∀ other ∈ after.values, source.isAncestorOrSelfOf other.dn = false
  kept : ∀ other ∈ before.values, source.isAncestorOrSelfOf other.dn = false → other ∈ after.values
  sized : after.size = before.size

namespace Partition

variable {source : Dn} {replacement entry : Entry}

theorem relocated_of_apart (replacement : Entry)
    (apart : source.isAncestorOrSelfOf entry.dn = false) :
    relocated source replacement entry = entry := by
  have other : ¬ (entry.dn == source) = true := by
    intro same
    rw [Dn.isAncestorOrSelfOf_of_beq same] at apart
    contradiction
  rw [relocated, if_neg other, Dn.rebase?, Dn.relativeTo?, apart]
  rfl

theorem relocated_of_below (replacement : Entry) (strict : source.isAncestorOf entry.dn = true) :
    ∃ dn, entry.dn.rebase? source replacement.dn = some dn ∧
      relocated source replacement entry = { entry with dn } := by
  obtain ⟨lies, longer⟩ := Dn.isAncestorOf_iff.mp strict
  have other : ¬ (entry.dn == source) = true := fun same => longer (Dn.beq_iff_path.mp same).symm
  refine ⟨_, Dn.rebase?_eq_some_iff.mpr ⟨lies, rfl⟩, ?_⟩
  rw [relocated, if_neg other, Dn.rebase?_eq_some_iff.mpr ⟨lies, rfl⟩]

end Partition

namespace Store

variable {store : Store} {suffix source target dn above : Dn}
  {entry left right origin replacement : Entry}

theorem IsFiled.eq_of_path (filed : store.IsFiled suffix) (leftListed : left ∈ store.values)
    (rightListed : right ∈ store.values) (same : left.dn.path = right.dn.path) : left = right := by
  rw [filed.mem_values_iff] at leftListed rightListed
  rw [Dn.storageKey_eq_of_path same, rightListed] at leftListed
  exact (Option.some.inj leftListed).symm

theorem IsFiled.nodup_values (filed : store.IsFiled suffix) : store.values.Nodup := by
  refine filed.names_distinct.imp fun distinct same => ?_
  simp [same, Dn.beq_iff_path.mpr] at distinct

theorem IsTree.holds_iff_hasName (tree : store.IsTree suffix) (plain : dn.HasPlainTypes) :
    store.holds dn = true ↔ store.HasName dn := by
  simp only [holds, Option.isSome_iff_exists, HasName, Dn.beq_iff_path,
    tree.isFiled.find?_eq_some_iff tree.hasPlainNames plain]

theorem IsTree.holds_ancestor (tree : store.IsTree suffix) (plain : dn.HasPlainTypes)
    (held : store.holds dn = true) (owned : suffix.isAncestorOrSelfOf above = true)
    (lies : above.isAncestorOrSelfOf dn = true) : store.holds above = true := by
  obtain ⟨rdns⟩ := dn
  induction rdns with
  | nil =>
    have same : above.path = Dn.path ⟨[]⟩ := List.suffix_nil.mp (Dn.isAncestorOrSelfOf_iff.mp lies)
    rwa [holds, find?_eq_of_path store same]
  | cons rdn rest ih =>
    by_cases same : above.path = Dn.path ⟨rdn :: rest⟩
    · rwa [holds, find?_eq_of_path store same]
    · have other : Dn.path ⟨rdn :: rest⟩ ≠ suffix.path := by
        intro atSuffix
        rw [Dn.isAncestorOrSelfOf_iff] at owned lies
        exact same (lies.eq_of_length_le (atSuffix ▸ owned.length_le))
      obtain ⟨parent, isParent, parentHeld⟩ := tree.exists_parent plain held other
      cases isParent
      exact ih (plain.parent rfl) parentHeld (Dn.isAncestorOrSelfOf_parent rfl lies same)

theorem IsTree.not_lies_of_free (tree : store.IsTree suffix)
    (place : store.HasPlace suffix source target) (elsewhere : target.path ≠ source.path)
    (listed : entry ∈ store.values) : target.isAncestorOrSelfOf entry.dn = false := by
  rw [Bool.eq_false_iff]
  intro lies
  have plain := tree.hasPlainNames entry listed
  have held := (tree.holds_iff_hasName plain).mpr ⟨entry, listed, Dn.beq_iff_path.mpr rfl⟩
  have taken := tree.holds_ancestor plain held place.owned lies
  rw [place.free elsewhere] at taken
  contradiction

/-- What lies outside of the tree that moves lies outside of where it goes. -/
theorem IsTree.apart_of_place (tree : store.IsTree suffix)
    (place : store.HasPlace suffix source target) (listed : entry ∈ store.values)
    (apart : source.isAncestorOrSelfOf entry.dn = false) :
    target.isAncestorOrSelfOf entry.dn = false := by
  by_cases stays : target.path = source.path
  · rwa [Bool.eq_false_iff, ne_eq, Dn.isAncestorOrSelfOf_iff, stays, ← Dn.isAncestorOrSelfOf_iff,
      ← ne_eq, ← Bool.eq_false_iff]
  · exact tree.not_lies_of_free place stays listed

theorem IsTree.relocated_path_ne (tree : store.IsTree suffix)
    (place : store.HasPlace suffix source replacement.dn)
    (leftLies : source.isAncestorOrSelfOf left.dn = true)
    (rightListed : right ∈ store.values)
    (rightApart : source.isAncestorOrSelfOf right.dn = false) :
    (Partition.relocated source replacement left).dn.path ≠ right.dn.path := by
  intro same
  obtain ⟨steps, _, moved⟩ := Partition.relocated_path replacement leftLies
  have lies : replacement.dn.isAncestorOrSelfOf right.dn = true :=
    Dn.isAncestorOrSelfOf_iff.mpr ⟨steps, moved.symm.trans same⟩
  rw [tree.apart_of_place place rightListed rightApart] at lies
  contradiction

theorem IsTree.eq_of_relocated_path (tree : store.IsTree suffix)
    (place : store.HasPlace suffix source replacement.dn) (leftListed : left ∈ store.values)
    (rightListed : right ∈ store.values)
    (same : (Partition.relocated source replacement left).dn.path =
      (Partition.relocated source replacement right).dn.path) : left = right := by
  refine tree.isFiled.eq_of_path leftListed rightListed ?_
  cases leftLies : source.isAncestorOrSelfOf left.dn with
  | true =>
    cases rightLies : source.isAncestorOrSelfOf right.dn with
    | true =>
      obtain ⟨steps, whole, moved⟩ := Partition.relocated_path replacement leftLies
      obtain ⟨others, otherWhole, otherMoved⟩ := Partition.relocated_path replacement rightLies
      rw [moved, otherMoved, List.append_cancel_right_eq] at same
      rw [whole, otherWhole, same]
    | false =>
      rw [Partition.relocated_of_apart replacement rightLies] at same
      exact absurd same (tree.relocated_path_ne place leftLies rightListed rightLies)
  | false =>
    rw [Partition.relocated_of_apart replacement leftLies] at same
    cases rightLies : source.isAncestorOrSelfOf right.dn with
    | true => exact absurd same.symm (tree.relocated_path_ne place rightLies leftListed leftLies)
    | false => rwa [Partition.relocated_of_apart replacement rightLies] at same

theorem IsTree.holds_relocated (tree : store.IsTree suffix) (sourcePlain : source.HasPlainTypes)
    (replacement : Entry) (listed : origin ∈ store.values) :
    (store.relocate source replacement).holds
      (Partition.relocated source replacement origin).dn = true := by
  have bound := tree.isFiled.mem_values_iff.mp listed
  have starts := Dn.storageKey_isPrefix_iff sourcePlain (tree.hasPlainNames origin listed)
  refine holds_relocate.mpr ?_
  cases lies : source.isAncestorOrSelfOf origin.dn with
  | true => exact .inl ⟨origin, mem_subtree_iff.mpr ⟨_, bound, starts.mpr lies⟩, rfl⟩
  | false =>
    rw [Partition.relocated_of_apart replacement lies]
    exact .inr ⟨holds_iff.mpr ⟨origin, bound⟩, by simp [starts, lies]⟩

theorem IsTree.exists_origin (tree : store.IsTree suffix) (sourcePlain : source.HasPlainTypes)
    (listed : entry ∈ (store.relocate source replacement).values) :
    ∃ origin ∈ store.values, Partition.relocated source replacement origin = entry := by
  obtain ⟨key, bound⟩ := KeyTable.mem_values_iff.mp listed
  rcases get?_relocate bound with ⟨origin, inside, made, _⟩ | ⟨kept, apart⟩
  · obtain ⟨key, bound, _⟩ := mem_subtree_iff.mp inside
    exact ⟨origin, KeyTable.mem_values_iff.mpr ⟨key, bound⟩, made⟩
  · have seated := tree key entry kept
    rw [seated.keyed, Dn.storageKey_isPrefix_iff sourcePlain seated.plain,
      Bool.not_eq_true] at apart
    exact ⟨entry, KeyTable.mem_values_iff.mpr ⟨key, kept⟩,
      Partition.relocated_of_apart replacement apart⟩

theorem IsTree.mem_relocate_iff (tree : store.IsTree suffix)
    (place : store.HasPlace suffix source replacement.dn) :
    entry ∈ (store.relocate source replacement).values ↔
      ∃ origin ∈ store.values, Partition.relocated source replacement origin = entry := by
  refine ⟨tree.exists_origin place.sourcePlain, ?_⟩
  rintro ⟨origin, listed, rfl⟩
  have held := tree.holds_relocated place.sourcePlain replacement listed
  obtain ⟨found, bound⟩ := holds_iff.mp held
  have foundListed := KeyTable.mem_values_iff.mpr ⟨_, bound⟩
  obtain ⟨other, otherListed, rfl⟩ := tree.exists_origin place.sourcePlain foundListed
  have keyed := (tree.isFiled.relocate place.owned _ _ bound).keyed
  have same := (Dn.storageKey_inj
    (Partition.relocated_hasPlainTypes (tree.hasPlainNames origin listed) place.plain)
    (Partition.relocated_hasPlainTypes (tree.hasPlainNames other otherListed) place.plain)).mp keyed
  rwa [tree.eq_of_relocated_path place listed otherListed same]

/-- The entries after a move are those before it, each as the move leaves it. -/
theorem IsTree.values_relocate_perm (tree : store.IsTree suffix)
    (place : store.HasPlace suffix source replacement.dn) :
    (store.relocate source replacement).values.Perm
      (store.values.map (Partition.relocated source replacement)) := by
  have distinct : (store.relocate source replacement).values.Nodup :=
    (tree.isFiled.relocate place.owned).nodup_values
  have images : (store.values.map (Partition.relocated source replacement)).Nodup := by
    refine List.pairwise_map.mpr (tree.isFiled.nodup_values.imp_of_mem ?_)
    intro left right leftListed rightListed distinct same
    exact distinct (tree.eq_of_relocated_path place leftListed rightListed
      (congrArg (·.dn.path) same))
  refine (List.perm_ext_iff_of_nodup distinct images).mpr fun entry => ?_
  rw [tree.mem_relocate_iff place, List.mem_map]

/-- Where the top goes elsewhere, nothing that moves with it stays under the old name. -/
theorem IsTree.relocated_apart (tree : store.IsTree suffix)
    (place : store.HasPlace suffix source replacement.dn) (stored : store.holds source = true)
    (elsewhere : replacement.dn.path ≠ source.path)
    (lies : source.isAncestorOrSelfOf origin.dn = true) :
    source.isAncestorOrSelfOf (Partition.relocated source replacement origin).dn = false := by
  rw [Bool.eq_false_iff]
  intro stays
  obtain ⟨steps, _, moved⟩ := Partition.relocated_path replacement lies
  have upper : replacement.dn.isAncestorOrSelfOf
      (Partition.relocated source replacement origin).dn = true :=
    Dn.isAncestorOrSelfOf_iff.mpr ⟨steps, moved.symm⟩
  rcases Nat.le_total source.length replacement.dn.length with shorter | longer
  · have below := Dn.isAncestorOrSelfOf_of_length_le stays upper shorter
    have strict := Dn.isAncestorOf_iff.mpr ⟨below, elsewhere.symm⟩
    simp [place.outside] at strict
  · have above := Dn.isAncestorOrSelfOf_of_length_le upper stays longer
    have taken := tree.holds_ancestor place.sourcePlain stored place.owned above
    rw [place.free elsewhere] at taken
    contradiction

theorem IsTree.movesTree (tree : store.IsTree suffix)
    (place : store.HasPlace suffix source replacement.dn) (stored : store.HasName source) :
    store.MovesTree (store.relocate source replacement) source replacement := by
  have image : ∀ {origin}, origin ∈ store.values →
      Partition.relocated source replacement origin ∈ (store.relocate source replacement).values :=
    fun listed => (tree.mem_relocate_iff place).mpr ⟨_, listed, rfl⟩
  refine ⟨?_, fun other listed strict => ?_, fun elsewhere other listed => ?_,
    fun other listed apart => ?_, ?_⟩
  · obtain ⟨top, listed, named⟩ := stored
    have taken := image listed
    rwa [Partition.relocated, if_pos named] at taken
  · obtain ⟨dn, rebased, moved⟩ := Partition.relocated_of_below replacement strict
    exact ⟨_, image listed, by rw [rebased, moved], by rw [moved]⟩
  · obtain ⟨origin, originListed, rfl⟩ := (tree.mem_relocate_iff place).mp listed
    have differs : replacement.dn.path ≠ source.path := by
      intro same
      simp [Dn.beq_iff_path.mpr same] at elsewhere
    cases lies : source.isAncestorOrSelfOf origin.dn with
    | true =>
      have held := (tree.holds_iff_hasName place.sourcePlain).mpr stored
      exact tree.relocated_apart place held differs lies
    | false => rwa [Partition.relocated_of_apart replacement lies]
  · have stays := image listed
    rwa [Partition.relocated_of_apart replacement apart] at stays
  · have counted := (tree.values_relocate_perm place).length_eq
    simpa [KeyTable.size, KeyTable.values] using counted

end Store

namespace Partition

/-- What a partition asks of a move. -/
structure CanRelocate (partition : Partition) (source : Dn) (entry : Entry) : Prop where
  sourceOwned : partition.suffix.isAncestorOrSelfOf source = true
  owned : partition.suffix.isAncestorOrSelfOf entry.dn = true
  stored : partition.store.HasName source
  outside : source.isAncestorOf entry.dn = false
  free : (entry.dn == source) = true ∨ ¬ partition.store.HasName entry.dn
  superior : (entry.dn == partition.suffix) = true ∨
    ∃ parent, entry.dn.parent? = some parent ∧ partition.store.HasName parent

variable {partition reached : Partition} {suffix source dn : Dn} {entry : Entry}

@[simp] theorem suffix_performAll (partition : Partition) (writes : List Write) :
    (partition.performAll writes).suffix = partition.suffix := by
  induction writes generalizing partition with
  | nil => rfl
  | cons write rest ih => exact (ih _).trans (suffix_perform partition write)

theorem checkOwned_eq_ok_iff : partition.checkOwned dn = .ok () ↔
    partition.suffix.isAncestorOrSelfOf dn = true := by
  simp [checkOwned, refuseIf_eq_ok_iff]

theorem checkParent_eq_ok_iff : partition.checkParent dn = .ok () ↔
    (dn == partition.suffix) = true ∨
      ∃ parent, dn.parent? = some parent ∧ partition.store.holds parent = true := by
  unfold checkParent
  split
  · next same => simp [same]
  · next other =>
    cases found : dn.parent? with
    | none => simp [other]
    | some parent => simp [other, refuseIf_eq_ok_iff]

theorem admits_relocate_iff (tree : partition.store.IsTree partition.suffix)
    (sourcePlain : source.HasPlainTypes) (plain : entry.dn.HasPlainTypes) :
    partition.admits (.relocate source entry) = .ok () ↔ partition.CanRelocate source entry := by
  have superiors : partition.checkParent entry.dn = .ok () ↔
      (entry.dn == partition.suffix) = true ∨
        ∃ parent, entry.dn.parent? = some parent ∧ partition.store.HasName parent := by
    rw [checkParent_eq_ok_iff]
    refine or_congr_right (exists_congr fun parent => and_congr_right fun isParent => ?_)
    exact tree.holds_iff_hasName (plain.parent isParent)
  have free : (entry.dn.storageKey != source.storageKey && partition.store.holds entry.dn) = false ↔
      (entry.dn == source) = true ∨ ¬ partition.store.HasName entry.dn := by
    rw [Bool.and_eq_false_iff, bne_eq_false_iff_eq, Dn.storageKey_inj plain sourcePlain,
      Dn.beq_iff_path, ← tree.holds_iff_hasName plain, Bool.not_eq_true]
  simp only [admits, bind_eq_ok_iff, refuseIf_eq_ok_iff, superiors, free, Bool.not_eq_false',
    tree.holds_iff_hasName sourcePlain]
  constructor
  · rintro ⟨_, sourceOwned, _, owned, _, outside, _, stored, _, free, superior⟩
    exact ⟨checkOwned_eq_ok_iff.mp sourceOwned, checkOwned_eq_ok_iff.mp owned, stored, outside,
      free, superior⟩
  · rintro ⟨sourceOwned, owned, stored, outside, free, superior⟩
    exact ⟨(), checkOwned_eq_ok_iff.mpr sourceOwned, (), checkOwned_eq_ok_iff.mpr owned, (),
      outside, (), stored, (), free, superior⟩

theorem CanRelocate.hasPlace (able : partition.CanRelocate source entry)
    (tree : partition.store.IsTree partition.suffix) (sourcePlain : source.HasPlainTypes)
    (plain : entry.dn.HasPlainTypes) :
    partition.store.HasPlace partition.suffix source entry.dn := by
  refine ⟨sourcePlain, plain, able.sourceOwned, able.owned, able.outside, fun elsewhere => ?_⟩
  have other : ¬ (entry.dn == source) = true := fun same => elsewhere (Dn.beq_iff_path.mp same)
  rw [Bool.eq_false_iff, ne_eq, tree.holds_iff_hasName plain]
  exact able.free.resolve_left other

/-- A reached partition carries out a move exactly where `CanRelocate` holds, and then one tree has
moved and nothing else has changed.  The compared types of all names hold no equals sign. -/
theorem relocate_moves_tree {id : Text} {writes : List Write}
    (leads : (empty id suffix).performAll writes = reached)
    (plain : ∀ write ∈ .relocate source entry :: writes, ∀ dn ∈ write.names, dn.HasPlainTypes) :
    ((reached.perform (.relocate source entry)).1 = .ok () ↔ reached.CanRelocate source entry) ∧
      ((reached.perform (.relocate source entry)).1 = .ok () →
        reached.store.MovesTree (reached.perform (.relocate source entry)).2.store source
          entry) := by
  obtain ⟨movePlain, writesPlain⟩ := List.forall_mem_cons.mp plain
  have sourcePlain : source.HasPlainTypes := movePlain source (by simp [Write.names])
  have entryPlain : entry.dn.HasPlainTypes := movePlain entry.dn (by simp [Write.names])
  have tree : reached.store.IsTree reached.suffix := by
    rw [← leads, suffix_performAll]
    exact isTree_performAll writesPlain
  have admitted := admits_relocate_iff tree sourcePlain entryPlain
  cases answer : reached.admits (.relocate source entry) with
  | error refusal =>
    rw [answer] at admitted
    simp only [perform_of_refused answer]
    exact ⟨by simpa using admitted, fun admits => by cases admits⟩
  | ok =>
    have able := admitted.mp answer
    simp only [perform_of_admits answer]
    exact ⟨by simpa using able,
      fun _ => tree.movesTree (able.hasPlace tree sourcePlain entryPlain) able.stored⟩

/-- A unit goes below another one with what lies under it. -/
theorem relocate_moves_tree_of_unit :
    ∃ (suffix source leaf above target : Dn) (reached : Partition),
      Dn.parse "o=a" = .ok suffix ∧ Dn.parse "ou=b,o=a" = .ok source ∧
      Dn.parse "cn=c,ou=b,o=a" = .ok leaf ∧ Dn.parse "ou=d,o=a" = .ok above ∧
      Dn.parse "ou=e,ou=D,o=a" = .ok target ∧
      (empty "p" suffix).performAll [.create (.empty suffix), .create (.empty source),
        .create (.empty leaf), .create (.empty above)] = reached ∧
      (∀ write ∈ [Write.relocate source (.empty target), .create (.empty suffix),
        .create (.empty source), .create (.empty leaf), .create (.empty above)],
        ∀ dn ∈ write.names, dn.HasPlainTypes) ∧
      (reached.perform (.relocate source (.empty target))).1 = .ok () ∧
      reached.CanRelocate source (.empty target) ∧
      reached.store.MovesTree (reached.perform (.relocate source (.empty target))).2.store source
        (.empty target) := by
  have run : (do
      let suffix ← Dn.parse "o=a"
      let source ← Dn.parse "ou=b,o=a"
      let leaf ← Dn.parse "cn=c,ou=b,o=a"
      let above ← Dn.parse "ou=d,o=a"
      let target ← Dn.parse "ou=e,ou=D,o=a"
      let reached := (empty "p" suffix).performAll [.create (.empty suffix),
        .create (.empty source), .create (.empty leaf), .create (.empty above)]
      (reached.perform (.relocate source (.empty target))).1) = .ok () := by
    decide +kernel
  obtain ⟨suffix, suffixRead, run⟩ := bind_eq_ok_iff.mp run
  obtain ⟨source, sourceRead, run⟩ := bind_eq_ok_iff.mp run
  obtain ⟨leaf, leafRead, run⟩ := bind_eq_ok_iff.mp run
  obtain ⟨above, aboveRead, run⟩ := bind_eq_ok_iff.mp run
  obtain ⟨target, targetRead, run⟩ := bind_eq_ok_iff.mp run
  have plain : ∀ write ∈ [Write.relocate source (.empty target), .create (.empty suffix),
      .create (.empty source), .create (.empty leaf), .create (.empty above)],
      ∀ dn ∈ write.names, dn.HasPlainTypes := by
    have suffixPlain := Dn.hasPlainTypes_of_parse suffixRead
    have sourcePlain := Dn.hasPlainTypes_of_parse sourceRead
    have leafPlain := Dn.hasPlainTypes_of_parse leafRead
    have abovePlain := Dn.hasPlainTypes_of_parse aboveRead
    have targetPlain := Dn.hasPlainTypes_of_parse targetRead
    simp [Write.names, Entry.empty, suffixPlain, sourcePlain, leafPlain, abovePlain, targetPlain]
  exact ⟨suffix, source, leaf, above, target, _, suffixRead, sourceRead, leafRead, aboveRead,
    targetRead, rfl, plain, run, (relocate_moves_tree rfl plain).1.mp run,
    (relocate_moves_tree rfl plain).2 run⟩

/-- Where `1.2.3` is called `x=1,cn`, the entry `1.2.3=b,o=a` has the key of `cn=b,x=1,o=a`.  A
move of the latter, which no entry is called, is carried out and puts nothing where it leads. -/
theorem relocate_admits_absent :
    ∃ (schema : Schema) (suffix odd source target : Dn) (reached : Partition),
      Schema.core.extended .oddlyNamed = .ok schema ∧
      schema.normalize "o=a" = .ok suffix ∧ schema.normalize "1.2.3=b,o=a" = .ok odd ∧
      schema.normalize "cn=b,x=1,o=a" = .ok source ∧ schema.normalize "cn=b,o=a" = .ok target ∧
      (empty "p" suffix).performAll [.create (.empty suffix), .create (.empty odd)] = reached ∧
      (reached.perform (.relocate source (.empty target))).1 = .ok () ∧
      ¬ reached.store.HasName source ∧
      ¬ (reached.perform (.relocate source (.empty target))).2.store.HasName target := by
  have run : (do
      let schema ← Schema.core.extended .oddlyNamed
      let suffix ← schema.normalize "o=a"
      let odd ← schema.normalize "1.2.3=b,o=a"
      let source ← schema.normalize "cn=b,x=1,o=a"
      let target ← schema.normalize "cn=b,o=a"
      let reached := (empty "p" suffix).performAll [.create (.empty suffix), .create (.empty odd)]
      let performed := reached.perform (.relocate source (.empty target))
      Except.ok (decide (performed.1 = .ok () ∧ ¬ reached.store.HasName source ∧
        ¬ performed.2.store.HasName target))) = Except.ok (ε := Error) true := by
    decide +kernel
  obtain ⟨schema, built, run⟩ := bind_eq_ok_iff.mp run
  obtain ⟨suffix, suffixRead, run⟩ := bind_eq_ok_iff.mp run
  obtain ⟨odd, oddRead, run⟩ := bind_eq_ok_iff.mp run
  obtain ⟨source, sourceRead, run⟩ := bind_eq_ok_iff.mp run
  obtain ⟨target, targetRead, run⟩ := bind_eq_ok_iff.mp run
  exact ⟨schema, suffix, odd, source, target, _, built, suffixRead, oddRead, sourceRead, targetRead,
    rfl, of_decide_eq_true (Except.ok.inj run)⟩

end Partition

end Directory
