import Directory.Proofs.Partition.TreeMoves
import Mathlib.Data.List.Perm.Subperm

namespace Directory

/-! # Reading a tree by its keys

The entries at and below a name are read in one go: from the key of the name on, up to the first key
that does not start with it.  Keys ascend, so that this passes over nothing.  Where names are plain
it gives the tree under the name, each entry right before all that lies below it. -/

/-- What lies between a text and one of its continuations continues it too. -/
theorem Text.isPrefix_of_between {start between later : Text}
    (notBefore : precedes between start = false) (before : precedes between later = true)
    (continues : start <+: later) : start <+: between := by
  induction start generalizing between later with
  | nil => exact List.nil_prefix
  | cons c rest ih =>
    obtain ⟨others, rfl⟩ := continues
    cases between with
    | nil => simp [precedes] at notBefore
    | cons d more =>
      by_cases same : d = c
      · subst same
        simp only [List.cons_append, precedes, if_true] at notBefore before
        exact (List.prefix_cons_inj d).mpr (ih notBefore before (List.prefix_append rest others))
      · simp only [List.cons_append, precedes, if_neg same] at notBefore before
        rw [before] at notBefore
        contradiction

section Stretches

variable {α : Type u} {members front back : List α} {before under : α → Bool}

theorem filter_eq_takeWhile
    (closed : members.Pairwise fun left right => under right = true → under left = true) :
    members.filter under = members.takeWhile under := by
  induction members with
  | nil => rfl
  | cons first rest ih =>
    obtain ⟨here, later⟩ := List.pairwise_cons.mp closed
    by_cases kept : under first = true
    · rw [List.filter_cons_of_pos kept, List.takeWhile_cons_of_pos kept, ih later]
    · rw [List.filter_cons_of_neg kept, List.takeWhile_cons_of_neg kept, List.filter_eq_nil_iff]
      exact fun member listed laterKept => kept (here member listed laterKept)

/-- What is kept stands together behind all that comes before it. -/
theorem filter_eq_takeWhile_dropWhile
    (ordered : members.Pairwise fun left right => before right = true → before left = true)
    (convex : members.Pairwise fun left right =>
      before left = false → under right = true → under left = true)
    (apart : ∀ member ∈ members, before member = true → under member = false) :
    members.filter under = (members.dropWhile before).takeWhile under := by
  induction members with
  | nil => rfl
  | cons first rest ih =>
    obtain ⟨early, laterOrdered⟩ := List.pairwise_cons.mp ordered
    obtain ⟨firstApart, restApart⟩ := List.forall_mem_cons.mp apart
    by_cases skipped : before first = true
    · rw [List.dropWhile_cons_of_pos skipped,
        List.filter_cons_of_neg (by simp [firstApart skipped]),
        ih laterOrdered (List.pairwise_cons.mp convex).2 restApart]
    · rw [List.dropWhile_cons_of_neg skipped]
      have reached : ∀ member ∈ first :: rest, before member = false := by
        refine List.forall_mem_cons.mpr ⟨Bool.eq_false_iff.mpr skipped, fun member listed => ?_⟩
        exact Bool.eq_false_iff.mpr fun late => skipped (early member listed late)
      exact filter_eq_takeWhile
        (convex.imp_of_mem fun listed _ keeps => keeps (reached _ listed))

theorem apart_of_filter_between (whole : members = front ++ members.filter under ++ back) :
    ∀ member ∈ front ++ back, under member = false := by
  have again : (members.filter under).filter under = members.filter under :=
    List.filter_eq_self.mpr fun _ kept => (List.mem_filter.mp kept).2
  have counted := congrArg (fun listed => (listed.filter under).length) whole
  simp only [List.filter_append, again, List.length_append] at counted
  have none : (front ++ back).filter under = [] := by
    rw [← List.length_eq_zero_iff, List.filter_append, List.length_append]
    omega
  simpa using List.filter_eq_nil_iff.mp none

end Stretches

namespace Store

variable {store : Store} {suffix dn : Dn} {entry other : Entry}

/-- The entries from the key of a name on, up to the first key that does not start with it. -/
def scan (store : Store) (dn : Dn) : List Entry :=
  ((store.bindings.dropWhile fun binding => binding.1.precedes dn.storageKey).takeWhile
    fun binding => isUnder dn binding.1).map Prod.snd

theorem subtree_eq_scan (store : Store) (dn : Dn) : store.subtree dn = store.scan dn := by
  refine congrArg (List.map Prod.snd) (filter_eq_takeWhile_dropWhile ?_ ?_ ?_)
  · exact store.ascending.imp fun ascends late => Text.precedes_trans ascends late
  · refine store.ascending.imp fun ascends notBefore continues => ?_
    exact isUnder_iff.mpr (Text.isPrefix_of_between notBefore ascends (isUnder_iff.mp continues))
  · intro binding _ early
    rw [Bool.eq_false_iff]
    intro continues
    rw [Text.precedes_of_isPrefix (isUnder_iff.mp continues)] at early
    contradiction

/-- A tree is one stretch of the stored entries. -/
theorem exists_around_subtree (store : Store) (dn : Dn) :
    ∃ before after, store.values = before ++ store.subtree dn ++ after := by
  let early := fun binding : Text × Entry => binding.1.precedes dn.storageKey
  let rest := store.bindings.dropWhile early
  refine ⟨(store.bindings.takeWhile early).map Prod.snd,
    (rest.dropWhile fun binding => isUnder dn binding.1).map Prod.snd, ?_⟩
  rw [subtree_eq_scan, scan, ← List.map_append, ← List.map_append, List.append_assoc,
    List.takeWhile_append_dropWhile, List.takeWhile_append_dropWhile, KeyTable.values]

theorem IsFiled.mem_subtree_iff (filed : store.IsFiled suffix) (plain : store.HasPlainNames)
    (named : dn.HasPlainTypes) : entry ∈ store.subtree dn ↔
      entry ∈ store.values ∧ dn.isAncestorOrSelfOf entry.dn = true := by
  rw [filed.subtree_eq plain named, List.mem_filter]

theorem IsFiled.nodup_subtree (filed : store.IsFiled suffix) (plain : store.HasPlainNames)
    (named : dn.HasPlainTypes) : (store.subtree dn).Nodup := by
  rw [filed.subtree_eq plain named]
  exact filed.nodup_values.filter _

theorem IsFiled.superiorsFirst_subtree (filed : store.IsFiled suffix) (plain : store.HasPlainNames)
    (named : dn.HasPlainTypes) : (store.subtree dn).Pairwise fun earlier later =>
      later.dn.isAncestorOf earlier.dn = false := by
  rw [filed.subtree_eq plain named]
  exact (filed.superiors_first plain).filter _

theorem IsFiled.isAncestorOf_of_mem_subtree (filed : store.IsFiled suffix)
    (plain : store.HasPlainNames) (listed : entry ∈ store.values)
    (inside : other ∈ store.subtree entry.dn) (different : other ≠ entry) :
    entry.dn.isAncestorOf other.dn = true := by
  obtain ⟨otherListed, lies⟩ := (filed.mem_subtree_iff plain (plain entry listed)).mp inside
  exact Dn.isAncestorOf_iff.mpr
    ⟨lies, fun same => different (filed.eq_of_path otherListed listed same.symm)⟩

theorem IsFiled.subtree_eq_cons (filed : store.IsFiled suffix) (plain : store.HasPlainNames)
    (listed : entry ∈ store.values) :
    ∃ below, store.subtree entry.dn = entry :: below ∧
      ∀ inner ∈ below, entry.dn.isAncestorOf inner.dn = true := by
  have named := plain entry listed
  have member : entry ∈ store.subtree entry.dn :=
    (filed.mem_subtree_iff plain named).mpr ⟨listed, Dn.isAncestorOrSelfOf_refl entry.dn⟩
  have once := filed.nodup_subtree plain named
  obtain ⟨front, below, whole⟩ := List.append_of_mem member
  have strict {inner : Entry} (inside : inner ∈ store.subtree entry.dn)
      (different : inner ≠ entry) :=
    filed.isAncestorOf_of_mem_subtree plain listed inside different
  have ordered := filed.superiorsFirst_subtree plain named
  rw [whole] at once ordered strict
  cases front with
  | nil =>
    refine ⟨below, whole, fun inner inside => strict (List.mem_cons_of_mem _ inside) ?_⟩
    rintro rfl
    exact (List.nodup_cons.mp once).1 inside
  | cons first rest =>
    have here : entry ∈ rest ++ entry :: below := by simp
    have different : first ≠ entry := by
      rintro rfl
      exact (List.nodup_cons.mp once).1 here
    have early := (List.pairwise_cons.mp ordered).1 entry here
    rw [strict List.mem_cons_self different] at early
    contradiction

theorem IsFiled.subtree_eq_around (filed : store.IsFiled suffix) (plain : store.HasPlainNames)
    (named : dn.HasPlainTypes) (inside : entry ∈ store.subtree dn) :
    ∃ before below after, store.subtree dn = before ++ entry :: below ++ after ∧
      (∀ inner ∈ below, entry.dn.isAncestorOf inner.dn = true) ∧
      ∀ outer ∈ before ++ after, entry.dn.isAncestorOf outer.dn = false := by
  obtain ⟨listed, lies⟩ := (filed.mem_subtree_iff plain named).mp inside
  have entryNamed := plain entry listed
  obtain ⟨below, top, strict⟩ := filed.subtree_eq_cons plain listed
  obtain ⟨front, back, whole⟩ := exists_around_subtree store entry.dn
  have apart := apart_of_filter_between (filed.subtree_eq plain entryNamed ▸ whole)
  have kept : (store.subtree entry.dn).filter (fun other => dn.isAncestorOrSelfOf other.dn) =
      entry :: below := by
    rw [← top, List.filter_eq_self]
    intro other inside
    exact Dn.isAncestorOrSelfOf_trans lies ((filed.mem_subtree_iff plain entryNamed).mp inside).2
  refine ⟨front.filter fun other => dn.isAncestorOrSelfOf other.dn, below,
    back.filter fun other => dn.isAncestorOrSelfOf other.dn, ?_, strict, ?_⟩
  · rw [filed.subtree_eq plain named, whole, List.filter_append, List.filter_append, kept]
  · intro outer around
    rw [← List.filter_append, List.mem_filter] at around
    rw [Bool.eq_false_iff]
    intro above
    have outside := apart outer around.1
    rw [(Dn.isAncestorOf_iff.mp above).1] at outside
    contradiction

theorem IsFiled.mem_children_iff (filed : store.IsFiled suffix) (plain : store.HasPlainNames)
    (named : dn.HasPlainTypes) : entry ∈ store.children dn ↔ entry ∈ store.values ∧
      ∃ parent, entry.dn.parent? = some parent ∧ (parent == dn) = true := by
  have reached : store.children dn = store.inScope .oneLevel dn :=
    filed.candidates_eq plain named .oneLevel
  rw [reached, inScope, List.mem_filter, SearchScope.covers, Option.any_eq_true]

theorem IsTree.exists_child (tree : store.IsTree suffix) (named : dn.HasPlainTypes)
    (owned : suffix.isAncestorOrSelfOf dn = true) (listed : entry ∈ store.values)
    (strict : dn.isAncestorOf entry.dn = true) : ∃ child, child ∈ store.children dn := by
  have plain := tree.hasPlainNames
  have filed := tree.isFiled
  obtain ⟨lies, other⟩ := Dn.isAncestorOf_iff.mp strict
  obtain ⟨front, whole⟩ := Dn.isAncestorOrSelfOf_iff.mp lies
  have present : front ≠ [] := by
    rintro rfl
    exact other whole
  have depth : (entry.dn.top (dn.length + 1)).path = front.getLast present :: dn.path := by
    have counted : entry.dn.length - (dn.length + 1) = front.dropLast.length := by
      rw [← Dn.length_path entry.dn, ← whole, List.length_append, Dn.length_path,
        List.length_dropLast]
      omega
    have split : entry.dn.path = front.dropLast ++ front.getLast present :: dn.path := by
      rw [← whole, List.append_cons, List.dropLast_concat_getLast]
    rw [Dn.path_top, counted, split, List.drop_left]
  have below := Dn.top_isAncestorOrSelfOf entry.dn (dn.length + 1)
  have above : dn.isAncestorOrSelfOf (entry.dn.top (dn.length + 1)) = true := by
    rw [Dn.isAncestorOrSelfOf_iff, depth]
    exact List.suffix_cons _ _
  have held := (tree.holds_iff_hasName (plain entry listed)).mpr
    ⟨entry, listed, Dn.beq_iff_path.mpr rfl⟩
  have childHeld := tree.holds_ancestor (plain entry listed) held
    (Dn.isAncestorOrSelfOf_trans owned above) below
  obtain ⟨child, childListed, same⟩ :=
    (tree.holds_iff_hasName ((plain entry listed).of_lies below)).mp childHeld
  obtain ⟨parent, isParent, parentPath⟩ :=
    Dn.exists_parent?_of_path ((Dn.beq_iff_path.mp same).trans depth)
  exact ⟨child, (filed.mem_children_iff plain named).mpr
    ⟨childListed, parent, isParent, Dn.beq_iff_path.mpr parentPath⟩⟩

theorem IsTree.hasChildren_iff (tree : store.IsTree suffix) (named : dn.HasPlainTypes)
    (owned : suffix.isAncestorOrSelfOf dn = true) : store.hasChildren dn = true ↔
      ∃ entry ∈ store.values, dn.isAncestorOf entry.dn = true := by
  have plain := tree.hasPlainNames
  have filed := tree.isFiled
  have once := filed.nodup_subtree plain named
  rw [hasChildren, decide_eq_true_eq]
  constructor
  · intro several
    rcases listed : store.subtree dn with _ | ⟨first, _ | ⟨second, rest⟩⟩
    · simp [listed] at several
    · simp [listed] at several
    · have member {entry : Entry} (found : entry ∈ first :: second :: rest) :=
        (filed.mem_subtree_iff plain named).mp (listed ▸ found)
      obtain ⟨firstListed, firstLies⟩ := member List.mem_cons_self
      obtain ⟨secondListed, secondLies⟩ :=
        member (List.mem_cons_of_mem _ List.mem_cons_self)
      by_cases top : dn.path = first.dn.path
      · refine ⟨second, secondListed, Dn.isAncestorOf_iff.mpr ⟨secondLies, fun same => ?_⟩⟩
        obtain rfl := filed.eq_of_path firstListed secondListed (top.symm.trans same)
        simp [listed] at once
      · exact ⟨first, firstListed, Dn.isAncestorOf_iff.mpr ⟨firstLies, top⟩⟩
  · rintro ⟨entry, listed, strict⟩
    obtain ⟨lies, other⟩ := Dn.isAncestorOf_iff.mp strict
    have held := (tree.holds_iff_hasName (plain entry listed)).mpr
      ⟨entry, listed, Dn.beq_iff_path.mpr rfl⟩
    have topHeld := tree.holds_ancestor (plain entry listed) held owned lies
    obtain ⟨top, topListed, same⟩ := (tree.holds_iff_hasName named).mp topHeld
    have topPath : top.dn.path = dn.path := Dn.beq_iff_path.mp same
    have different : top ≠ entry := by
      rintro rfl
      exact other topPath.symm
    have both : [top, entry] ⊆ store.subtree dn := by
      intro member among
      rw [filed.mem_subtree_iff plain named]
      rcases List.mem_pair.mp among with rfl | rfl
      · exact ⟨topListed, Dn.isAncestorOrSelfOf_of_beq same⟩
      · exact ⟨listed, lies⟩
    have pair : [top, entry].Nodup := by simp [different]
    exact (pair.subperm both).length_le

/-- What a store answers for a name is what the tree of its entries has there. -/
structure ReadsTree (store : Store) (dn : Dn) : Prop where
  found : ∀ entry, store.find? dn = some entry ↔
    entry ∈ store.values ∧ (entry.dn == dn) = true
  scanned : store.subtree dn = store.scan dn
  inside : ∀ entry, entry ∈ store.subtree dn ↔
    entry ∈ store.values ∧ dn.isAncestorOrSelfOf entry.dn = true
  once : (store.subtree dn).Nodup
  superiorsFirst : (store.subtree dn).Pairwise fun earlier later =>
    later.dn.isAncestorOf earlier.dn = false
  together : ∀ entry ∈ store.subtree dn, ∃ before below after,
    store.subtree dn = before ++ entry :: below ++ after ∧
      (∀ inner ∈ below, entry.dn.isAncestorOf inner.dn = true) ∧
      ∀ outer ∈ before ++ after, entry.dn.isAncestorOf outer.dn = false
  children : ∀ entry, entry ∈ store.children dn ↔ entry ∈ store.values ∧
    ∃ parent, entry.dn.parent? = some parent ∧ (parent == dn) = true
  childrenOnce : (store.children dn).Nodup

theorem IsFiled.readsTree (filed : store.IsFiled suffix) (plain : store.HasPlainNames)
    (named : dn.HasPlainTypes) : store.ReadsTree dn where
  found entry := by rw [filed.find?_eq_some_iff plain named, Dn.beq_iff_path]
  scanned := subtree_eq_scan store dn
  inside _ := filed.mem_subtree_iff plain named
  once := filed.nodup_subtree plain named
  superiorsFirst := filed.superiorsFirst_subtree plain named
  together _ inside := filed.subtree_eq_around plain named inside
  children _ := filed.mem_children_iff plain named
  childrenOnce := (filed.nodup_subtree plain named).filter _

end Store

namespace Partition

variable {suffix dn : Dn} {reached : Partition}

/-- What a reached partition answers for a name is what its entries tell about the tree there, as
long as the compared types of all names hold no equals sign.  Whether a name of the partition has
something below it can be read off the number of entries in its tree, also where the name itself is
absent. -/
theorem reads_agree_with_tree {id : Text} {writes : List Write}
    (leads : (empty id suffix).performAll writes = reached)
    (plain : ∀ write ∈ writes, ∀ name ∈ write.names, name.HasPlainTypes)
    (named : dn.HasPlainTypes) :
    reached.store.ReadsTree dn ∧ (suffix.isAncestorOrSelfOf dn = true →
      (reached.store.hasChildren dn = true ↔
        ∃ entry ∈ reached.store.values, dn.isAncestorOf entry.dn = true) ∧
      (reached.store.hasChildren dn = true ↔ reached.store.children dn ≠ [])) := by
  have tree : reached.store.IsTree suffix := leads ▸ isTree_performAll plain
  refine ⟨tree.isFiled.readsTree tree.hasPlainNames named, fun owned => ?_⟩
  have below := tree.hasChildren_iff named owned
  refine ⟨below, below.trans ⟨?_, fun present => ?_⟩⟩
  · rintro ⟨entry, listed, strict⟩
    obtain ⟨child, found⟩ := tree.exists_child named owned listed strict
    exact List.ne_nil_of_mem found
  · obtain ⟨child, found⟩ := List.exists_mem_of_ne_nil _ present
    obtain ⟨listed, parent, isParent, same⟩ :=
      (tree.isFiled.mem_children_iff tree.hasPlainNames named).mp found
    exact ⟨child, listed,
      Dn.isAncestorOf_of_parent isParent (Dn.isAncestorOrSelfOf_of_beq same)⟩

/-- The key of `ou=bb` begins like that of `ou=b`, and a name that is absent has nothing below. -/
theorem reads_agree_with_tree_of_siblings :
    ∃ (suffix unit leaf sibling absent : Dn) (reached : Partition),
      Dn.parse "o=a" = .ok suffix ∧ Dn.parse "ou=b,o=a" = .ok unit ∧
      Dn.parse "cn=c,ou=b,o=a" = .ok leaf ∧ Dn.parse "ou=bb,o=a" = .ok sibling ∧
      Dn.parse "cn=c,ou=b\\,,o=a" = .ok absent ∧
      (empty "p" suffix).performAll [.create (.empty suffix), .create (.empty sibling),
        .create (.empty unit), .create (.empty leaf)] = reached ∧
      reached.store.subtree unit = [.empty unit, .empty leaf] ∧ reached.store.ReadsTree unit ∧
      (∃ entry ∈ reached.store.values, unit.isAncestorOf entry.dn = true) ∧
      ¬ ∃ entry ∈ reached.store.values, absent.isAncestorOf entry.dn = true := by
  have run : (do
      let suffix ← Dn.parse "o=a"
      let unit ← Dn.parse "ou=b,o=a"
      let leaf ← Dn.parse "cn=c,ou=b,o=a"
      let sibling ← Dn.parse "ou=bb,o=a"
      let absent ← Dn.parse "cn=c,ou=b\\,,o=a"
      let reached := (empty "p" suffix).performAll [.create (.empty suffix),
        .create (.empty sibling), .create (.empty unit), .create (.empty leaf)]
      Except.ok (decide (reached.store.subtree unit = [.empty unit, .empty leaf] ∧
        suffix.isAncestorOrSelfOf unit = true ∧ reached.store.hasChildren unit = true ∧
        suffix.isAncestorOrSelfOf absent = true ∧ ¬ reached.store.hasChildren absent = true))) =
        Except.ok (ε := Error) true := by
    decide +kernel
  obtain ⟨suffix, suffixRead, run⟩ := bind_eq_ok_iff.mp run
  obtain ⟨unit, unitRead, run⟩ := bind_eq_ok_iff.mp run
  obtain ⟨leaf, leafRead, run⟩ := bind_eq_ok_iff.mp run
  obtain ⟨sibling, siblingRead, run⟩ := bind_eq_ok_iff.mp run
  obtain ⟨absent, absentRead, run⟩ := bind_eq_ok_iff.mp run
  obtain ⟨inside, unitOwned, unitHas, absentOwned, absentLacks⟩ :=
    of_decide_eq_true (Except.ok.inj run)
  have unitPlain := Dn.hasPlainTypes_of_parse unitRead
  have plain : ∀ write ∈ [Write.create (.empty suffix), .create (.empty sibling),
      .create (.empty unit), .create (.empty leaf)], ∀ name ∈ write.names,
      name.HasPlainTypes := by
    have suffixPlain := Dn.hasPlainTypes_of_parse suffixRead
    have leafPlain := Dn.hasPlainTypes_of_parse leafRead
    have siblingPlain := Dn.hasPlainTypes_of_parse siblingRead
    simp [Write.names, Entry.empty, suffixPlain, unitPlain, leafPlain, siblingPlain]
  obtain ⟨reads, has⟩ := reads_agree_with_tree rfl plain unitPlain
  obtain ⟨_, lacks⟩ := reads_agree_with_tree rfl plain (Dn.hasPlainTypes_of_parse absentRead)
  exact ⟨suffix, unit, leaf, sibling, absent, _, suffixRead, unitRead, leafRead, siblingRead,
    absentRead, rfl, inside, reads, (has unitOwned).1.mp unitHas,
    mt (lacks absentOwned).1.mpr absentLacks⟩

/-- Where `1.2.3` is called `x=1,cn`, the entry `1.2.3=b,o=a` has the key of `cn=b,x=1,o=a` and is
found under that name. -/
theorem lookup_finds_other_name :
    ∃ (schema : Schema) (suffix odd sought : Dn) (reached : Partition),
      Schema.core.extended .oddlyNamed = .ok schema ∧
      schema.normalize "o=a" = .ok suffix ∧ schema.normalize "1.2.3=b,o=a" = .ok odd ∧
      schema.normalize "cn=b,x=1,o=a" = .ok sought ∧
      (empty "p" suffix).performAll [.create (.empty suffix), .create (.empty odd)] = reached ∧
      ∃ entry, reached.store.find? sought = some entry ∧ (entry.dn == sought) = false := by
  have run : (do
      let schema ← Schema.core.extended .oddlyNamed
      let suffix ← schema.normalize "o=a"
      let odd ← schema.normalize "1.2.3=b,o=a"
      let sought ← schema.normalize "cn=b,x=1,o=a"
      let reached := (empty "p" suffix).performAll [.create (.empty suffix), .create (.empty odd)]
      Except.ok ((reached.store.find? sought).map fun entry => entry.dn == sought)) =
        Except.ok (ε := Error) (some false) := by
    decide +kernel
  obtain ⟨schema, built, run⟩ := bind_eq_ok_iff.mp run
  obtain ⟨suffix, suffixRead, run⟩ := bind_eq_ok_iff.mp run
  obtain ⟨odd, oddRead, run⟩ := bind_eq_ok_iff.mp run
  obtain ⟨sought, soughtRead, run⟩ := bind_eq_ok_iff.mp run
  obtain ⟨entry, found, other⟩ := Option.map_eq_some_iff.mp (Except.ok.inj run)
  exact ⟨schema, suffix, odd, sought, _, built, suffixRead, oddRead, soughtRead, rfl, entry, found,
    other⟩

end Partition

end Directory
