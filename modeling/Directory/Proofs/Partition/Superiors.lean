import Directory.Proofs.Partition.Registration
import Directory.Proofs.Partition.TreeMoves

namespace Directory

/-! # How much of a name exists

Of the ancestors of a name within its partition the deepest one that is kept is looked for from the
name itself on towards the suffix.  Nothing is kept without the entry at the suffix, and in a tree
nothing without what lies above it, so that the depth which is found divides the ancestors that
exist from those that do not. -/

namespace NamingContexts

theorem mem_depthsDown {shallowest deepest depth : Nat} :
    depth ∈ depthsDown shallowest deepest ↔ shallowest ≤ depth ∧ depth ≤ deepest := by
  rw [depthsDown, List.mem_reverse, List.range_eq_range', List.drop_range', List.mem_range'_1]
  omega

theorem descending_depthsDown (shallowest deepest : Nat) :
    (depthsDown shallowest deepest).Pairwise fun deeper depth => depth < deeper :=
  List.pairwise_reverse.mpr (List.pairwise_lt_range.sublist (List.drop_sublist _ _))

theorem depthsDown_of_lt {shallowest deepest : Nat} (beyond : deepest < shallowest) :
    depthsDown shallowest deepest = [] := by
  rw [depthsDown, List.drop_eq_nil_of_le (by simpa using Nat.succ_le_of_lt beyond),
    List.reverse_nil]

theorem depthsDown_succ {shallowest deepest : Nat} (within : shallowest ≤ deepest + 1) :
    depthsDown shallowest (deepest + 1) = (deepest + 1) :: depthsDown shallowest deepest := by
  rw [depthsDown, List.range_succ, List.drop_append_of_le_length (by simpa using within),
    List.reverse_append]
  rfl

theorem depthsDown_self (depth : Nat) : depthsDown depth depth = [depth] := by
  cases depth with
  | zero => rfl
  | succ depth => rw [depthsDown_succ (Nat.le_refl _), depthsDown_of_lt (Nat.lt_succ_self depth)]

theorem depthsDown_eq_of_append {shallowest deepest depth : Nat} {before after : List Nat}
    (whole : depthsDown shallowest deepest = before ++ depth :: after) :
    depthsDown depth deepest = before ++ [depth] := by
  have listed : depth ∈ depthsDown shallowest deepest := by simp [whole]
  have within := mem_depthsDown.mp listed
  clear listed
  induction before generalizing deepest with
  | nil =>
    cases deepest with
    | zero => rw [Nat.le_zero.mp within.2, depthsDown_self, List.nil_append]
    | succ deepest =>
      rw [depthsDown_succ (Nat.le_trans within.1 within.2), List.nil_append] at whole
      rw [← (List.cons.inj whole).1, depthsDown_self, List.nil_append]
  | cons first rest ih =>
    have descending := descending_depthsDown shallowest deepest
    rw [whole] at descending
    have below := (List.pairwise_cons.mp descending).1 depth (by simp)
    have listed : first ∈ depthsDown shallowest deepest := by simp [whole]
    have reaches := (mem_depthsDown.mp listed).2
    obtain ⟨shorter, rfl⟩ : ∃ shorter, deepest = shorter + 1 := ⟨deepest - 1, by omega⟩
    rw [depthsDown_succ (Nat.le_trans within.1 within.2), List.cons_append] at whole
    obtain ⟨rfl, tail⟩ := List.cons.inj whole
    rw [depthsDown_succ (Nat.le_of_lt below), ih tail ⟨within.1, Nat.le_of_lt_succ below⟩,
      List.cons_append]

/-- What is found first on the way down from the deepest depth is the deepest of its kind. -/
theorem find?_depthsDown_eq_some_iff {isKind : Nat → Bool} {shallowest deepest depth : Nat} :
    (depthsDown shallowest deepest).find? isKind = some depth ↔
      (shallowest ≤ depth ∧ depth ≤ deepest) ∧ isKind depth = true ∧
        ∀ deeper, depth < deeper → deeper ≤ deepest → isKind deeper = false := by
  have descending := descending_depthsDown shallowest deepest
  constructor
  · intro found
    have within := mem_depthsDown.mp (List.mem_of_find?_eq_some found)
    obtain ⟨kind, before, after, whole, passed⟩ := List.find?_eq_some_iff_append.mp found
    refine ⟨within, kind, fun deeper below reaches => ?_⟩
    have listed : deeper ∈ depthsDown shallowest deepest := mem_depthsDown.mpr ⟨by omega, reaches⟩
    rw [whole] at listed descending
    rcases List.mem_append.mp listed with early | late
    · simpa using passed deeper early
    · have tail := (List.pairwise_cons.mp (List.pairwise_append.mp descending).2.1).1
      rcases List.mem_cons.mp late with rfl | late
      · omega
      · exact absurd (tail deeper late) (by omega)
  · intro ⟨within, kind, noDeeper⟩
    obtain ⟨before, after, whole⟩ := List.append_of_mem (mem_depthsDown.mpr within)
    refine List.find?_eq_some_iff_append.mpr ⟨kind, before, after, whole, fun deeper early => ?_⟩
    have reaches : deeper ≤ deepest :=
      (mem_depthsDown.mp (whole ▸ List.mem_append_left _ early)).2
    rw [whole] at descending
    have below := (List.pairwise_append.mp descending).2.2 deeper early depth List.mem_cons_self
    rw [noDeeper deeper below reaches, Bool.not_false]

end NamingContexts

/-- Where anything is kept, the entry at the suffix is. -/
def Store.HasTop (store : Store) (suffix : Dn) : Prop :=
  ∀ key entry, store.get? key = some entry → store.holds suffix = true

namespace Store

variable {store : Store} {suffix source dn : Dn} {entry replacement : Entry}

theorem HasTop.of_holds (topped : store.HasTop suffix) (held : store.holds dn = true) :
    store.holds suffix = true := by
  obtain ⟨entry, bound⟩ := holds_iff.mp held
  exact topped _ entry bound

theorem HasTop.put (topped : store.HasTop suffix)
    (reason : entry.dn.path = suffix.path ∨ ∃ dn, store.holds dn = true) :
    (store.put entry).HasTop suffix := by
  intro _ _ _
  rw [holds_put]
  rcases reason with same | ⟨dn, held⟩
  · exact .inl (Dn.storageKey_eq_of_path same)
  · exact .inr (topped.of_holds held)

theorem HasTop.erase (topped : store.HasTop suffix) (filed : store.IsFiled suffix)
    (held : store.holds dn = true) (childless : store.hasChildren dn = false) :
    HasTop (KeyTable.erase store dn.storageKey) suffix := by
  intro key entry found
  rw [KeyTable.get?_erase] at found
  split at found
  · contradiction
  · next different =>
    obtain ⟨top, bound⟩ := holds_iff.mp (topped key entry found)
    refine holds_iff.mpr ⟨top, ?_⟩
    rw [KeyTable.get?_erase, if_neg, bound]
    intro same
    have place := filed key entry found
    have starts := Dn.storageKey_isPrefix_of_lies place.owned
    rw [← same, ← place.keyed] at starts
    exact different (eq_storageKey_of_not_hasChildren childless held found starts).symm

theorem HasTop.relocate (topped : store.HasTop suffix) (filed : store.IsFiled suffix)
    (sourceOwned : suffix.isAncestorOrSelfOf source = true)
    (owned : suffix.isAncestorOrSelfOf replacement.dn = true)
    (outside : source.isAncestorOf replacement.dn = false) :
    (store.relocate source replacement).HasTop suffix := by
  intro key entry found
  have held : store.holds suffix = true := by
    rcases get?_relocate found with ⟨origin, inside, _⟩ | ⟨kept, _⟩
    · obtain ⟨_, bound, _⟩ := mem_subtree_iff.mp inside
      exact topped _ _ bound
    · exact topped _ _ kept
  rw [holds_relocate]
  by_cases starts : source.storageKey <+: suffix.storageKey
  · have sameKey := (Dn.storageKey_isPrefix_of_lies sourceOwned).eq_of_length_le starts.length_le
    have same := Dn.path_eq_of_storageKey sourceOwned sameKey.symm
    obtain ⟨top, bound⟩ := holds_iff.mp held
    have place := filed _ top bound
    have topPath := Dn.path_eq_of_storageKey place.owned place.keyed.symm
    refine .inl ⟨top, mem_subtree_iff.mpr ⟨_, bound, starts⟩, ?_⟩
    rw [Partition.relocated, if_pos (Dn.beq_iff_path.mpr (topPath.trans same.symm))]
    refine Dn.storageKey_eq_of_path ?_
    by_contra different
    have strict : source.isAncestorOf replacement.dn = true := by
      rw [Dn.isAncestorOf_iff, Dn.isAncestorOrSelfOf_iff, same]
      exact ⟨Dn.isAncestorOrSelfOf_iff.mp owned, fun equal => different equal.symm⟩
    rw [outside] at strict
    contradiction
  · exact .inr ⟨held, starts⟩

end Store

namespace Partition

variable {partition : Partition} {write : Write} {dn : Dn} {depth : Nat}

theorem hasTop_effect (filed : partition.store.IsFiled partition.suffix)
    (topped : partition.store.HasTop partition.suffix)
    (admitted : partition.admits write = .ok ()) :
    (partition.effect write).HasTop partition.suffix := by
  cases write with
  | create entry =>
    refine topped.put ?_
    by_cases same : entry.dn.path = partition.suffix.path
    · exact .inl same
    · obtain ⟨parent, _, held⟩ := superior_of_checkParent (admits_create admitted).2 same
      exact .inr ⟨parent, held⟩
  | update entry => exact topped.put (.inr ⟨entry.dn, (admits_update admitted).2⟩)
  | delete dn =>
    obtain ⟨held, childless⟩ := admits_delete admitted
    exact topped.erase filed held childless
  | relocate source entry =>
    obtain ⟨sourceOwned, owned, outside, _⟩ := admits_relocate admitted
    exact topped.relocate filed (owned_of_checkOwned sourceOwned) (owned_of_checkOwned owned)
      outside

theorem hasTop_performAll (id : Text) (suffix : Dn) (writes : List Write) :
    ((empty id suffix).performAll writes).store.HasTop suffix := by
  suffices both : ((empty id suffix).performAll writes).store.IsFiled suffix ∧
      ((empty id suffix).performAll writes).store.HasTop suffix from both.2
  refine performAll_induction (motive := fun store => store.IsFiled suffix ∧ store.HasTop suffix)
    ⟨Store.isFiled_empty suffix, nofun⟩ ?_
  rintro current write _ sameSuffix ⟨filed, topped⟩ admitted
  obtain rfl : current.suffix = suffix := sameSuffix
  exact ⟨isFiled_effect filed admitted, hasTop_effect filed topped admitted⟩

/-- The name exists down to the depth, which is zero if not even the entry at the suffix is there,
and below it nothing of the name exists. -/
structure ExistsDownTo (partition : Partition) (dn : Dn) (depth : Nat) : Prop where
  zero : depth = 0 ↔ partition.store.holds partition.suffix = false
  within : depth ≠ 0 → partition.suffix.length ≤ depth ∧ depth ≤ dn.length
  held : depth ≠ 0 → partition.store.holds (dn.top depth) = true
  noDeeper : ∀ deeper, depth < deeper → partition.suffix.length ≤ deeper → deeper ≤ dn.length →
    partition.store.holds (dn.top deeper) = false

theorem existsDownTo_of_find? (topped : partition.store.HasTop partition.suffix)
    (named : partition.suffix.isRoot = false)
    (lies : partition.suffix.isAncestorOrSelfOf dn = true) :
    partition.ExistsDownTo dn
      (((NamingContexts.depthsDown partition.suffix.length dn.length).find? fun depth =>
        partition.store.holds (dn.top depth)).getD 0) := by
  have positive := Dn.isRoot_eq_false_iff.mp named
  cases found : (NamingContexts.depthsDown partition.suffix.length dn.length).find? fun depth =>
      partition.store.holds (dn.top depth) with
  | none =>
    have absent : ∀ depth, partition.suffix.length ≤ depth → depth ≤ dn.length →
        partition.store.holds (dn.top depth) = false := fun depth upper lower => by
      simpa using List.find?_eq_none.mp found depth
        (NamingContexts.mem_depthsDown.mpr ⟨upper, lower⟩)
    have bound := (Dn.isAncestorOrSelfOf_iff.mp lies).length_le
    rw [Dn.length_path, Dn.length_path] at bound
    have atSuffix := absent _ (Nat.le_refl _) bound
    rw [Store.holds, Store.find?_eq_of_path _ (Dn.path_top_of_lies lies), ← Store.holds] at atSuffix
    exact ⟨iff_of_true rfl atSuffix, absurd rfl, absurd rfl,
      fun deeper _ upper lower => absent deeper upper lower⟩
  | some depth =>
    obtain ⟨within, held, noDeeper⟩ := NamingContexts.find?_depthsDown_eq_some_iff.mp found
    rw [Option.getD_some]
    refine ⟨iff_of_false (by omega) ?_, fun _ => within, fun _ => held,
      fun deeper below _ lower => noDeeper deeper below lower⟩
    simp [topped.of_holds held]

/-- In a tree the depth divides the ancestors that are there from the rest of the name. -/
theorem ExistsDownTo.hasName_iff (exists? : partition.ExistsDownTo dn depth)
    (tree : partition.store.IsTree partition.suffix) (plain : dn.HasPlainTypes)
    (named : partition.suffix.isRoot = false)
    (lies : partition.suffix.isAncestorOrSelfOf dn = true) {step : Nat}
    (upper : partition.suffix.length ≤ step) (lower : step ≤ dn.length) :
    partition.store.HasName (dn.top step) ↔ step ≤ depth := by
  have positive := Dn.isRoot_eq_false_iff.mp named
  have topPlain (depth : Nat) : (dn.top depth).HasPlainTypes :=
    plain.of_lies (Dn.top_isAncestorOrSelfOf dn depth)
  rw [← tree.holds_iff_hasName (topPlain step)]
  constructor
  · intro held
    by_contra beyond
    rw [exists?.noDeeper step (Nat.lt_of_not_le beyond) upper lower] at held
    contradiction
  · intro shallow
    have found : depth ≠ 0 := by omega
    obtain ⟨_, bound⟩ := exists?.within found
    refine tree.holds_ancestor (topPlain depth) (exists?.held found) ?_
      (Dn.top_isAncestorOrSelfOf_top shallow bound)
    refine Dn.isAncestorOrSelfOf_of_length_le lies (Dn.top_isAncestorOrSelfOf dn step) ?_
    rwa [Dn.length_top lower]

end Partition

namespace NamingContexts

variable {contexts : NamingContexts} {partition : Partition} {name : Dn} {found : Superior}

theorem resolve?_of_existingSuperior? (exists? : contexts.existingSuperior? name = some found) :
    contexts.resolve? name = some found.partition := by
  obtain ⟨partition, resolved, rfl⟩ := Option.map_eq_some_iff.mp exists?
  exact resolved

theorem existingSuperior?_of_holds (resolved : contexts.resolve? name = some partition)
    (held : partition.store.holds name = true) :
    contexts.existingSuperior? name = some ⟨name.length, partition⟩ := by
  have upper := (Dn.isAncestorOrSelfOf_iff.mp (mem_of_resolve? resolved).2).length_le
  rw [Dn.length_path, Dn.length_path] at upper
  have whole : name.top name.length = name := by simp [Dn.top]
  have deepest : ((depthsDown partition.suffix.length name.length).find? fun depth =>
      partition.store.holds (name.top depth)) = some name.length :=
    find?_depthsDown_eq_some_iff.mpr
      ⟨⟨upper, Nat.le_refl _⟩, by rwa [whole], fun deeper below reaches => by omega⟩
  rw [existingSuperior?, resolved, Option.map_some, deepest]
  rfl

theorem holds_of_existingSuperior? (exists? : contexts.existingSuperior? name = some found)
    (named : name.isRoot = false) (whole : name.length ≤ found.depth) :
    found.partition.store.holds name = true := by
  obtain ⟨partition, resolved, rfl⟩ := Option.map_eq_some_iff.mp exists?
  have positive := Dn.isRoot_eq_false_iff.mp named
  dsimp only at whole ⊢
  cases deepest : (depthsDown partition.suffix.length name.length).find? fun depth =>
      partition.store.holds (name.top depth) with
  | none =>
    rw [deepest, Option.getD_none] at whole
    omega
  | some depth =>
    rw [deepest, Option.getD_some] at whole
    obtain ⟨⟨_, bounded⟩, held, _⟩ := find?_depthsDown_eq_some_iff.mp deepest
    obtain rfl : depth = name.length := Nat.le_antisymm bounded whole
    simpa [Dn.top] using held

/-- Over reached partitions the superior of a covered name is that of the partition it is resolved
to, and says how far down the name exists; no other name has one.  As long as no compared type of
the names written and of the name itself holds an equals sign, exactly the ancestors of the name
down to that depth are there. -/
theorem existing_superior_divides_name {writes : Partition → List Partition.Write}
    (registered : contexts.IsRegistered)
    (reached : ∀ partition ∈ contexts.partitions,
      (Partition.empty partition.id partition.suffix).performAll (writes partition) = partition)
    (dn : Dn) :
    (∀ partition ∈ contexts.partitions, partition.suffix.isAncestorOrSelfOf dn = true →
      contexts.resolve? dn = some partition ∧
        ∃ depth, contexts.existingSuperior? dn = some ⟨depth, partition⟩ ∧
          partition.ExistsDownTo dn depth ∧
          ((∀ write ∈ writes partition, ∀ name ∈ write.names, name.HasPlainTypes) →
            dn.HasPlainTypes →
            ∀ step, partition.suffix.length ≤ step → step ≤ dn.length →
              (partition.store.HasName (dn.top step) ↔ step ≤ depth))) ∧
      ((∀ partition ∈ contexts.partitions, partition.suffix.isAncestorOrSelfOf dn = false) →
        contexts.existingSuperior? dn = none) := by
  constructor
  · intro partition listed lies
    have separated := registered.isSeparated
    have named := separated.named partition listed
    have resolved := separated.resolve?_eq_some_iff.mpr ⟨listed, lies⟩
    have topped : partition.store.HasTop partition.suffix := by
      rw [← reached partition listed, Partition.suffix_performAll]
      exact Partition.hasTop_performAll _ _ _
    have exists? := Partition.existsDownTo_of_find? topped named lies
    refine ⟨resolved, _, by rw [existingSuperior?, resolved]; rfl, exists?,
      fun writesPlain plain step upper lower => ?_⟩
    have built : ((Partition.empty partition.id partition.suffix).performAll
        (writes partition)).store.IsTree partition.suffix := Partition.isTree_performAll writesPlain
    have tree := reached partition listed ▸ built
    exact exists?.hasName_iff tree plain named lies upper lower
  · intro uncovered
    rw [existingSuperior?, resolve?, List.find?_eq_none.mpr, Option.map_none]
    intro partition listed
    rw [uncovered partition listed]
    exact Bool.false_ne_true

/-- Of a name of four steps two exist, of a name in an empty partition nothing. -/
theorem existing_superior_divides_name_of_leaf :
    ∃ (suffix unit leaf beside lonely : Dn) (partition : Partition) (contexts : NamingContexts),
      Dn.parse "o=a" = .ok suffix ∧ Dn.parse "ou=b,o=a" = .ok unit ∧
      Dn.parse "cn=d,ou=c,OU=b,o=a" = .ok leaf ∧ Dn.parse "o=z" = .ok beside ∧
      Dn.parse "cn=y,o=z" = .ok lonely ∧
      (Partition.empty "p" suffix).performAll [.create (.empty suffix), .create (.empty unit)] =
        partition ∧
      empty.registerAll [partition, .empty "q" beside] = contexts ∧
      (∃ depth, contexts.existingSuperior? leaf = some ⟨depth, partition⟩ ∧ depth = 2 ∧
        ∀ step, suffix.length ≤ step → step ≤ leaf.length →
          (partition.store.HasName (leaf.top step) ↔ step ≤ depth)) ∧
      ∃ depth, contexts.existingSuperior? lonely = some ⟨depth, .empty "q" beside⟩ ∧ depth = 0 := by
  have run : (do
      let suffix ← Dn.parse "o=a"
      let unit ← Dn.parse "ou=b,o=a"
      let leaf ← Dn.parse "cn=d,ou=c,OU=b,o=a"
      let beside ← Dn.parse "o=z"
      let lonely ← Dn.parse "cn=y,o=z"
      let partition := (Partition.empty "p" suffix).performAll
        [.create (.empty suffix), .create (.empty unit)]
      let contexts := empty.registerAll [partition, .empty "q" beside]
      Except.ok (decide (contexts.partitions = [partition, .empty "q" beside] ∧
        partition.id = ("p" : Text) ∧ suffix.isAncestorOrSelfOf leaf = true ∧
        beside.isAncestorOrSelfOf lonely = true ∧
        (contexts.existingSuperior? leaf).map Superior.depth = some 2))) =
          Except.ok (ε := Error) true := by
    decide +kernel
  obtain ⟨suffix, suffixRead, run⟩ := bind_eq_ok_iff.mp run
  obtain ⟨unit, unitRead, run⟩ := bind_eq_ok_iff.mp run
  obtain ⟨leaf, leafRead, run⟩ := bind_eq_ok_iff.mp run
  obtain ⟨beside, besideRead, run⟩ := bind_eq_ok_iff.mp run
  obtain ⟨lonely, lonelyRead, run⟩ := bind_eq_ok_iff.mp run
  obtain ⟨listed, identified, covered, lonelyCovered, found⟩ :=
    of_decide_eq_true (Except.ok.inj run)
  let creates (partition : Partition) : List Partition.Write :=
    if partition.id = "p" then [.create (.empty suffix), .create (.empty unit)] else []
  have plain : ∀ write ∈ [Partition.Write.create (.empty suffix), .create (.empty unit)],
      ∀ name ∈ write.names, name.HasPlainTypes := by
    have suffixPlain := Dn.hasPlainTypes_of_parse suffixRead
    have unitPlain := Dn.hasPlainTypes_of_parse unitRead
    simp [Partition.Write.names, Entry.empty, suffixPlain, unitPlain]
  have reached : ∀ partition ∈ (empty.registerAll [(Partition.empty "p" suffix).performAll
      [.create (.empty suffix), .create (.empty unit)], .empty "q" beside]).partitions,
      (Partition.empty partition.id partition.suffix).performAll (creates partition) =
        partition := by
    intro partition member
    rw [listed] at member
    rcases List.mem_cons.mp member with rfl | member
    · simp only [creates, if_pos identified]
      rw [identified, Partition.suffix_performAll]
      rfl
    · obtain rfl := List.mem_singleton.mp member
      have other : ("q" : Text) ≠ "p" := by decide +kernel
      show (Partition.empty "q" beside).performAll (if ("q" : Text) = "p" then _ else []) = _
      rw [if_neg other]
      rfl
  have atLeaf := existing_superior_divides_name ⟨_, rfl⟩ reached leaf
  have atLonely := existing_superior_divides_name ⟨_, rfl⟩ reached lonely
  rw [listed] at atLeaf atLonely
  obtain ⟨_, depth, reported, _, divides⟩ := atLeaf.1 _ List.mem_cons_self
    (by rwa [Partition.suffix_performAll])
  obtain ⟨_, nothing, lonelyReported, exists?, _⟩ := atLonely.1 (.empty "q" beside) (by simp)
    lonelyCovered
  refine ⟨suffix, unit, leaf, beside, lonely, _, _, suffixRead, unitRead, leafRead, besideRead,
    lonelyRead, rfl, rfl, ⟨depth, reported, ?_, ?_⟩, nothing, lonelyReported, exists?.zero.mpr rfl⟩
  · rw [reported] at found
    exact Option.some.inj found
  · rw [Partition.suffix_performAll] at divides
    refine divides ?_ (Dn.hasPlainTypes_of_parse leafRead)
    simpa only [creates, if_pos identified] using plain

/-- Where `1.2.3` is called `x=1,cn`, the entry `1.2.3=b,o=a` has the key of `cn=b,x=1,o=a`.  That
name is then found to exist in full, and its parent does not. -/
theorem existing_superior_skips_parent :
    ∃ (schema : Schema) (suffix odd sought : Dn) (partition : Partition),
      Schema.core.extended .oddlyNamed = .ok schema ∧
      schema.normalize "o=a" = .ok suffix ∧ schema.normalize "1.2.3=b,o=a" = .ok odd ∧
      schema.normalize "cn=b,x=1,o=a" = .ok sought ∧
      (Partition.empty "p" suffix).performAll [.create (.empty suffix), .create (.empty odd)] =
        partition ∧
      (empty.registerAll [partition]).existingSuperior? sought = some ⟨3, partition⟩ ∧
      suffix.length ≤ 2 ∧ sought.length = 3 ∧ partition.store.holds (sought.top 2) = false ∧
      ¬ partition.store.HasName (sought.top 2) := by
  have run : (do
      let schema ← Schema.core.extended .oddlyNamed
      let suffix ← schema.normalize "o=a"
      let odd ← schema.normalize "1.2.3=b,o=a"
      let sought ← schema.normalize "cn=b,x=1,o=a"
      let partition := (Partition.empty "p" suffix).performAll
        [.create (.empty suffix), .create (.empty odd)]
      Except.ok (decide ((empty.registerAll [partition]).resolve? sought = some partition ∧
        partition.store.holds sought = true ∧ suffix.length ≤ 2 ∧ sought.length = 3 ∧
        partition.store.holds (sought.top 2) = false ∧
        ¬ partition.store.HasName (sought.top 2)))) = Except.ok (ε := Error) true := by
    decide +kernel
  obtain ⟨schema, built, run⟩ := bind_eq_ok_iff.mp run
  obtain ⟨suffix, suffixRead, run⟩ := bind_eq_ok_iff.mp run
  obtain ⟨odd, oddRead, run⟩ := bind_eq_ok_iff.mp run
  obtain ⟨sought, soughtRead, run⟩ := bind_eq_ok_iff.mp run
  obtain ⟨resolved, held, upper, deep, gap, nameless⟩ := of_decide_eq_true (Except.ok.inj run)
  refine ⟨schema, suffix, odd, sought, _, built, suffixRead, oddRead, soughtRead, rfl, ?_, upper,
    deep, gap, nameless⟩
  rw [existingSuperior?_of_holds resolved held, deep]

end NamingContexts

end Directory
