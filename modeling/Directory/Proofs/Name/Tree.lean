import Directory.Name.Basic

namespace Directory.Dn

/-! # Superiors, ancestors and moved names

Names are compared by their paths, so facts about superiors and ancestors are facts about
ends of lists. -/

variable {dn parent above source target moved : Dn}

theorem parent?_eq_some_iff : dn.parent? = some parent ↔ ∃ rdn, dn = parent.child rdn := by
  obtain ⟨rdns⟩ := dn
  cases rdns with
  | nil => simp [parent?, child]
  | cons first rest =>
    obtain ⟨above⟩ := parent
    simp [parent?, child]

theorem exists_path_eq_of_parent? (found : dn.parent? = some parent) :
    ∃ key, dn.path = key :: parent.path := by
  obtain ⟨rdn, rfl⟩ := parent?_eq_some_iff.mp found
  exact ⟨rdn.key, path_child parent rdn⟩

theorem exists_parent?_of_path {key : Text × Text} {keys : List (Text × Text)}
    (named : dn.path = key :: keys) : ∃ parent, dn.parent? = some parent ∧ parent.path = keys := by
  obtain ⟨rdns⟩ := dn
  cases rdns with
  | nil => simp [path] at named
  | cons first rest =>
    simp only [path, List.map_cons, List.cons.injEq] at named
    exact ⟨⟨rest⟩, rfl, named.2⟩

theorem isAncestorOrSelfOf_parent (found : dn.parent? = some parent)
    (lies : above.isAncestorOrSelfOf dn = true) (other : above.path ≠ dn.path) :
    above.isAncestorOrSelfOf parent = true := by
  obtain ⟨key, named⟩ := exists_path_eq_of_parent? found
  rw [isAncestorOrSelfOf_iff, named] at lies
  rw [isAncestorOrSelfOf_iff]
  exact (List.suffix_cons_iff.mp lies).resolve_left fun same => other (same.trans named.symm)

theorem parent_isAncestorOrSelfOf (found : dn.parent? = some parent) :
    parent.isAncestorOrSelfOf dn = true := by
  obtain ⟨key, named⟩ := exists_path_eq_of_parent? found
  rw [isAncestorOrSelfOf_iff, named]
  exact List.suffix_cons key _

theorem isAncestorOrSelfOf_of_beq (same : (dn == above) = true) :
    above.isAncestorOrSelfOf dn = true :=
  isAncestorOrSelfOf_iff.mpr (beq_iff_path.mp same ▸ List.suffix_rfl)

theorem isAncestorOf_iff :
    above.isAncestorOf dn = true ↔ above.isAncestorOrSelfOf dn = true ∧ above.path ≠ dn.path := by
  rw [isAncestorOf, Bool.and_eq_true, decide_eq_true_eq, isAncestorOrSelfOf_iff, ← length_path,
    ← length_path]
  constructor
  · rintro ⟨shorter, lies⟩
    exact ⟨lies, fun same => absurd (congrArg List.length same) (Nat.ne_of_lt shorter)⟩
  · rintro ⟨lies, other⟩
    refine ⟨Nat.lt_of_le_of_ne lies.length_le fun same => other ?_, lies⟩
    exact lies.eq_of_length same

theorem length_lt_of_isAncestorOf (lies : above.isAncestorOf dn = true) :
    above.length < dn.length := by
  rw [isAncestorOf, Bool.and_eq_true, decide_eq_true_eq] at lies
  exact lies.1

theorem isAncestorOf_of_parent (found : dn.parent? = some parent)
    (lies : above.isAncestorOrSelfOf parent = true) : above.isAncestorOf dn = true := by
  obtain ⟨key, named⟩ := exists_path_eq_of_parent? found
  refine isAncestorOf_iff.mpr
    ⟨isAncestorOrSelfOf_trans lies (parent_isAncestorOrSelfOf found), fun same => ?_⟩
  have bound := (isAncestorOrSelfOf_iff.mp lies).length_le
  rw [same, named, List.length_cons] at bound
  omega

theorem child_not_lies (lies : above.isAncestorOrSelfOf dn = true) (rdn : Rdn) :
    (dn.child rdn).isAncestorOrSelfOf above = false := by
  rw [Bool.eq_false_iff]
  intro below
  have upper := (isAncestorOrSelfOf_iff.mp lies).length_le
  have lower := (isAncestorOrSelfOf_iff.mp below).length_le
  rw [path_child, List.length_cons] at lower
  omega

theorem relativeTo?_of_lies (lies : above.isAncestorOrSelfOf dn = true) :
    dn.relativeTo? above = some (dn.rdns.take (dn.length - above.length)) := by
  rw [relativeTo?, if_pos lies]

theorem rebase?_eq_some_iff : dn.rebase? source target = some moved ↔
    source.isAncestorOrSelfOf dn = true ∧
      moved = below (dn.rdns.take (dn.length - source.length)) target := by
  simp only [rebase?, relativeTo?]
  split
  · next lies => simp only [Option.map_some, Option.some.injEq, lies, true_and, eq_comm]
  · next outside => simp [outside]

/-- The steps below an ancestor, followed by the ancestor's own path, are the path. -/
theorem path_eq_append (lies : above.isAncestorOrSelfOf dn = true) :
    dn.path = (dn.rdns.take (dn.length - above.length)).map Rdn.key ++ above.path := by
  obtain ⟨steps, whole⟩ := isAncestorOrSelfOf_iff.mp lies
  have size : dn.length - above.length = steps.length := by
    rw [← length_path, ← length_path, ← whole, List.length_append]
    omega
  have front : (dn.rdns.take (dn.length - above.length)).map Rdn.key = steps := by
    rw [List.map_take, size]
    show dn.path.take steps.length = steps
    rw [← whole, List.take_left]
  rw [front, whole]

theorem isRoot_eq_false_iff : dn.isRoot = false ↔ 0 < dn.length := by
  rw [isRoot, length, List.length_pos_iff, ← Bool.not_eq_true, List.isEmpty_iff]

theorem isRoot_eq_false_of_lies (lies : above.isAncestorOrSelfOf dn = true)
    (named : above.isRoot = false) : dn.isRoot = false := by
  have upper := (isAncestorOrSelfOf_iff.mp lies).length_le
  rw [length_path, length_path] at upper
  exact isRoot_eq_false_iff.mpr (Nat.lt_of_lt_of_le (isRoot_eq_false_iff.mp named) upper)

theorem isAncestorOrSelfOf_of_length_le {top bottom : Dn}
    (topLies : top.isAncestorOrSelfOf dn = true) (lies : bottom.isAncestorOrSelfOf dn = true)
    (shorter : top.length ≤ bottom.length) : top.isAncestorOrSelfOf bottom = true := by
  rw [isAncestorOrSelfOf_iff] at topLies lies ⊢
  exact List.suffix_of_suffix_length_le topLies lies (by simpa using shorter)

theorem path_eq_of_length_eq {other : Dn} (lies : above.isAncestorOrSelfOf dn = true)
    (otherLies : other.isAncestorOrSelfOf dn = true) (same : above.length = other.length) :
    above.path = other.path := by
  have inner := isAncestorOrSelfOf_of_length_le lies otherLies (Nat.le_of_eq same)
  exact (isAncestorOrSelfOf_iff.mp inner).eq_of_length (by simpa using same)

theorem length_top {depth : Nat} (within : depth ≤ dn.length) : (dn.top depth).length = depth := by
  rw [top, length, List.length_drop]
  exact Nat.sub_sub_self within

theorem top_isAncestorOrSelfOf (dn : Dn) (depth : Nat) :
    (dn.top depth).isAncestorOrSelfOf dn = true := by
  rw [isAncestorOrSelfOf_iff, path_top]
  exact List.drop_suffix _ _

theorem top_isAncestorOrSelfOf_top {depth deeper : Nat} (upper : depth ≤ deeper)
    (within : deeper ≤ dn.length) : (dn.top depth).isAncestorOrSelfOf (dn.top deeper) = true := by
  refine isAncestorOrSelfOf_of_length_le (top_isAncestorOrSelfOf dn depth)
    (top_isAncestorOrSelfOf dn deeper) ?_
  rw [length_top (Nat.le_trans upper within), length_top within]
  exact upper

theorem path_top_of_lies (lies : above.isAncestorOrSelfOf dn = true) :
    (dn.top above.length).path = above.path := by
  have within := (isAncestorOrSelfOf_iff.mp lies).length_le
  rw [length_path, length_path] at within
  exact path_eq_of_length_eq (top_isAncestorOrSelfOf dn _) lies (length_top within)

theorem mem_ancestors_go {rdns : List Rdn} :
    dn ∈ ancestors.go rdns ↔ dn.rdns <:+ rdns ∧ dn.rdns ≠ [] := by
  obtain ⟨steps⟩ := dn
  induction rdns with
  | nil => simp [ancestors.go]
  | cons rdn above ih =>
    rw [ancestors.go, List.mem_cons, ih, List.suffix_cons_iff, Dn.mk.injEq]
    constructor
    · intro member
      rcases member with rfl | ⟨ends, named⟩
      · exact ⟨.inl rfl, List.cons_ne_nil _ _⟩
      · exact ⟨.inr ends, named⟩
    · intro ending
      rcases ending with ⟨same | ends, named⟩
      · exact .inl same
      · exact .inr ⟨ends, named⟩

theorem descending_ancestors_go (rdns : List Rdn) :
    (ancestors.go rdns).Pairwise fun near far => far.length < near.length := by
  induction rdns with
  | nil => exact .nil
  | cons rdn above ih =>
    refine List.pairwise_cons.mpr ⟨fun far member => ?_, ih⟩
    exact Nat.lt_succ_of_le (mem_ancestors_go.mp member).1.length_le

theorem mem_takeWhile_ancestors_go {rdns : List Rdn} {bound : Nat}
    (member : dn ∈ ancestors.go rdns) (deep : bound ≤ dn.length) :
    dn ∈ (ancestors.go rdns).takeWhile fun ancestor => bound ≤ ancestor.length := by
  induction rdns with
  | nil => simp [ancestors.go] at member
  | cons rdn above ih =>
    have shorter : dn.length ≤ (Dn.mk (rdn :: above)).length :=
      (mem_ancestors_go.mp member).1.length_le
    rw [ancestors.go, List.takeWhile_cons_of_pos (by simpa using Nat.le_trans deep shorter)]
    rcases List.mem_cons.mp member with rfl | member
    · exact List.mem_cons_self
    · exact List.mem_cons_of_mem _ (ih member)

theorem isAncestorOf_of_mem_ancestors (member : above ∈ dn.ancestors) :
    above.isAncestorOf dn = true ∧ above.isRoot = false := by
  obtain ⟨rdns⟩ := dn
  cases rdns with
  | nil => simp [ancestors] at member
  | cons rdn rest =>
    obtain ⟨ends, named⟩ := mem_ancestors_go.mp member
    have lies : above.path <:+ Dn.path ⟨rest⟩ := ends.map Rdn.key
    exact ⟨isAncestorOf_of_parent rfl (isAncestorOrSelfOf_iff.mpr lies),
      isRoot_eq_false_iff.mpr (List.length_pos_iff.mpr named)⟩

theorem exists_mem_ancestors (lies : above.isAncestorOf dn = true) (named : above.isRoot = false) :
    ∃ ancestor ∈ dn.ancestors, ancestor.path = above.path := by
  obtain ⟨orSelf, other⟩ := isAncestorOf_iff.mp lies
  rw [isAncestorOrSelfOf_iff] at orSelf
  obtain ⟨rdns⟩ := dn
  cases rdns with
  | nil => exact absurd (List.suffix_nil.mp orSelf) other
  | cons rdn rest =>
    have ends := (List.suffix_cons_iff.mp orSelf).resolve_left other
    have drops := List.suffix_iff_eq_drop.mp ends
    rw [← List.map_drop] at drops
    refine ⟨⟨_⟩, mem_ancestors_go.mpr ⟨List.drop_suffix _ rest, fun empty => ?_⟩, drops.symm⟩
    have nameless : above.path = [] := drops.trans (congrArg (List.map Rdn.key) empty)
    simp [isRoot, List.map_eq_nil_iff.mp nameless] at named

end Directory.Dn
