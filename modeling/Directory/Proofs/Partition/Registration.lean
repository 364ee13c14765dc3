import Directory.Proofs.Name.Tree
import Directory.Proofs.Partition.Contexts
import Mathlib.Data.List.Induction
import Mathlib.Data.List.Pairwise

namespace Directory

/-! # Registration

Partitions are told apart by their identifiers and own trees that share no name.  A registration
keeps it so, whatever was accepted or refused before, and so it does not matter in which order
partitions were registered. -/

/-- Neither the identifiers nor the trees of the partitions clash. -/
structure Partition.Apart (left right : Partition) : Prop where
  ids : left.id ≠ right.id
  trees : NamingContexts.overlap left.suffix right.suffix = false

theorem NamingContexts.overlap_eq_false_iff {left right : Dn} : overlap left right = false ↔
    left.isAncestorOrSelfOf right = false ∧ right.isAncestorOrSelfOf left = false := by
  rw [overlap, Bool.or_eq_false_iff]

theorem Partition.Apart.symm {left right : Partition} (apart : left.Apart right) :
    right.Apart left where
  ids := apart.ids.symm
  trees := NamingContexts.overlap_eq_false_iff.mpr
    (NamingContexts.overlap_eq_false_iff.mp apart.trees).symm

namespace NamingContexts

/-- No partition owns the root, and any two are apart. -/
structure IsSeparated (contexts : NamingContexts) : Prop where
  named : ∀ partition ∈ contexts.partitions, partition.suffix.isRoot = false
  apart : contexts.partitions.Pairwise Partition.Apart

/-- What some calls of registration made of no partitions. -/
def IsRegistered (contexts : NamingContexts) : Prop :=
  ∃ calls, contexts = empty.registerAll calls

/-- Of the partitions that cover a name the one with the longest suffix, and the last of several
with suffixes of that length. -/
def longestCovering? (contexts : NamingContexts) (dn : Dn) : Option Partition :=
  (contexts.partitions.filter fun partition => partition.suffix.isAncestorOrSelfOf dn).foldl
    (fun longest? partition =>
      match longest? with
      | none => some partition
      | some longest =>
        if partition.suffix.length < longest.suffix.length then some longest else some partition)
    none

variable {contexts : NamingContexts} {partition other : Partition} {dn : Dn}

/-- Trees that share a name overlap: of two ancestors of one name the shorter lies above. -/
theorem overlap_of_lies {left right : Dn} (leftLies : left.isAncestorOrSelfOf dn = true)
    (rightLies : right.isAncestorOrSelfOf dn = true) : overlap left right = true := by
  rw [overlap, Bool.or_eq_true]
  rcases Nat.le_total left.length right.length with shorter | longer
  · exact .inl (Dn.isAncestorOrSelfOf_of_length_le leftLies rightLies shorter)
  · exact .inr (Dn.isAncestorOrSelfOf_of_length_le rightLies leftLies longer)

/-- Whether partitions are separated is told by their identifiers and suffixes. -/
theorem isSeparated_iff_frame : contexts.IsSeparated ↔
    (∀ place ∈ contexts.frame, place.2.isRoot = false) ∧
      contexts.frame.Pairwise fun left right =>
        left.1 ≠ right.1 ∧ overlap left.2 right.2 = false := by
  simp only [frame, List.forall_mem_map, List.pairwise_map]
  constructor
  · intro separated
    exact ⟨separated.named, separated.apart.imp fun apart => ⟨apart.ids, apart.trees⟩⟩
  · intro placed
    exact ⟨placed.1, placed.2.imp fun beside => ⟨beside.1, beside.2⟩⟩

theorem conflict?_eq_none_iff : contexts.conflict? partition = none ↔
    partition.suffix.isRoot = false ∧ ∀ other ∈ contexts.partitions, other.Apart partition := by
  rw [conflict?]
  split
  · next root => simp [root]
  · next named =>
    rw [Bool.not_eq_true] at named
    rw [List.findSome?_eq_none_iff]
    constructor
    · intro free
      refine ⟨named, fun other listed => ?_⟩
      have passes := free other listed
      split at passes
      · contradiction
      · next ids =>
        split at passes
        · contradiction
        · next trees => exact ⟨by simpa using ids, by simpa using trees⟩
    · intro ⟨_, apart⟩ other listed
      obtain ⟨ids, trees⟩ := apart other listed
      rw [if_neg (by simpa using ids), if_neg (by simp [trees])]

theorem register_of_clear (clear : contexts.conflict? partition = none) :
    contexts.register partition = (.ok (), ⟨contexts.partitions ++ [partition]⟩) := by
  rw [register, clear]

/-- A partition is kept out, and nothing changes, or it comes last. -/
theorem register_cases (contexts : NamingContexts) (partition : Partition) :
    (∃ refusal, contexts.register partition = (.error refusal, contexts)) ∨
      contexts.conflict? partition = none ∧
        contexts.register partition = (.ok (), ⟨contexts.partitions ++ [partition]⟩) := by
  cases conflicts : contexts.conflict? partition with
  | some conflict => exact .inl ⟨conflict, by rw [register, conflicts]⟩
  | none => exact .inr ⟨rfl, register_of_clear conflicts⟩

/-- A partition may join separated ones exactly if all are separated then. -/
theorem isSeparated_append_iff {before : List Partition} :
    IsSeparated ⟨before ++ [partition]⟩ ↔
      IsSeparated ⟨before⟩ ∧ conflict? ⟨before⟩ partition = none := by
  rw [conflict?_eq_none_iff]
  constructor
  · intro ⟨named, apart⟩
    obtain ⟨earlier, _, beside⟩ := List.pairwise_append.mp apart
    exact ⟨⟨fun other listed => named other (List.mem_append_left _ listed), earlier⟩,
      named partition (List.mem_append_right _ (List.mem_singleton.mpr rfl)),
      fun other listed => beside other listed partition (List.mem_singleton.mpr rfl)⟩
  · intro ⟨⟨named, apart⟩, isNamed, beside⟩
    refine ⟨fun other listed => ?_, List.pairwise_append.mpr
      ⟨apart, List.pairwise_singleton _ _, fun other listed added isAdded => ?_⟩⟩
    · rcases List.mem_append.mp listed with listed | isAdded
      · exact named other listed
      · rw [List.mem_singleton.mp isAdded]
        exact isNamed
    · rw [List.mem_singleton.mp isAdded]
      exact beside other listed

theorem IsSeparated.register (separated : contexts.IsSeparated) (partition : Partition) :
    (contexts.register partition).2.IsSeparated := by
  rcases register_cases contexts partition with ⟨_, refused⟩ | ⟨clear, accepted⟩
  · rw [refused]
    exact separated
  · rw [accepted]
    exact isSeparated_append_iff.mpr ⟨separated, clear⟩

theorem IsSeparated.registerAll (separated : contexts.IsSeparated) (calls : List Partition) :
    (contexts.registerAll calls).IsSeparated := by
  induction calls generalizing contexts with
  | nil => exact separated
  | cons first rest ih => exact ih (separated.register first)

theorem IsRegistered.isSeparated (registered : contexts.IsRegistered) : contexts.IsSeparated := by
  obtain ⟨calls, rfl⟩ := registered
  have nothing : empty.IsSeparated := ⟨nofun, .nil⟩
  exact nothing.registerAll calls

theorem registerAll_append (contexts : NamingContexts) (first later : List Partition) :
    contexts.registerAll (first ++ later) = (contexts.registerAll first).registerAll later :=
  List.foldl_append

theorem IsRegistered.register (registered : contexts.IsRegistered) (partition : Partition) :
    (contexts.register partition).2.IsRegistered := by
  obtain ⟨calls, rfl⟩ := registered
  refine ⟨calls ++ [partition], ?_⟩
  rw [registerAll_append]
  rfl

theorem IsSeparated.registerAll_eq {partitions : List Partition}
    (separated : IsSeparated ⟨partitions⟩) : empty.registerAll partitions = ⟨partitions⟩ := by
  induction partitions using List.reverseRecOn with
  | nil => rfl
  | append_singleton before partition ih =>
    obtain ⟨earlier, clear⟩ := isSeparated_append_iff.mp separated
    rw [registerAll_append, ih earlier]
    exact congrArg Prod.snd (register_of_clear clear)

theorem IsSeparated.register_eq_ok {before after : List Partition}
    (separated : IsSeparated ⟨before ++ partition :: after⟩) :
    ((empty.registerAll before).register partition).1 = .ok () := by
  have earlier : IsSeparated ⟨before ++ [partition]⟩ := by
    have split : before ++ partition :: after = (before ++ [partition]) ++ after := by simp
    rw [split] at separated
    exact ⟨fun other listed => separated.named other (List.mem_append_left _ listed),
      (List.pairwise_append.mp separated.apart).1⟩
  obtain ⟨separatedBefore, clear⟩ := isSeparated_append_iff.mp earlier
  rw [separatedBefore.registerAll_eq, register_of_clear clear]

theorem IsSeparated.of_perm {others : List Partition} (separated : contexts.IsSeparated)
    (reordered : others.Perm contexts.partitions) : IsSeparated ⟨others⟩ :=
  ⟨fun partition listed => separated.named partition (reordered.subset listed),
    (reordered.pairwise_iff fun apart => apart.symm).mpr separated.apart⟩

theorem IsSeparated.eq_of_lies (separated : contexts.IsSeparated)
    (member : partition ∈ contexts.partitions) (otherMember : other ∈ contexts.partitions)
    (lies : partition.suffix.isAncestorOrSelfOf dn = true)
    (otherLies : other.suffix.isAncestorOrSelfOf dn = true) : partition = other := by
  by_contra different
  have symmetric : Std.Symm Partition.Apart := ⟨fun _ _ apart => apart.symm⟩
  have apart := separated.apart.forall member otherMember different
  exact Bool.false_ne_true (apart.trees.symm.trans (overlap_of_lies lies otherLies))

theorem IsSeparated.resolve?_eq_some_iff (separated : contexts.IsSeparated) :
    contexts.resolve? dn = some partition ↔
      partition ∈ contexts.partitions ∧ partition.suffix.isAncestorOrSelfOf dn = true := by
  refine ⟨mem_of_resolve?, fun ⟨member, lies⟩ => ?_⟩
  cases found : contexts.resolve? dn with
  | none => exact absurd lies (List.find?_eq_none.mp found partition member)
  | some first =>
    obtain ⟨firstMember, firstLies⟩ := mem_of_resolve? found
    rw [separated.eq_of_lies firstMember member firstLies lies]

/-- The longest suffix is the only one. -/
theorem IsSeparated.longestCovering?_eq (separated : contexts.IsSeparated) (dn : Dn) :
    contexts.longestCovering? dn = contexts.resolve? dn := by
  rw [longestCovering?, resolve?, ← List.head?_filter]
  have single := separated.apart.filter fun partition => partition.suffix.isAncestorOrSelfOf dn
  have covers : ∀ partition ∈ contexts.partitions.filter fun partition =>
      partition.suffix.isAncestorOrSelfOf dn, partition.suffix.isAncestorOrSelfOf dn = true :=
    fun partition listed => (List.mem_filter.mp listed).2
  generalize (contexts.partitions.filter fun partition =>
    partition.suffix.isAncestorOrSelfOf dn) = covering at single covers ⊢
  match covering with
  | [] => rfl
  | [partition] => rfl
  | partition :: other :: rest =>
    have apart := (List.pairwise_cons.mp single).1 other List.mem_cons_self
    have overlaps := overlap_of_lies (covers partition List.mem_cons_self)
      (covers other (List.mem_cons_of_mem _ List.mem_cons_self))
    exact absurd (apart.trees.symm.trans overlaps) Bool.false_ne_true

theorem IsSeparated.resolve?_of_perm {others : List Partition} (separated : contexts.IsSeparated)
    (reordered : others.Perm contexts.partitions) (dn : Dn) :
    resolve? ⟨others⟩ dn = contexts.resolve? dn := by
  refine Option.ext fun partition => ?_
  rw [separated.resolve?_eq_some_iff, (separated.of_perm reordered).resolve?_eq_some_iff]
  exact and_congr_left' reordered.mem_iff

/-- After any calls of registration, accepted or not: a refused call changes nothing; no suffix is
the root; identifiers differ and suffixes lie in different trees; a name is covered by at most one
partition, the one it is resolved to; and in whatever order the same partitions are registered, all
are accepted and names are resolved as before. -/
theorem registration_keeps_trees_apart (registered : contexts.IsRegistered) :
    (∀ partition refusal, (contexts.register partition).1 = .error refusal →
        (contexts.register partition).2 = contexts) ∧
      (∀ partition ∈ contexts.partitions, partition.suffix.isRoot = false) ∧
      (contexts.partitions.Pairwise fun left right =>
        left.id ≠ right.id ∧ left.suffix.isAncestorOrSelfOf right.suffix = false ∧
          right.suffix.isAncestorOrSelfOf left.suffix = false) ∧
      (∀ dn, contexts.resolve? dn = contexts.longestCovering? dn ∧
        (∀ partition, contexts.resolve? dn = some partition ↔
          partition ∈ contexts.partitions ∧ partition.suffix.isAncestorOrSelfOf dn = true) ∧
        ∀ left ∈ contexts.partitions, ∀ right ∈ contexts.partitions,
          left.suffix.isAncestorOrSelfOf dn = true → right.suffix.isAncestorOrSelfOf dn = true →
          left = right) ∧
      ∀ others, others.Perm contexts.partitions →
        (∀ before partition after, others = before ++ partition :: after →
          ((empty.registerAll before).register partition).1 = .ok ()) ∧
        (empty.registerAll others).partitions = others ∧
        ∀ dn, (empty.registerAll others).resolve? dn = contexts.resolve? dn ∧
          (empty.registerAll others).longestCovering? dn = contexts.longestCovering? dn := by
  have separated := registered.isSeparated
  refine ⟨fun partition refusal refused => ?_, separated.named, ?_, fun dn => ?_,
    fun others reordered => ?_⟩
  · rcases register_cases contexts partition with ⟨_, kept⟩ | ⟨_, accepted⟩
    · rw [kept]
    · rw [accepted] at refused
      cases refused
  · exact separated.apart.imp fun apart => ⟨apart.ids, overlap_eq_false_iff.mp apart.trees⟩
  · exact ⟨(separated.longestCovering?_eq dn).symm, fun _ => separated.resolve?_eq_some_iff,
      fun _ member _ otherMember => separated.eq_of_lies member otherMember⟩
  · have again := separated.of_perm reordered
    refine ⟨?_, by rw [again.registerAll_eq], fun dn => ?_⟩
    · rintro before partition after rfl
      exact again.register_eq_ok
    · rw [again.registerAll_eq, again.longestCovering?_eq, separated.longestCovering?_eq]
      exact ⟨separated.resolve?_of_perm reordered dn, separated.resolve?_of_perm reordered dn⟩

/-- The partition of `ou=x,o=a` is kept out beside that of `o=a`; the other two may come in either
order. -/
theorem registration_keeps_trees_apart_reordered :
    ∃ upper lower beside : Dn,
      Dn.parse "o=a" = .ok upper ∧ Dn.parse "ou=x,o=a" = .ok lower ∧ Dn.parse "o=b" = .ok beside ∧
      (empty.registerAll [.empty "p" upper, .empty "q" lower, .empty "r" beside]).partitions =
        [.empty "p" upper, .empty "r" beside] ∧
      ((empty.registerAll [.empty "r" beside]).register (.empty "p" upper)).1 = .ok () ∧
      (empty.registerAll [.empty "r" beside, .empty "p" upper]).resolve? lower =
        some (.empty "p" upper) := by
  have run : (do
      let upper ← Dn.parse "o=a"
      let lower ← Dn.parse "ou=x,o=a"
      let beside ← Dn.parse "o=b"
      let contexts := empty.registerAll [.empty "p" upper, .empty "q" lower, .empty "r" beside]
      Except.ok (decide (contexts.partitions = [.empty "p" upper, .empty "r" beside] ∧
        contexts.resolve? lower = some (.empty "p" upper)))) = Except.ok (ε := Error) true := by
    decide +kernel
  obtain ⟨upper, read, run⟩ := bind_eq_ok_iff.mp run
  obtain ⟨lower, lowerRead, run⟩ := bind_eq_ok_iff.mp run
  obtain ⟨beside, besideRead, run⟩ := bind_eq_ok_iff.mp run
  obtain ⟨kept, resolved⟩ := of_decide_eq_true (Except.ok.inj run)
  have registered : (empty.registerAll
      [.empty "p" upper, .empty "q" lower, .empty "r" beside]).IsRegistered := ⟨_, rfl⟩
  have reordered : [Partition.empty "r" beside, .empty "p" upper].Perm (empty.registerAll
      [.empty "p" upper, .empty "q" lower, .empty "r" beside]).partitions := by
    rw [kept]
    exact .swap _ _ _
  obtain ⟨_, _, _, _, again⟩ := registration_keeps_trees_apart registered
  obtain ⟨accepts, _, resolves⟩ := again _ reordered
  exact ⟨upper, lower, beside, read, lowerRead, besideRead, kept, accepts [_] _ [] rfl,
    (resolves lower).1.trans resolved⟩

end NamingContexts

end Directory
