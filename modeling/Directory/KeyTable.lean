import Directory.Text.Basic

namespace Directory

/-! # Tables with text keys

A table holds its bindings in ascending order of the keys, each key once.  `bindings`
is the view of a table: two tables with the same bindings are equal, and `get?`
determines the bindings. -/

/-- Bindings in strictly ascending order of their keys. -/
structure KeyTable (α : Type u) where
  bindings : List (Text × α)
  ascending : bindings.Pairwise (fun left right => left.1.precedes right.1 = true)

namespace KeyTable

variable {α : Type u}

def empty : KeyTable α := ⟨[], .nil⟩

instance : EmptyCollection (KeyTable α) := ⟨empty⟩

instance : Inhabited (KeyTable α) := ⟨empty⟩

@[ext] theorem ext_bindings {left right : KeyTable α} (same : left.bindings = right.bindings) :
    left = right := by
  cases left; cases right; simp_all

instance [DecidableEq α] : DecidableEq (KeyTable α) := fun left right =>
  decidable_of_iff (left.bindings = right.bindings) ⟨ext_bindings, fun same => same ▸ rfl⟩

def keys (table : KeyTable α) : List Text := table.bindings.map Prod.fst

def values (table : KeyTable α) : List α := table.bindings.map Prod.snd

def size (table : KeyTable α) : Nat := table.bindings.length

def isEmpty (table : KeyTable α) : Bool := table.bindings.isEmpty

def get? (table : KeyTable α) (key : Text) : Option α :=
  (table.bindings.find? (fun binding => binding.1 == key)).map Prod.snd

def contains (table : KeyTable α) (key : Text) : Bool := (table.get? key).isSome

/-- Binds a key in an ascending list, in place of what it was bound to. -/
def bind (key : Text) (value : α) : List (Text × α) → List (Text × α)
  | [] => [(key, value)]
  | binding :: rest =>
    if key.precedes binding.1 then (key, value) :: binding :: rest
    else if key = binding.1 then (key, value) :: rest
    else binding :: bind key value rest

theorem mem_bind {key : Text} {value : α} {bindings : List (Text × α)}
    {binding : Text × α} (member : binding ∈ bind key value bindings) :
    binding = (key, value) ∨ binding ∈ bindings := by
  induction bindings with
  | nil => simp_all [bind]
  | cons first rest ih =>
    unfold bind at member
    split at member
    · simp_all
    · split at member
      · rcases List.mem_cons.mp member with same | member
        · exact .inl same
        · exact .inr (List.mem_cons_of_mem _ member)
      · rcases List.mem_cons.mp member with same | member
        · exact .inr (same ▸ List.mem_cons_self)
        · rcases ih member with same | member
          · exact .inl same
          · exact .inr (List.mem_cons_of_mem _ member)

theorem ascending_bind {key : Text} {value : α} {bindings : List (Text × α)}
    (ascending : bindings.Pairwise (fun left right => left.1.precedes right.1 = true)) :
    (bind key value bindings).Pairwise (fun left right => left.1.precedes right.1 = true) := by
  induction bindings with
  | nil => simp [bind]
  | cons first rest ih =>
    obtain ⟨below, later⟩ := List.pairwise_cons.mp ascending
    unfold bind
    split
    · next before =>
      refine List.pairwise_cons.mpr ⟨?_, ascending⟩
      intro binding member
      rcases List.mem_cons.mp member with rfl | member
      · exact before
      · exact Text.precedes_trans before (below binding member)
    · next notBefore =>
      split
      · next same =>
        refine List.pairwise_cons.mpr ⟨?_, later⟩
        intro binding member
        simpa [same] using below binding member
      · next other =>
        have after : first.1.precedes key = true :=
          (Text.precedes_or_precedes other).resolve_left notBefore
        refine List.pairwise_cons.mpr ⟨?_, ih later⟩
        intro binding member
        rcases mem_bind member with rfl | member
        · exact after
        · exact below binding member

def insert (table : KeyTable α) (key : Text) (value : α) : KeyTable α :=
  ⟨bind key value table.bindings, ascending_bind table.ascending⟩

/-- The bindings whose key and value pass the test. -/
def filter (table : KeyTable α) (keep : Text → α → Bool) : KeyTable α :=
  ⟨table.bindings.filter (fun binding => keep binding.1 binding.2), table.ascending.filter _⟩

def erase (table : KeyTable α) (key : Text) : KeyTable α :=
  table.filter fun bound _ => bound != key

/-- Binds the listed keys in turn, so that the last binding of a key stays. -/
def insertAll (table : KeyTable α) (bindings : List (Text × α)) : KeyTable α :=
  bindings.foldl (fun filled binding => filled.insert binding.1 binding.2) table

def ofList (bindings : List (Text × α)) : KeyTable α :=
  empty.insertAll bindings

private theorem find?_bind (key other : Text) (value : α) (bindings : List (Text × α)) :
    (bind key value bindings).find? (fun binding => binding.1 == other) =
      if key = other then some (key, value)
      else bindings.find? (fun binding => binding.1 == other) := by
  induction bindings with
  | nil => by_cases same : key = other <;> simp [bind, same]
  | cons first rest ih =>
    unfold bind
    split
    · by_cases same : key = other <;> simp [same]
    · split
      · next bound =>
        by_cases same : key = other
        · simp [same]
        · have absent : first.1 ≠ other := fun equal => same (bound.trans equal)
          simp [same, absent]
      · next unbound =>
        by_cases same : key = other
        · have absent : first.1 ≠ other := fun equal => unbound (same.trans equal.symm)
          rw [if_pos same] at ih ⊢
          simpa [absent] using ih
        · by_cases found : first.1 = other
          · simp [found, same]
          · simp [found, ih, same]

@[simp] theorem get?_empty (key : Text) : (empty : KeyTable α).get? key = none := rfl

theorem get?_insert (table : KeyTable α) (key other : Text) (value : α) :
    (table.insert key value).get? other = if key = other then some value else table.get? other := by
  simp only [get?, insert, find?_bind]
  split <;> rfl

theorem get?_erase (table : KeyTable α) (key other : Text) :
    (table.erase key).get? other = if key = other then none else table.get? other := by
  simp only [get?, erase, filter, List.find?_filter]
  by_cases same : key = other
  · rw [if_pos same, List.find?_eq_none.mpr]
    · rfl
    · intro binding _
      simp [same]
  · rw [if_neg same]
    congr 2
    funext binding
    by_cases found : binding.1 = other
    · simp [found, Ne.symm same]
    · simp [found]

/-- What holds of all bindings and of a new one holds of all once that is in its place. -/
theorem forall_insert {table : KeyTable α} {holds : Text → α → Prop} {key : Text} {value : α}
    (all : ∀ bound held, table.get? bound = some held → holds bound held)
    (new : holds key value) :
    ∀ bound held, (table.insert key value).get? bound = some held → holds bound held := by
  intro bound held found
  rw [get?_insert] at found
  split at found
  · next same =>
    cases found
    exact same ▸ new
  · exact all bound held found

theorem forall_erase {table : KeyTable α} {holds : Text → α → Prop}
    (all : ∀ bound held, table.get? bound = some held → holds bound held) (key : Text) :
    ∀ bound held, (table.erase key).get? bound = some held → holds bound held := by
  intro bound held found
  rw [get?_erase] at found
  split at found
  · contradiction
  · exact all bound held found

theorem get?_eq_some_iff {table : KeyTable α} {key : Text} {value : α} :
    table.get? key = some value ↔ (key, value) ∈ table.bindings := by
  constructor
  · intro found
    simp only [get?, Option.map_eq_some_iff] at found
    obtain ⟨binding, located, rfl⟩ := found
    have same : binding.1 = key := by simpa using List.find?_some located
    exact same ▸ List.mem_of_find?_eq_some located
  · intro member
    obtain ⟨bindings, ascending⟩ := table
    simp only [get?]
    simp only at member
    induction bindings with
    | nil => simp at member
    | cons first rest ih =>
      obtain ⟨below, later⟩ := List.pairwise_cons.mp ascending
      rcases List.mem_cons.mp member with rfl | member
      · simp
      · have other : first.1 ≠ key := by
          intro same
          have ascends : first.1.precedes key = true := below (key, value) member
          simp [same, Text.precedes_irrefl] at ascends
        simp only [List.find?_cons, beq_eq_false_iff_ne.mpr other]
        exact ih later member

theorem get?_filter (table : KeyTable α) (keep : Text → α → Bool) (key : Text) :
    (table.filter keep).get? key = (table.get? key).filter (keep key) := by
  apply Option.ext
  intro value
  rw [Option.filter_eq_some_iff, get?_eq_some_iff, get?_eq_some_iff]
  simp only [filter, List.mem_filter]

theorem mem_values_iff {table : KeyTable α} {value : α} :
    value ∈ table.values ↔ ∃ key, table.get? key = some value := by
  simp only [values, List.mem_map, get?_eq_some_iff]
  exact ⟨fun ⟨⟨key, _⟩, member, same⟩ => ⟨key, same ▸ member⟩,
    fun ⟨key, member⟩ => ⟨(key, value), member, rfl⟩⟩

theorem key_eq_of_length_values_le_one {table : KeyTable α} (few : table.values.length ≤ 1)
    {key other : Text} {value otherValue : α} (found : table.get? key = some value)
    (otherFound : table.get? other = some otherValue) : key = other := by
  rw [get?_eq_some_iff] at found otherFound
  rw [values, List.length_map] at few
  match bindings : table.bindings with
  | [] => simp [bindings] at found
  | [only] =>
    simp only [bindings, List.mem_singleton] at found otherFound
    exact congrArg Prod.fst (found.trans otherFound.symm)
  | _ :: _ :: _ => simp [bindings] at few

/-- Tables that answer every look-up alike are equal. -/
theorem ext_get? {left right : KeyTable α} (same : ∀ key, left.get? key = right.get? key) :
    left = right := by
  have shared : ∀ binding, binding ∈ left.bindings ↔ binding ∈ right.bindings := by
    intro binding
    rw [← get?_eq_some_iff, ← get?_eq_some_iff, same]
  obtain ⟨bindings, ascending⟩ := left
  obtain ⟨others, othersAscending⟩ := right
  apply ext_bindings
  simp only at shared ⊢
  clear same
  induction bindings generalizing others with
  | nil =>
    cases others with
    | nil => rfl
    | cons first rest => exact absurd ((shared first).mpr List.mem_cons_self) (by simp)
  | cons first rest ih =>
    cases others with
    | nil => exact absurd ((shared first).mp List.mem_cons_self) (by simp)
    | cons head tail =>
      obtain ⟨below, later⟩ := List.pairwise_cons.mp ascending
      obtain ⟨headBelow, tailLater⟩ := List.pairwise_cons.mp othersAscending
      have equal : first = head := by
        rcases List.mem_cons.mp ((shared first).mp List.mem_cons_self) with equal | inTail
        · exact equal
        · rcases List.mem_cons.mp ((shared head).mpr List.mem_cons_self) with equal | inRest
          · exact equal.symm
          · exact absurd (headBelow first inTail)
              (by simp [Text.precedes_asymm (below head inRest)])
      subst equal
      congr 1
      refine ih later tail tailLater ?_
      intro binding
      constructor
      · intro member
        rcases List.mem_cons.mp ((shared binding).mp (List.mem_cons_of_mem _ member)) with
          rfl | member'
        · exact absurd (below _ member) (by simp [Text.precedes_irrefl])
        · exact member'
      · intro member
        rcases List.mem_cons.mp ((shared binding).mpr (List.mem_cons_of_mem _ member)) with
          rfl | member'
        · exact absurd (headBelow _ member) (by simp [Text.precedes_irrefl])
        · exact member'

theorem values_filter {table : KeyTable α} {keep : Text → α → Bool} {test : α → Bool}
    (same : ∀ key value, table.get? key = some value → keep key value = test value) :
    (table.filter keep).values = table.values.filter test := by
  rw [values, values, filter, List.filter_map]
  refine congrArg (List.map Prod.snd) (List.filter_congr fun binding bound => ?_)
  exact same binding.1 binding.2 (get?_eq_some_iff.mpr bound)

theorem values_filter_key (table : KeyTable α) (key : Text) :
    (table.filter fun bound _ => bound == key).values = (table.get? key).toList := by
  obtain ⟨bindings, ascending⟩ := table
  simp only [values, filter, get?]
  induction bindings with
  | nil => rfl
  | cons first rest ih =>
    obtain ⟨below, later⟩ := List.pairwise_cons.mp ascending
    by_cases found : first.1 = key
    · have others : rest.filter (fun binding => binding.1 == key) = [] := by
        refine List.filter_eq_nil_iff.mpr fun binding listed same => ?_
        have before := below binding listed
        rw [found, beq_iff_eq.mp same, Text.precedes_irrefl] at before
        contradiction
      simp [found, others]
    · simpa [found] using ih later

/-- What passes a test that one key alone passes. -/
theorem values_filter_eq_singleton {table : KeyTable α} {key : Text} {value : α}
    {keep : Text → α → Bool} (bound : table.get? key = some value) (kept : keep key value = true)
    (alone : ∀ other found, table.get? other = some found → keep other found = true →
      other = key) :
    (table.filter keep).values = [value] := by
  have same : table.filter keep = empty.insert key value := by
    refine ext_get? fun other => ?_
    rw [get?_filter, get?_insert, get?_empty]
    split
    · next here => rw [← here, bound, Option.filter_some, if_pos kept]
    · next elsewhere =>
      rw [Option.filter_eq_none_iff]
      exact fun found isBound isKept => elsewhere (alone other found isBound isKept).symm
  rw [same]
  rfl

/-- The distinct texts of a list in ascending order. -/
def distinctTexts (texts : List Text) : List Text :=
  (ofList (texts.map fun text => (text, ()))).keys

private theorem get?_insertAll_units (texts : List Text) (table : KeyTable Unit) (key : Text) :
    (table.insertAll (texts.map fun text => (text, ()))).get? key =
      if key ∈ texts then some () else table.get? key := by
  induction texts generalizing table with
  | nil => simp [insertAll]
  | cons text rest ih =>
    have filled := ih (table.insert text ())
    simp only [insertAll] at filled
    simp only [insertAll, List.map_cons, List.foldl_cons, filled, get?_insert, List.mem_cons]
    by_cases same : key = text
    · simp [same]
    · simp [same, Ne.symm same]

theorem mem_distinctTexts {text : Text} {texts : List Text} :
    text ∈ distinctTexts texts ↔ text ∈ texts := by
  have found := get?_insertAll_units texts empty text
  simp only [get?_empty] at found
  simp only [distinctTexts, keys, ofList, List.mem_map]
  constructor
  · rintro ⟨binding, member, rfl⟩
    rw [get?_eq_some_iff.mpr member] at found
    by_cases listed : binding.1 ∈ texts
    · exact listed
    · simp [listed] at found
  · intro listed
    rw [if_pos listed] at found
    exact ⟨(text, ()), get?_eq_some_iff.mp found, rfl⟩

end KeyTable

end Directory
