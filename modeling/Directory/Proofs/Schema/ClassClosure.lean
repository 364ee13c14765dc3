import Directory.Schema.Conformance
import Mathlib.Data.List.Nodup
import Mathlib.Data.List.Pairwise

namespace Directory.Schema

open Text

/-! # What classes inherit

A class inherits from its superiors and from all that these inherit from.  The closure of the
declared classes finds exactly that, because the designators of a schema that was built are
distinct: a class is passed over only if it was found before. -/

theorem repeated?_eq_none_iff {filed texts : List Text} :
    repeated? filed texts = none ↔
      (texts.map asciiLower).Nodup ∧ ∀ text ∈ texts, asciiLower text ∉ filed := by
  induction texts generalizing filed with
  | nil => simp [repeated?]
  | cons first rest ih =>
    rw [repeated?]
    split
    · next known =>
      simp only [List.contains_iff_mem] at known
      simp [known]
    · next fresh =>
      simp only [List.contains_iff_mem] at fresh
      rw [ih]
      simp only [List.map_cons, List.nodup_cons, List.mem_map, List.mem_cons, not_or,
        forall_eq_or_imp]
      grind

theorem eq_of_designators {α : Type} {definitions : List α} {designators : α → List Text}
    (distinct : ((definitions.flatMap designators).map asciiLower).Nodup) {left right : α}
    (listed : left ∈ definitions) (otherListed : right ∈ definitions) {name other : Text}
    (named : name ∈ designators left) (otherNamed : other ∈ designators right)
    (same : asciiLower name = asciiLower other) : left = right := by
  rw [List.map_flatMap] at distinct
  obtain ⟨_, apart⟩ := List.nodup_flatMap.mp distinct
  have symmetric : Std.Symm
      (Function.onFun List.Disjoint fun definition => (designators definition).map asciiLower) :=
    ⟨fun _ _ disjoint _ left right => disjoint right left⟩
  by_contra different
  have disjoint := apart.forall listed otherListed different
  exact disjoint (List.mem_map_of_mem named) (same ▸ List.mem_map_of_mem otherNamed)

/-- Where designators are distinct, a key leads to the one definition that is filed under it. -/
theorem find?_isFiledUnder_eq_some_iff {α : Type} {definitions : List α}
    {designators : α → List Text}
    (distinct : ((definitions.flatMap designators).map asciiLower).Nodup) {key : Text}
    {definition : α} :
    (definitions.find? fun known => isFiledUnder key (designators known)) = some definition ↔
      definition ∈ definitions ∧
        ∃ designator ∈ designators definition, asciiLower designator = key := by
  have filed (known : α) : isFiledUnder key (designators known) = true ↔
      ∃ designator ∈ designators known, asciiLower designator = key := by
    simp [isFiledUnder]
  constructor
  · intro found
    exact ⟨List.mem_of_find?_eq_some found, (filed definition).mp (List.find?_some
      (p := fun known => isFiledUnder key (designators known)) found)⟩
  · rintro ⟨listed, designator, designates, keyed⟩
    cases found : definitions.find? fun known => isFiledUnder key (designators known) with
    | none =>
      have absent := List.find?_eq_none.mp found definition listed
      exact absurd ((filed definition).mpr ⟨designator, designates, keyed⟩) absent
    | some first =>
      obtain ⟨other, otherDesignates, otherKeyed⟩ := (filed first).mp (List.find?_some
        (p := fun known => isFiledUnder key (designators known)) found)
      rw [eq_of_designators distinct (List.mem_of_find?_eq_some found) listed otherDesignates
        designates (otherKeyed.trans keyed.symm)]

def HasDistinctClasses (schema : Schema) : Prop :=
  ((schema.objectClasses.flatMap ObjectClass.designators).map asciiLower).Nodup

theorem hasDistinctClasses_of_build {attributeTypes : List AttributeType}
    {objectClasses : List ObjectClass} {schema : Schema}
    (built : build attributeTypes objectClasses = .ok schema) : schema.HasDistinctClasses := by
  simp only [build, bind_eq_ok_iff, refuseAny_eq_ok_iff] at built
  obtain ⟨_, _, _, distinct, _, _, same⟩ := built
  cases same
  exact (repeated?_eq_none_iff.mp distinct).1

variable {schema : Schema} {cls other : ObjectClass} {name superior : Text}
  {pending declared : List Text} {found classes : List ObjectClass}

theorem HasDistinctClasses.eq_of_oid (distinct : schema.HasDistinctClasses)
    (member : cls ∈ schema.objectClasses) (otherMember : other ∈ schema.objectClasses)
    (same : cls.oid = other.oid) : cls = other := by
  have designated : ∀ cls : ObjectClass, cls.oid ∈ cls.designators := fun cls => by
    simp [ObjectClass.designators]
  exact eq_of_designators distinct member otherMember (designated cls) (designated other)
    (congrArg asciiLower same)

theorem HasDistinctClasses.objectClass?_eq_some_iff (distinct : schema.HasDistinctClasses) :
    schema.objectClass? name = some cls ↔ cls ∈ schema.objectClasses ∧
      ∃ designator ∈ cls.designators, asciiLower designator = lookupKey name :=
  find?_isFiledUnder_eq_some_iff distinct

/-- The classes that a name stands for, by itself and through superiors. -/
inductive Inherits (schema : Schema) : Text → ObjectClass → Prop where
  | itself {name : Text} {cls : ObjectClass} (known : schema.objectClass? name = some cls) :
      Inherits schema name cls
  | superior {name superior : Text} {cls above : ObjectClass}
      (known : schema.objectClass? name = some cls) (listed : superior ∈ cls.superiors)
      (inherits : Inherits schema superior above) : Inherits schema name above

theorem Inherits.mem_objectClasses (inherits : schema.Inherits name cls) :
    cls ∈ schema.objectClasses := by
  induction inherits with
  | itself known => exact Schema.mem_objectClasses known
  | superior _ _ _ ih => exact ih

theorem classClosure_cons (name : Text) (rest : List Text) (found : List ObjectClass) :
    schema.classClosure (name :: rest) found =
      match schema.objectClass? name with
      | none => .error (.schemaViolation ("unknown object class " ++ name))
      | some cls =>
        if (found.any fun seen => seen.oid == cls.oid) = true then schema.classClosure rest found
        else schema.classClosure (cls.superiors.reverse ++ rest) (found ++ [cls]) := by
  rw [classClosure]
  cases schema.objectClass? name with
  | none => rfl
  | some cls => simp only [dite_eq_ite]

theorem classClosure_nil (found : List ObjectClass) : schema.classClosure [] found = .ok found := by
  rw [classClosure]

theorem inherits_of_mem_classClosure (closed : schema.classClosure pending found = .ok classes)
    (member : cls ∈ classes) : cls ∈ found ∨ ∃ name ∈ pending, schema.Inherits name cls := by
  induction pending, found using classClosure.induct schema with
  | case1 found =>
    rw [classClosure_nil] at closed
    cases closed
    exact .inl member
  | case2 found name rest unknown =>
    rw [classClosure_cons, unknown] at closed
    contradiction
  | case3 found name rest seen known before ih =>
    rw [classClosure_cons, known] at closed
    simp only [if_pos before] at closed
    rcases ih closed with old | ⟨further, listed, inherits⟩
    · exact .inl old
    · exact .inr ⟨further, List.mem_cons_of_mem _ listed, inherits⟩
  | case4 found name rest entered known fresh ih =>
    rw [classClosure_cons, known] at closed
    simp only [if_neg fresh] at closed
    rcases ih closed with old | ⟨further, listed, inherits⟩
    · rcases List.mem_append.mp old with old | new
      · exact .inl old
      · obtain rfl := List.mem_singleton.mp new
        exact .inr ⟨name, List.mem_cons_self, .itself known⟩
    · rcases List.mem_append.mp listed with above | later
      · exact .inr ⟨name, List.mem_cons_self,
          .superior known (List.mem_reverse.mp above) inherits⟩
      · exact .inr ⟨further, List.mem_cons_of_mem _ later, inherits⟩

/-- Whether classes hold what a name stands for. -/
def Resolves (schema : Schema) (classes : List ObjectClass) (name : Text) : Prop :=
  ∃ cls ∈ classes, schema.objectClass? name = some cls

/-- What a closure is once nothing is pending any more. -/
structure IsClosure (schema : Schema) (pending : List Text) (found classes : List ObjectClass) :
    Prop where
  keeps : ∀ cls ∈ found, cls ∈ classes
  resolves : ∀ name ∈ pending, schema.Resolves classes name
  closed : ∀ cls ∈ classes, cls ∈ found ∨ ∀ superior ∈ cls.superiors,
    schema.Resolves classes superior

theorem isClosure_classClosure (distinct : schema.HasDistinctClasses)
    (entered : ∀ cls ∈ found, cls ∈ schema.objectClasses)
    (computed : schema.classClosure pending found = .ok classes) :
    schema.IsClosure pending found classes := by
  induction pending, found using classClosure.induct schema with
  | case1 found =>
    rw [classClosure_nil] at computed
    cases computed
    exact ⟨fun _ member => member, nofun, fun _ member => .inl member⟩
  | case2 found name rest unknown =>
    rw [classClosure_cons, unknown] at computed
    contradiction
  | case3 found name rest cls known before ih =>
    rw [classClosure_cons, known] at computed
    simp only [if_pos before] at computed
    have further := ih entered computed
    obtain ⟨seen, listed, same⟩ := List.any_eq_true.mp before
    have equal : seen = cls :=
      distinct.eq_of_oid (entered seen listed) (mem_objectClasses known) (beq_iff_eq.mp same)
    refine ⟨further.keeps, fun wanted member => ?_, further.closed⟩
    rcases List.mem_cons.mp member with rfl | member
    · exact ⟨cls, further.keeps cls (equal ▸ listed), known⟩
    · exact further.resolves wanted member
  | case4 found name rest cls known fresh ih =>
    rw [classClosure_cons, known] at computed
    simp only [if_neg fresh] at computed
    have enteredNow : ∀ other ∈ found ++ [cls], other ∈ schema.objectClasses := by
      intro other member
      rcases List.mem_append.mp member with member | member
      · exact entered other member
      · rw [List.mem_singleton.mp member]
        exact mem_objectClasses known
    have further := ih enteredNow computed
    refine ⟨fun other member => further.keeps other (List.mem_append_left _ member), ?_, ?_⟩
    · intro wanted member
      rcases List.mem_cons.mp member with rfl | member
      · exact ⟨cls, further.keeps cls (by simp), known⟩
      · exact further.resolves wanted (List.mem_append_right _ member)
    · intro other member
      rcases further.closed other member with before | above
      · rcases List.mem_append.mp before with before | now
        · exact .inl before
        · rw [List.mem_singleton.mp now]
          exact .inr fun superior listed =>
            further.resolves superior (List.mem_append_left _ (List.mem_reverse.mpr listed))
      · exact .inr above

/-- In a closure that started from nothing, what a resolved name stands for is there. -/
theorem IsClosure.mem_of_inherits (closure : schema.IsClosure pending [] classes)
    (resolved : schema.Resolves classes name) (inherits : schema.Inherits name cls) :
    cls ∈ classes := by
  induction inherits with
  | itself known =>
    obtain ⟨other, member, found⟩ := resolved
    exact Option.some.inj (found.symm.trans known) ▸ member
  | superior known listed _ ih =>
    obtain ⟨other, member, found⟩ := resolved
    obtain rfl := Option.some.inj (found.symm.trans known)
    exact ih ((closure.closed other member).resolve_left List.not_mem_nil _ listed)

/-- The resolved classes are the declared ones with all that they inherit from. -/
theorem mem_resolveClasses_iff (distinct : schema.HasDistinctClasses)
    (resolved : schema.resolveClasses declared = .ok classes) :
    cls ∈ classes ↔ ∃ name ∈ declared, schema.Inherits name cls := by
  constructor
  · intro member
    obtain ⟨name, listed, inherits⟩ :=
      (inherits_of_mem_classClosure resolved member).resolve_left List.not_mem_nil
    exact ⟨name, List.mem_reverse.mp listed, inherits⟩
  · intro inherited
    obtain ⟨name, listed, inherits⟩ := inherited
    have closure := isClosure_classClosure distinct (by simp) resolved
    exact closure.mem_of_inherits (closure.resolves name (List.mem_reverse.mpr listed)) inherits

/-- The name and all superiors that it leads to stand for classes. -/
structure KnownThroughout (schema : Schema) (name : Text) : Prop where
  known : ∃ cls, schema.objectClass? name = some cls
  superiorsKnown : ∀ cls, schema.Inherits name cls → ∀ superior ∈ cls.superiors,
    ∃ above, schema.objectClass? superior = some above

theorem KnownThroughout.of_superior (throughout : schema.KnownThroughout name)
    (known : schema.objectClass? name = some cls) (listed : superior ∈ cls.superiors) :
    schema.KnownThroughout superior where
  known := throughout.superiorsKnown cls (.itself known) superior listed
  superiorsKnown above inherits :=
    throughout.superiorsKnown above (.superior known listed inherits)

theorem exists_classClosure (throughout : ∀ name ∈ pending, schema.KnownThroughout name) :
    ∃ classes, schema.classClosure pending found = .ok classes := by
  induction pending, found using classClosure.induct schema with
  | case1 found => exact ⟨found, classClosure_nil found⟩
  | case2 found name rest unknown =>
    obtain ⟨cls, known⟩ := (throughout name List.mem_cons_self).known
    rw [known] at unknown
    contradiction
  | case3 found name rest cls known before ih =>
    rw [classClosure_cons, known]
    simp only [if_pos before]
    exact ih (List.forall_mem_cons.mp throughout).2
  | case4 found name rest cls known fresh ih =>
    rw [classClosure_cons, known]
    simp only [if_neg fresh]
    obtain ⟨here, later⟩ := List.forall_mem_cons.mp throughout
    refine ih (List.forall_mem_append.mpr ⟨fun superior listed => ?_, later⟩)
    exact here.of_superior known (List.mem_reverse.mp listed)

/-- The closure is found exactly if every name that is met stands for a class. -/
theorem exists_resolveClasses_iff (distinct : schema.HasDistinctClasses) :
    (∃ classes, schema.resolveClasses declared = .ok classes) ↔
      ∀ name ∈ declared, schema.KnownThroughout name := by
  constructor
  · rintro ⟨classes, resolved⟩ name listed
    have closure := isClosure_classClosure distinct (by simp) resolved
    obtain ⟨first, isFirst, known⟩ := closure.resolves name (List.mem_reverse.mpr listed)
    refine ⟨⟨first, known⟩, fun cls inherits superior above => ?_⟩
    have member := closure.mem_of_inherits ⟨first, isFirst, known⟩ inherits
    obtain ⟨other, _, found⟩ :=
      (closure.closed cls member).resolve_left List.not_mem_nil superior above
    exact ⟨other, found⟩
  · intro throughout
    exact exists_classClosure fun name listed => throughout name (List.mem_reverse.mp listed)

/-- The closure fails only at a name that stands for no class, a pending one or a superior that
one of these leads to. -/
theorem exists_unknown_of_classClosure {refusal : Error}
    (refused : schema.classClosure pending found = .error refusal) :
    ∃ name, refusal = .schemaViolation ("unknown object class " ++ name) ∧
      schema.objectClass? name = none ∧ (name ∈ pending ∨
        ∃ first ∈ pending, ∃ cls, schema.Inherits first cls ∧ name ∈ cls.superiors) := by
  induction pending, found using classClosure.induct schema with
  | case1 found =>
    rw [classClosure_nil] at refused
    contradiction
  | case2 found name rest unknown =>
    rw [classClosure_cons, unknown] at refused
    cases refused
    exact ⟨name, rfl, unknown, .inl List.mem_cons_self⟩
  | case3 found name rest cls known before ih =>
    rw [classClosure_cons, known] at refused
    simp only [if_pos before] at refused
    obtain ⟨blamed, same, unknown, among⟩ := ih refused
    refine ⟨blamed, same, unknown, among.imp (List.mem_cons_of_mem _) ?_⟩
    exact fun ⟨first, listed, above⟩ => ⟨first, List.mem_cons_of_mem _ listed, above⟩
  | case4 found name rest cls known fresh ih =>
    rw [classClosure_cons, known] at refused
    simp only [if_neg fresh] at refused
    obtain ⟨blamed, same, unknown, among⟩ := ih refused
    refine ⟨blamed, same, unknown, ?_⟩
    rcases among with listed | ⟨first, listed, above, inherits, superior⟩
    · rcases List.mem_append.mp listed with superior | later
      · exact .inr ⟨name, List.mem_cons_self, cls, .itself known, List.mem_reverse.mp superior⟩
      · exact .inl (List.mem_cons_of_mem _ later)
    · rcases List.mem_append.mp listed with below | later
      · exact .inr ⟨name, List.mem_cons_self, above,
          .superior known (List.mem_reverse.mp below) inherits, superior⟩
      · exact .inr ⟨first, List.mem_cons_of_mem _ later, above, inherits, superior⟩

end Directory.Schema
