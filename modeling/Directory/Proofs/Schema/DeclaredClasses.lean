import Directory.Proofs.Schema.References

namespace Directory.Schema

open Text

/-! # What declared classes come to

Superiors may lead back to a class or lead to it in several ways.  The closure of the declared
classes ends all the same, as each class brings its superiors once, and it has each class once.
Which classes these are depends on the classes that are declared and on nothing else about the
list. -/

variable {schema : Schema} {cls : ObjectClass} {name other : Text} {turns : Nat}
  {pending declared others : List Text} {found classes : List ObjectClass}

/-- The closure if it ends within the turns, each of which takes a name. -/
def closureWithin (schema : Schema) :
    Nat → List Text → List ObjectClass → Option (Except Error (List ObjectClass))
  | _, [], found => some (.ok found)
  | 0, _ :: _, _ => none
  | turns + 1, name :: rest, found =>
    match schema.objectClass? name with
    | none => some (.error (.schemaViolation ("unknown object class " ++ name)))
    | some cls =>
      if found.any fun seen => seen.oid == cls.oid then schema.closureWithin turns rest found
      else schema.closureWithin turns (cls.superiors.reverse ++ rest) (found ++ [cls])

theorem closureWithin_nil (turns : Nat) :
    schema.closureWithin turns [] found = some (.ok found) := by
  cases turns <;> rfl

/-- A turn takes a name, and what it puts in its place are superiors that were still to be met. -/
theorem closureWithin_eq (enough : pending.length + superiorCount (schema.unseen found) ≤ turns) :
    schema.closureWithin turns pending found = some (schema.classClosure pending found) := by
  induction pending, found using classClosure.induct schema generalizing turns with
  | case1 found => rw [closureWithin_nil, classClosure_nil]
  | case2 found name rest unknown =>
    cases turns with
    | zero => simp at enough
    | succ turns => rw [closureWithin, classClosure_cons, unknown]
  | case3 found name rest cls known before ih =>
    cases turns with
    | zero => simp at enough
    | succ turns =>
      rw [closureWithin, classClosure_cons, known]
      simp only [if_pos before]
      rw [List.length_cons] at enough
      exact ih (by omega)
  | case4 found name rest cls known fresh ih =>
    cases turns with
    | zero => simp at enough
    | succ turns =>
      have entered := superiorCount_unseen_add_le known fresh
      rw [closureWithin, classClosure_cons, known]
      simp only [if_neg fresh]
      rw [List.length_cons] at enough
      refine ih ?_
      rw [List.length_append, List.length_reverse]
      omega

/-- There are no more turns than names declared and superiors named in the schema. -/
theorem closureWithin_declared (schema : Schema) (declared : List Text) :
    schema.closureWithin (declared.length + superiorCount schema.objectClasses)
      declared.reverse [] = some (schema.resolveClasses declared) := by
  have all : schema.unseen [] = schema.objectClasses := List.filter_eq_self.mpr fun _ _ => rfl
  refine closureWithin_eq (Nat.le_of_eq ?_)
  rw [all, List.length_reverse]

theorem nodup_oids_classClosure (apart : (found.map ObjectClass.oid).Nodup)
    (closed : schema.classClosure pending found = .ok classes) :
    (classes.map ObjectClass.oid).Nodup := by
  induction pending, found using classClosure.induct schema with
  | case1 found =>
    rw [classClosure_nil] at closed
    cases closed
    exact apart
  | case2 found name rest unknown =>
    rw [classClosure_cons, unknown] at closed
    contradiction
  | case3 found name rest cls known before ih =>
    rw [classClosure_cons, known] at closed
    simp only [if_pos before] at closed
    exact ih apart closed
  | case4 found name rest cls known fresh ih =>
    rw [classClosure_cons, known] at closed
    simp only [if_neg fresh] at closed
    refine ih ?_ closed
    rw [List.map_append, List.map_singleton, ← List.concat_eq_append, List.nodup_concat]
    refine ⟨fun listed => fresh ?_, apart⟩
    obtain ⟨seen, isFound, same⟩ := List.mem_map.mp listed
    exact List.any_eq_true.mpr ⟨seen, isFound, beq_iff_eq.mpr same⟩

theorem nodup_resolveClasses (resolved : schema.resolveClasses declared = .ok classes) :
    classes.Nodup := by
  refine .of_map _ (nodup_oids_classClosure ?_ resolved)
  exact List.nodup_nil

/-- The names are the same, or designate one class. -/
def CallsAlike (schema : Schema) (name other : Text) : Prop :=
  name = other ∨
    ∃ cls ∈ schema.objectClasses, Designates name cls.designators ∧ Designates other cls.designators

instance (schema : Schema) (name other : Text) : Decidable (schema.CallsAlike name other) :=
  inferInstanceAs (Decidable (_ ∨ ∃ _ ∈ _, _))

theorem CallsAlike.objectClass?_eq (alike : schema.CallsAlike name other)
    (distinct : schema.HasDistinctClasses) :
    schema.objectClass? name = schema.objectClass? other := by
  rcases alike with rfl | ⟨cls, listed, named, otherNamed⟩
  · rfl
  · rw [(distinct.objectClass?_eq_some_iff_designates listed).mpr named,
      (distinct.objectClass?_eq_some_iff_designates listed).mpr otherNamed]

theorem Inherits.congr (same : schema.objectClass? name = schema.objectClass? other)
    (inherits : schema.Inherits name cls) : schema.Inherits other cls := by
  cases inherits with
  | itself known => exact .itself (same ▸ known)
  | superior known listed above => exact .superior (same ▸ known) listed above

theorem KnownThroughout.congr (same : schema.objectClass? name = schema.objectClass? other)
    (throughout : schema.KnownThroughout name) : schema.KnownThroughout other where
  known := same ▸ throughout.known
  superiorsKnown cls inherits := throughout.superiorsKnown cls (inherits.congr same.symm)

/-- If each list has what the names of the other are looked up as, they lead to the same classes. -/
theorem exists_perm_resolveClasses (distinct : schema.HasDistinctClasses)
    (covered : ∀ name ∈ declared, ∃ other ∈ others,
      schema.objectClass? name = schema.objectClass? other)
    (covers : ∀ other ∈ others, ∃ name ∈ declared,
      schema.objectClass? name = schema.objectClass? other)
    (resolved : schema.resolveClasses declared = .ok classes) :
    ∃ reordered, schema.resolveClasses others = .ok reordered ∧ reordered.Perm classes := by
  have throughout := (exists_resolveClasses_iff distinct).mp ⟨classes, resolved⟩
  obtain ⟨reordered, otherResolved⟩ : ∃ reordered, schema.resolveClasses others = .ok reordered :=
    (exists_resolveClasses_iff distinct).mpr fun other listed => by
      obtain ⟨name, isDeclared, same⟩ := covers other listed
      exact (throughout name isDeclared).congr same
  refine ⟨reordered, otherResolved, (List.perm_ext_iff_of_nodup (nodup_resolveClasses otherResolved)
    (nodup_resolveClasses resolved)).mpr fun cls => ?_⟩
  rw [mem_resolveClasses_iff distinct otherResolved, mem_resolveClasses_iff distinct resolved]
  constructor
  · rintro ⟨other, listed, inherits⟩
    obtain ⟨name, isDeclared, same⟩ := covers other listed
    exact ⟨name, isDeclared, inherits.congr same.symm⟩
  · rintro ⟨name, isDeclared, inherits⟩
    obtain ⟨other, listed, same⟩ := covered name isDeclared
    exact ⟨other, listed, inherits.congr same⟩

variable {attributeTypes : List AttributeType} {objectClasses : List ObjectClass}

/-- The closure of declared classes ends after as many turns as names are declared and superiors
named at most.  If every name that it meets stands for a class, it returns each class that the
declared ones inherit from, themselves included, once and no other, and if not, it blames a name
that it meets.  Lists that call the same classes lead to the same ones, or neither does to any. -/
theorem resolveClasses_exact (built : build attributeTypes objectClasses = .ok schema)
    (declared : List Text) :
    schema.closureWithin (declared.length + superiorCount schema.objectClasses)
        declared.reverse [] = some (schema.resolveClasses declared) ∧
      ((∀ name ∈ declared, schema.KnownThroughout name) →
        ∃ classes, schema.resolveClasses declared = .ok classes ∧ classes.Nodup ∧
          ∀ cls, cls ∈ classes ↔ ∃ name ∈ declared, schema.Inherits name cls) ∧
      ((¬ ∀ name ∈ declared, schema.KnownThroughout name) →
        ∃ name, schema.resolveClasses declared =
            .error (.schemaViolation ("unknown object class " ++ name)) ∧
          schema.objectClass? name = none ∧ (name ∈ declared ∨
            ∃ first ∈ declared, ∃ cls, schema.Inherits first cls ∧ name ∈ cls.superiors)) ∧
      ∀ others, (∀ name ∈ declared, ∃ other ∈ others, schema.CallsAlike name other) →
        (∀ other ∈ others, ∃ name ∈ declared, schema.CallsAlike name other) →
          (∃ classes reordered, schema.resolveClasses declared = .ok classes ∧
            schema.resolveClasses others = .ok reordered ∧ reordered.Perm classes) ∨
          (∃ refusal otherRefusal, schema.resolveClasses declared = .error refusal ∧
            schema.resolveClasses others = .error otherRefusal) := by
  have distinct := hasDistinctClasses_of_build built
  refine ⟨closureWithin_declared schema declared, fun throughout => ?_, fun unknown => ?_,
    fun others covered covers => ?_⟩
  · obtain ⟨classes, resolved⟩ := (exists_resolveClasses_iff distinct).mpr throughout
    exact ⟨classes, resolved, nodup_resolveClasses resolved,
      fun cls => mem_resolveClasses_iff distinct resolved⟩
  · cases resolved : schema.resolveClasses declared with
    | ok classes => exact absurd ((exists_resolveClasses_iff distinct).mp ⟨_, resolved⟩) unknown
    | error refusal =>
      obtain ⟨name, rfl, isUnknown, among⟩ := exists_unknown_of_classClosure resolved
      simp only [List.mem_reverse] at among
      exact ⟨name, rfl, isUnknown, among⟩
  · have sameCovered : ∀ name ∈ declared, ∃ other ∈ others,
        schema.objectClass? name = schema.objectClass? other := fun name listed => by
      obtain ⟨other, isOther, alike⟩ := covered name listed
      exact ⟨other, isOther, alike.objectClass?_eq distinct⟩
    have sameCovers : ∀ other ∈ others, ∃ name ∈ declared,
        schema.objectClass? name = schema.objectClass? other := fun other listed => by
      obtain ⟨name, isDeclared, alike⟩ := covers other listed
      exact ⟨name, isDeclared, alike.objectClass?_eq distinct⟩
    cases resolved : schema.resolveClasses declared with
    | ok classes =>
      obtain ⟨reordered, otherResolved, permuted⟩ :=
        exists_perm_resolveClasses distinct sameCovered sameCovers resolved
      exact .inl ⟨classes, reordered, rfl, otherResolved, permuted⟩
    | error refusal =>
      cases otherResolved : schema.resolveClasses others with
      | error otherRefusal => exact .inr ⟨refusal, otherRefusal, rfl, rfl⟩
      | ok reordered =>
        obtain ⟨classes, impossible, _⟩ := exists_perm_resolveClasses distinct
          (fun other listed => (sameCovers other listed).imp fun _ => .imp_right Eq.symm)
          (fun name listed => (sameCovered name listed).imp fun _ => .imp_right Eq.symm)
          otherResolved
        rw [resolved] at impossible
        contradiction

/-- Two ways up from a class meet above it, and from there one leads back to it.  The class is
declared by a name and by its object identifier, and the other list calls it by another name. -/
theorem resolveClasses_exact_of_cycle :
    ∃ (schema : Schema) (classes reordered : List ObjectClass),
      build [] [⟨"1.1", ["a", "alpha"], .structural, ["b", "C"], [], []⟩,
        ⟨"1.2", ["b"], .auxiliary, ["d"], [], []⟩, ⟨"1.3", ["c"], .auxiliary, ["1.4"], [], []⟩,
        ⟨"1.4", ["d"], .abstract, ["A"], [], []⟩] = .ok schema ∧
      schema.resolveClasses ["Alpha", "b", "1.1"] = .ok classes ∧
      classes.map ObjectClass.oid = (["1.1", "1.3", "1.4", "1.2"] : List Text) ∧
      classes.Nodup ∧
      schema.resolveClasses ["1.2", " a "] = .ok reordered ∧ reordered.Perm classes := by
  have run : (do
      let schema ← build [] [⟨"1.1", ["a", "alpha"], .structural, ["b", "C"], [], []⟩,
        ⟨"1.2", ["b"], .auxiliary, ["d"], [], []⟩, ⟨"1.3", ["c"], .auxiliary, ["1.4"], [], []⟩,
        ⟨"1.4", ["d"], .abstract, ["A"], [], []⟩]
      let classes ← schema.resolveClasses ["Alpha", "b", "1.1"]
      Except.ok (decide (
        classes.map ObjectClass.oid = (["1.1", "1.3", "1.4", "1.2"] : List Text) ∧
        (∀ name ∈ (["Alpha", "b", "1.1"] : List Text), ∃ other ∈ (["1.2", " a "] : List Text),
          schema.CallsAlike name other) ∧
        ∀ other ∈ (["1.2", " a "] : List Text), ∃ name ∈ (["Alpha", "b", "1.1"] : List Text),
          schema.CallsAlike name other))) = Except.ok (ε := Error) true := by
    decide +kernel
  obtain ⟨schema, built, run⟩ := bind_eq_ok_iff.mp run
  obtain ⟨classes, resolved, run⟩ := bind_eq_ok_iff.mp run
  obtain ⟨oids, covered, covers⟩ := of_decide_eq_true (Except.ok.inj run)
  obtain ⟨_, once, _, independent⟩ :=
    resolveClasses_exact built (["Alpha", "b", "1.1"] : List Text)
  have throughout := (exists_resolveClasses_iff (hasDistinctClasses_of_build built)).mp
    ⟨classes, resolved⟩
  obtain ⟨_, same, apart, _⟩ := once throughout
  cases resolved.symm.trans same
  obtain ⟨_, reordered, alike, otherResolved, permuted⟩ | ⟨_, _, impossible, _⟩ :=
    independent _ covered covers
  · cases resolved.symm.trans alike
    exact ⟨schema, classes, reordered, built, resolved, oids, apart, otherResolved, permuted⟩
  · rw [resolved] at impossible
    contradiction

end Directory.Schema
