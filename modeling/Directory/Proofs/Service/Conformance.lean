import Directory.Proofs.Service.Runs

namespace Directory

/-! # Stored entries conform to the schema

Of the name of an entry conformance reads the leaf only, so a move that carries an entry along
leaves it conforming.  Whatever else is written was accepted by the schema beforehand. -/

namespace Schema

variable {schema : Schema} {asked : Requirements} {entry origin : Entry}

/-- The name of an entry shows in a refusal only. -/
theorem checkAttribute_eq_ok_iff (left right : Dn) {attr : Attribute} {present : List Text}
    {oid : Text} : schema.checkAttribute left asked present attr = .ok oid ↔
      schema.checkAttribute right asked present attr = .ok oid := by
  unfold checkAttribute
  cases schema.attributeType? attr.id with
  | none => exact Iff.rfl
  | some type => simp only [bind_eq_ok_iff, refuseIf_eq_ok_iff]

theorem checkAttributes_eq_ok_iff (left right : Dn) {attrs : List Attribute}
    {present oids : List Text} : schema.checkAttributes left asked attrs present = .ok oids ↔
      schema.checkAttributes right asked attrs present = .ok oids := by
  induction attrs generalizing present with
  | nil => exact Iff.rfl
  | cons attr rest ih =>
    simp only [checkAttributes, bind_eq_ok_iff, checkAttribute_eq_ok_iff left right]
    exact exists_congr fun oid => and_congr_right fun _ => ih

theorem checkNaming_of_sameButSuperiors (same : entry.SameButSuperiors origin) :
    schema.checkNaming entry = schema.checkNaming origin := by
  obtain ⟨dn, attributes⟩ := entry
  obtain ⟨originDn, originAttributes⟩ := origin
  obtain rfl : attributes = originAttributes := same.attributes
  have leaf : dn.rdn? = originDn.rdn? := same.leaf
  simp only [checkNaming, leaf]
  rfl

/-- Under another name an accepted entry can only lack the value that names it. -/
theorem validate_eq_checkNaming (accepted : schema.validate origin = .ok ())
    (same : entry.attributes = origin.attributes) :
    schema.validate entry = schema.checkNaming entry := by
  obtain ⟨dn, attributes⟩ := entry
  obtain ⟨originDn, originAttributes⟩ := origin
  obtain rfl : attributes = originAttributes := same
  simp only [validate, bind_eq_ok_iff, refuseIf_eq_ok_iff] at accepted
  obtain ⟨_, declared, classes, resolved, _, structural, asked, asks, present, checked, _, complete,
    _, _, usable⟩ := accepted
  have checkedHere := (checkAttributes_eq_ok_iff originDn dn).mp checked
  have sameClasses : Entry.objectClasses ⟨dn, attributes⟩ = Entry.objectClasses ⟨originDn, attributes⟩ :=
    rfl
  have sameRef : unusableRef? ⟨dn, attributes⟩ = unusableRef? ⟨originDn, attributes⟩ := rfl
  simp only [validate, sameClasses, sameRef, declared, resolved, structural, asks, checkedHere,
    complete, usable, refuseIf, bind, Except.bind, Bool.false_eq_true, if_false]
  cases schema.checkNaming ⟨dn, attributes⟩ <;> rfl

theorem validate_of_sameButSuperiors (same : entry.SameButSuperiors origin)
    (accepted : schema.validate origin = .ok ()) : schema.validate entry = .ok () := by
  rw [validate_eq_checkNaming accepted same.attributes, checkNaming_of_sameButSuperiors same,
    ← validate_eq_checkNaming accepted rfl, accepted]

end Schema

theorem Agent.Prepares.accepted_entry {agent : Agent} {partition : Partition} {request : Request}
    {write : Partition.Write} {entry : Entry} (prepared : agent.Prepares partition request write)
    (brought : write.entry? = some entry) : agent.schema.validate entry = .ok () := by
  cases prepared with
  | delete normalized => contradiction
  | add canonical accepted =>
    cases brought
    exact accepted
  | modify normalized stored changed accepted =>
    cases brought
    exact accepted
  | move normalized superiorNormalized rdnNormalized named stored renames accepted =>
    cases brought
    exact accepted

namespace Service

variable {config : Config} {service : Service} {contexts : NamingContexts}

/-- What holds of accepted entries and does not look above the leaf of a name holds of everything
that a service stores. -/
theorem Reachable.forall_stored {holds : Entry → Prop}
    (reached : Reachable config service contexts)
    (leafOnly : ∀ entry origin : Entry, entry.SameButSuperiors origin → holds origin → holds entry)
    (accepted : ∀ entry, service.agent.schema.validate entry = .ok () → holds entry) :
    ∀ partition ∈ contexts.partitions, ∀ entry ∈ partition.store.values, holds entry := by
  refine reached.entries leafOnly ?_
  intro request partition write prepared _ entry brought
  exact accepted entry (prepared.accepted_entry brought)

theorem Reachable.accepted (reached : Reachable config service contexts) {partition : Partition}
    {entry : Entry} (listed : partition ∈ contexts.partitions)
    (stored : entry ∈ partition.store.values) : service.agent.schema.validate entry = .ok () :=
  reached.forall_stored (fun _ _ => Schema.validate_of_sameButSuperiors)
    (fun _ accepted => accepted) partition listed entry stored

/-- Whatever a service went through, each of its partitions holds accepted entries only. -/
theorem stored_entries_conform (reached : Reachable config service contexts) :
    ∀ partition ∈ contexts.partitions, ∀ entry ∈ partition.store.values,
      service.agent.schema.validate entry = .ok () :=
  reached.forall_stored (fun _ _ => Schema.validate_of_sameButSuperiors) fun _ accepted => accepted

/-- A rename that carries a descendant along, after a refused modification. -/
theorem stored_entries_conform_renamed :
    ∃ (service : Service) (contexts : NamingContexts),
      Reachable (.single "p" "o=a" [("objectClass", ["organization"]), ("o", ["a"])]) service
        contexts ∧
      (contexts.partitions.flatMap fun partition => partition.store.keys) =
        (["o=a,", "o=a,ou=d,", "o=a,ou=d,cn=c,"] : List Text) ∧
      ∀ partition ∈ contexts.partitions, ∀ entry ∈ partition.store.values,
        service.agent.schema.validate entry = .ok () := by
  have run : (do
      let above ← Dn.parse "ou=b,o=a"
      let below ← Dn.parse "cn=c,ou=b,o=a"
      let built ← ofConfig
        (.single "p" "o=a" [("objectClass", ["organization"]), ("o", ["a"])])
      let contexts := built.1.after built.2 [
        .seed (.ofValues above [("objectClass", ["organizationalUnit"]), ("ou", ["b"])]),
        .seed (.ofValues below [("objectClass", ["person"]), ("cn", ["c"]), ("sn", ["s"])]),
        .call (some "o=a") none ⟨2024, 1, 1, 0, 0, 0⟩
          (.modify "ou=b,o=a" [⟨.replace, "objectClass", ["person"]⟩]),
        .call (some "o=a") none ⟨2024, 1, 1, 0, 0, 1⟩ (.rename "ou=b,o=a" "ou=d" true)]
      Except.ok (contexts.partitions.flatMap fun partition => partition.store.keys)) =
        Except.ok (ε := Error) (["o=a,", "o=a,ou=d,", "o=a,ou=d,cn=c,"] : List Text) := by
    decide +kernel
  obtain ⟨above, _, run⟩ := bind_eq_ok_iff.mp run
  obtain ⟨below, _, run⟩ := bind_eq_ok_iff.mp run
  obtain ⟨⟨service, start⟩, started, run⟩ := bind_eq_ok_iff.mp run
  have begun := Reachable.atStart started
  exact ⟨service, _, begun.after _, Except.ok.inj run, stored_entries_conform (begun.after _)⟩

end Service

end Directory
