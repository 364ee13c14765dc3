import Directory.Proofs.Agent.Managed
import Directory.Proofs.Partition.Registration
import Directory.Proofs.Schema.StoredTypes
import Directory.Proofs.Service.Referrals
import Directory.Proofs.Service.Trees

namespace Directory

open Text

/-! # Stored entries under their names and types

A stored entry is found under every spelling of its name, and what it holds for a type is under
the primary name of the type. -/

namespace Entry

/-- The entry has the value, up to the case of ASCII letters. -/
def HoldsUpToCase (entry : Entry) (type : AttributeType) (value : Text) : Prop :=
  ∃ held ∈ Schema.valuesOf type entry, sameIgnoringCase held value = true

/-- The entry has the value by the matching rule of the type. -/
def HoldsByRule (entry : Entry) (type : AttributeType) (value : Text) : Prop :=
  ∃ held ∈ Schema.valuesOf type entry, type.equality.equates held value = true

end Entry

theorem Agent.Prepares.normalizeDn_entry {agent : Agent} {partition : Partition} {request : Request}
    {write : Partition.Write} {entry : Entry} (prepared : agent.Prepares partition request write)
    (held : ∀ entry ∈ partition.store.values, agent.schema.normalizeDn entry.dn = .ok entry.dn)
    (brought : write.entry? = some entry) : agent.schema.normalizeDn entry.dn = .ok entry.dn := by
  cases prepared with
  | delete => contradiction
  | add canonical accepted =>
    cases brought
    obtain ⟨dn, normalized, same⟩ := bind_eq_ok_iff.mp canonical
    cases same
    exact Schema.normalizeDn_self normalized
  | modify normalized stored changed accepted =>
    cases brought
    rw [Entry.dn_of_modified changed]
    exact held _ (KeyTable.mem_values_iff.mpr ⟨_, stored⟩)
  | move normalized superiorNormalized rdnNormalized steps stored renames accepted =>
    cases brought
    rw [← renames, dn_renamed]
    exact normalizeDn_target normalized superiorNormalized rdnNormalized steps

namespace Service

variable {config : Config} {service : Service} {contexts : NamingContexts} {partition : Partition}
  {entry : Entry} {given dn : Dn} {type : AttributeType}

theorem Reachable.hasDistinctTypes (reached : Reachable config service contexts) :
    service.agent.schema.HasDistinctTypes :=
  Schema.hasDistinctTypes_of_build reached.built

theorem Reachable.finds (reached : Reachable config service contexts)
    (listed : partition ∈ contexts.partitions) (stored : entry ∈ partition.store.values)
    (normalized : service.agent.schema.normalizeDn given = .ok dn)
    (named : (entry.dn == dn) = true) :
    service.agent.Finds contexts given dn partition entry := by
  obtain ⟨key, bound⟩ := KeyTable.mem_values_iff.mp stored
  obtain ⟨keyed, owned⟩ := (reached.isFiled partition listed).2 key entry bound
  have paths := Dn.beq_iff_path.mp named
  refine ⟨normalized, reached.isSeparated.resolve?_eq_some_iff.mpr ⟨listed, ?_⟩, ?_⟩
  · rwa [Dn.isAncestorOrSelfOf_iff, ← paths, ← Dn.isAncestorOrSelfOf_iff]
  · rw [← partition.store.find?_eq_of_path paths, Store.find?, ← keyed, bound]

theorem Reachable.normalizeDn_stored (reached : Reachable config service contexts) :
    ∀ partition ∈ contexts.partitions, ∀ entry ∈ partition.store.values,
      service.agent.schema.normalizeDn entry.dn = .ok entry.dn := by
  refine reached.partitions (fun id suffix named entry listed => ?_) ?_
  · exact absurd listed List.not_mem_nil
  · intro request partition write prepared admitted held
    have brought : ∀ entry, write.entry? = some entry →
        service.agent.schema.normalizeDn entry.dn = .ok entry.dn :=
      fun _ isBrought => prepared.normalizeDn_entry held isBrought
    refine Partition.forall_effect brought
      (fun source replacement origin moves canonical => ?_) held
    rw [Schema.normalizeDn_eq_self_iff] at canonical ⊢
    exact Partition.forall_rdns_relocated canonical
      (Schema.normalizeDn_eq_self_iff.mp (brought replacement (by rw [moves]; rfl)))

theorem Reachable.types (reached : Reachable config service contexts) :
    ∀ partition ∈ contexts.partitions, ∀ entry ∈ partition.store.values,
      service.agent.schema.Types entry := by
  intro partition listed entry stored
  exact Schema.types_of_validate (reached.accepted listed stored)

theorem Reachable.valuesOf_eq (reached : Reachable config service contexts)
    (listed : partition ∈ contexts.partitions) (stored : entry ∈ partition.store.values)
    (member : type ∈ service.agent.schema.attributeTypes) :
    Schema.valuesOf type entry = entry.values type.primaryName :=
  Schema.valuesOf_eq reached.hasDistinctTypes (reached.types partition listed entry stored)
    (reached.identifiedBy partition listed entry stored) member

end Service

end Directory
