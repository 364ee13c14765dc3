import Directory.Agent.Basic

namespace Directory.Agent

/-! # Adding, modifying and deleting -/

/-- The entry as it is kept: under its canonical name and with canonical attributes. -/
def canonicalEntry (agent : Agent) (entry : Entry) : Except Error Entry := do
  let dn ← agent.schema.normalizeDn entry.dn
  .ok { agent.schema.normalizeEntry entry with dn }

/-- Whether the place of a new entry is open to it.  The entry at the suffix has no
superior to ask. -/
def checkPlace (mode : ReferralMode) (partition : Partition) (dn : Dn) : Except Error Unit :=
  match dn.parent? with
  | none => .ok ()
  | some parent =>
    if dn == partition.suffix then .ok ()
    else
      (ReferralPolicy.classifyAdd mode dn parent (partition.store.find? parent)
        (partition.walk parent)).result dn

def planAdd (agent : Agent) (contexts : NamingContexts) (entry : Entry) (mode : ReferralMode) :
    Except Error Plan := do
  let entry ← agent.canonicalEntry entry
  let partition ← covering contexts entry.dn
  refuseIf (partition.store.holds entry.dn) (.alreadyExists entry.dn.text)
  agent.schema.validate entry
  checkPlace mode partition entry.dn
  .ok ⟨partition.id, .create entry⟩

def planModify (agent : Agent) (contexts : NamingContexts) (dn : Dn)
    (changes : List Modification) (mode : ReferralMode) : Except Error Plan := do
  let dn ← agent.schema.normalizeDn dn
  let changes := changes.map fun change =>
    { change with id := agent.schema.canonicalId change.id }
  let partition ← covering contexts dn
  (agent.classify .modify mode partition dn).result dn
  let entry ← existing partition dn
  let modified ← entry.modified changes
  agent.schema.validate modified
  .ok ⟨partition.id, .update modified⟩

def planDelete (agent : Agent) (contexts : NamingContexts) (dn : Dn) (mode : ReferralMode) :
    Except Error Plan := do
  let dn ← agent.schema.normalizeDn dn
  let partition ← covering contexts dn
  (agent.classify .delete mode partition dn).result dn
  refuseIf (partition.store.hasChildren dn) (.notAllowedOnNonLeaf dn.text)
  .ok ⟨partition.id, .delete dn⟩

end Directory.Agent
