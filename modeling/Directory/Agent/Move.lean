import Directory.Agent.Basic

namespace Directory.Agent

/-! # Moving and renaming

The superior to move to is looked at before the entry itself: a superior that other
servers hold ends the move in every mode, whatever the entry is. -/

/-- Where a move leads: the superior, and how much of it exists in which partition. -/
structure Destination where
  superior : Dn
  found : Superior

/-- The destination, unless it belongs to other servers. -/
def destination (contexts : NamingContexts) (dn superior : Dn) : Except Error Destination :=
  match contexts.existingSuperior? superior with
  | none => .error (.noSuchObject superior.text)
  | some found =>
    let outcome := ReferralPolicy.classifyDestination (found.partition.store.find? superior)
      (found.partition.walk superior)
    match outcome with
    | .affectsMultipleNamingContexts => .error (.affectsMultipleDsas dn.text)
    | _ => .ok ⟨superior, found⟩

/-- The destination exists and lies in the entry's own partition. -/
def checkDestination (source : Partition) (dn : Dn) (destination : Destination) :
    Except Error Unit := do
  refuseIf (destination.found.depth < destination.superior.length)
    (.noSuchObject destination.superior.text)
  refuseIf (destination.found.partition.id != source.id) (.affectsMultipleDsas dn.text)

/-- The entry under its new name.  A new naming value is added; the old one goes if
that is asked and the two differ. -/
def renamed (entry : Entry) (target : Dn) (old : Rdn) (rdn? : Option Rdn) (deleteOld : Bool) :
    Entry :=
  let entry := { entry with dn := target }
  match rdn? with
  | none => entry
  | some rdn =>
    let entry := entry.pushValue rdn.normType rdn.value
    if deleteOld && !(old == rdn) then entry.removeValue old.normType old.value else entry

/-- What holds of the entry under its new name, and is kept by adding the new naming value
and by taking out the old one, holds of the renamed entry. -/
@[elab_as_elim]
theorem renamed_induction {motive : Entry → Prop} {entry : Entry} {target : Dn} {old : Rdn}
    {rdn? : Option Rdn} {deleteOld : Bool} (moved : motive { entry with dn := target })
    (push : ∀ rdn ∈ rdn?, ∀ entry, motive entry → motive (entry.pushValue rdn.normType rdn.value))
    (remove : ∀ entry, motive entry → motive (entry.removeValue old.normType old.value)) :
    motive (renamed entry target old rdn? deleteOld) := by
  cases rdn? with
  | none => exact moved
  | some rdn =>
    have named := push rdn rfl _ moved
    simp only [renamed]
    split
    · exact remove _ named
    · exact named

@[simp] theorem dn_renamed (entry : Entry) (target : Dn) (old : Rdn) (rdn? : Option Rdn)
    (deleteOld : Bool) : (renamed entry target old rdn? deleteOld).dn = target :=
  renamed_induction rfl
    (fun rdn _ entry kept => (entry.dn_pushValue rdn.normType rdn.value).trans kept)
    fun entry kept => (entry.dn_removeValue old.normType old.value).trans kept

/-- The plan for the entry `dn`, whose naming step is `old` and whose superior has the
steps `above`, once its names are canonical and its partition is known. -/
def planRelocation (agent : Agent) (contexts : NamingContexts) (source : Partition) (dn : Dn)
    (old : Rdn) (above : List Rdn) (superior? : Option Dn) (rdn? : Option Rdn) (deleteOld : Bool)
    (mode : ReferralMode) : Except Error Plan := do
  refuseIf (dn == source.suffix)
    (.unwillingToPerform ("cannot move naming context " ++ dn.text))
  let target := (superior?.getD ⟨above⟩).child (rdn?.getD old)
  let destination? ← superior?.mapM (destination contexts dn)
  (agent.classify .move mode source dn).result dn
  match destination? with
  | none => .ok ()
  | some destination => checkDestination source dn destination
  refuseIf (dn.isAncestorOf target)
    (.unwillingToPerform ("cannot move " ++ dn.text ++ " below itself"))
  refuseIf (!(target == dn) && source.store.holds target) (.alreadyExists target.text)
  let entry ← existing source dn
  let moved := renamed entry target old rdn? deleteOld
  agent.schema.validate moved
  .ok ⟨source.id, .relocate dn moved⟩

def planMove (agent : Agent) (contexts : NamingContexts) (dn : Dn) (superior? : Option Dn)
    (rdn? : Option Rdn) (deleteOld : Bool) (mode : ReferralMode) : Except Error Plan := do
  refuseIf (superior?.isNone && rdn?.isNone)
    (.unwillingToPerform "move needs a new superior or a new RDN")
  let dn ← agent.schema.normalizeDn dn
  let superior? ← superior?.mapM agent.schema.normalizeDn
  let rdn? ← rdn?.mapM agent.schema.normalizeRdn
  let source ← covering contexts dn
  match dn.rdns with
  | [] => .error (.unwillingToPerform "cannot move the root")
  | old :: above =>
    agent.planRelocation contexts source dn old above superior? rdn? deleteOld mode

end Directory.Agent
