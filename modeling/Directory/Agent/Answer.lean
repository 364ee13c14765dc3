import Directory.Agent.Move
import Directory.Agent.Search
import Directory.Agent.Write

namespace Directory.Agent

/-! # Answers

Reading, comparing and testing for existence, and the answer to a request of any kind. -/

/-- The entry with a name, unless delegations lead elsewhere. -/
def read (agent : Agent) (contexts : NamingContexts) (kind : OperationKind) (dn : Dn)
    (mode : ReferralMode) : Except Error Entry := do
  let dn ← agent.schema.normalizeDn dn
  let partition ← covering contexts dn
  (agent.classify kind mode partition dn).result dn
  existing partition dn

def lookup (agent : Agent) (contexts : NamingContexts) (dn : Dn) (mode : ReferralMode) :
    Except Error Entry :=
  agent.read contexts .lookup dn mode

/-- Whether an entry has a value that is the asserted one by the attribute's rule. -/
def asserts (agent : Agent) (entry : Entry) (attr value : Text) : Except Error Bool :=
  match agent.schema.attributeType? attr with
  | none => .error (.undefinedAttributeType attr)
  | some type => do
    let values := Schema.valuesOf type entry
    refuseIf values.isEmpty (.noSuchAttribute entry.dn.text attr)
    .ok (values.any fun held => type.equality.equates held value)

def compare (agent : Agent) (contexts : NamingContexts) (dn : Dn) (attr value : Text)
    (mode : ReferralMode) : Except Error Bool := do
  agent.asserts (← agent.read contexts .compare dn mode) attr value

/-- Whether there is an entry with the name.  Delegations are reported as ever. -/
def exists? (agent : Agent) (contexts : NamingContexts) (dn : Dn) (mode : ReferralMode) :
    Except Error Bool :=
  match agent.read contexts .exists dn mode with
  | .ok _ => .ok true
  | .error (.noSuchObject _) => .ok false
  | .error refusal => .error refusal

/-- The answer to a request and the naming contexts after it. -/
def answer (agent : Agent) (contexts : NamingContexts) (request : Request) (mode : ReferralMode) :
    Except Error Response × NamingContexts :=
  match request with
  | .add entry => commit contexts (agent.planAdd contexts entry mode)
  | .modify dn changes => commit contexts (agent.planModify contexts dn changes mode)
  | .delete dn => commit contexts (agent.planDelete contexts dn mode)
  | .move dn superior? rdn? deleteOld =>
    commit contexts (agent.planMove contexts dn superior? rdn? deleteOld mode)
  | .search base scope filter =>
    ((agent.search contexts base scope filter mode).map .found, contexts)
  | .compare dn attr value =>
    ((agent.compare contexts dn attr value mode).map .compared, contexts)
  | .lookup dn => ((agent.lookup contexts dn mode).map .entry, contexts)
  | .exists dn => ((agent.exists? contexts dn mode).map .exists, contexts)

end Directory.Agent
