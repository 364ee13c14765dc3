import Directory.Filter.Parser
import Directory.Request

namespace Directory

/-- A request as a client writes it: names and filters are texts. -/
inductive Command where
  | add (entry : Entry)
  | modify (dn : Text) (changes : List Modification)
  | delete (dn : Text)
  /-- Gives an entry another superior. -/
  | move (dn superior : Text)
  /-- Gives an entry another naming step. -/
  | rename (dn rdn : Text) (deleteOld : Bool)
  | moveAndRename (dn superior rdn : Text) (deleteOld : Bool)
  | search (base : Text) (scope : SearchScope) (filter : Text)
  | compare (dn attr value : Text)
  | lookup (dn : Text)
  | exists (dn : Text)

namespace Command

/-- Reads the texts of a command in the order in which they are written. -/
def request : Command → Except Error Request
  | add entry => .ok (.add entry)
  | modify dn changes => do .ok (.modify (← Dn.parse dn) changes)
  | delete dn => do .ok (.delete (← Dn.parse dn))
  | move dn superior => do
    let dn ← Dn.parse dn
    .ok (.move dn (some (← Dn.parse superior)) none false)
  | rename dn rdn deleteOld => do
    let dn ← Dn.parse dn
    .ok (.move dn none (some (← Rdn.parse rdn)) deleteOld)
  | moveAndRename dn superior rdn deleteOld => do
    let dn ← Dn.parse dn
    let superior ← Dn.parse superior
    .ok (.move dn (some superior) (some (← Rdn.parse rdn)) deleteOld)
  | search base scope filter => do
    let base ← Dn.parse base
    .ok (.search base scope (← Filter.parse filter))
  | compare dn attr value => do .ok (.compare (← Dn.parse dn) attr value)
  | lookup dn => do .ok (.lookup (← Dn.parse dn))
  | .exists dn => do .ok (.exists (← Dn.parse dn))

end Command

end Directory
