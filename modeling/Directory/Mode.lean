import Directory.Error
import Directory.Text.Basic
import Directory.Text.Blank

namespace Directory

/-- How an operation treats the delegations it meets while it follows a name. -/
inductive ReferralMode where
  /-- The operation ends with a referral to the servers that hold the name. -/
  | throw
  /-- The operation is given up as incomplete. -/
  | ignore
  /-- Delegations are data like any other entry. -/
  | manageDsaIt
deriving DecidableEq, Repr, Inhabited

namespace ReferralMode

def text : ReferralMode → Text
  | throw => "throw"
  | ignore => "ignore"
  | manageDsaIt => "manage_dsa_it"

def all : List ReferralMode := [throw, ignore, manageDsaIt]

/-- The mode that a bare control flag stands for. -/
def ofManageDsaIt (flag : Bool) : ReferralMode :=
  if flag then manageDsaIt else throw

def managesDsaIt (mode : ReferralMode) : Bool := mode == manageDsaIt

/-- The texts that stand for modes: their names, and the control's name written
together. -/
def readings : List (Text × ReferralMode) :=
  ("managedsait", manageDsaIt) :: all.map fun mode => (mode.text, mode)

/-- Reads a mode in any letter case and with blanks around it. -/
def parse (given : Text) : Except Error ReferralMode :=
  let folded := given.trim.asciiLower
  match readings.lookup folded with
  | some mode => .ok mode
  | none => .error (.unwillingToPerform ("unsupported referral mode " ++ folded.quoted))

end ReferralMode

end Directory
