import Directory.Text.Basic

namespace Directory

/-- The operations on a directory. -/
inductive OperationKind where
  | add
  | modify
  | delete
  | move
  | search
  | compare
  | lookup
  | exists
deriving DecidableEq, Repr

namespace OperationKind

def all : List OperationKind := [add, modify, delete, move, search, compare, lookup, .exists]

def text : OperationKind → Text
  | add => "add"
  | modify => "modify"
  | delete => "delete"
  | move => "move"
  | search => "search"
  | compare => "compare"
  | lookup => "lookup"
  | .exists => "exists"

/-- Whether the operation changes entries. -/
def isWrite : OperationKind → Bool
  | add | modify | delete | move => true
  | search | compare | lookup | .exists => false

end OperationKind

end Directory
