import Directory.Name.Basic
import Directory.Text.Digits

namespace Directory

open Text

/-! # Attribute types and object classes

The two kinds of definitions that make up a schema.  A matching rule says when two
values of an attribute are the same value; a value that the rule cannot read is the
same as none. -/

inductive MatchingRule where
  /-- Letter case and the amount of blanks do not count. -/
  | caseIgnore
  /-- The amount of blanks does not count. -/
  | caseExact
  /-- Whole numbers of at most 128 bits with their sign. -/
  | integer
  /-- Letter case and blanks at the ends do not count. -/
  | boolean
  /-- The values are names. -/
  | distinguishedName
deriving DecidableEq, Repr

namespace MatchingRule

/-- A number between blanks, if a signed word of 128 bits can hold it. -/
def integerOf? (value : Text) : Option Int :=
  (signedValue? value.trim).filter (fitsSigned 128)

def equates (rule : MatchingRule) (left right : Text) : Bool :=
  match rule with
  | caseIgnore => foldValue left == foldValue right
  | caseExact => left.foldBlanks == right.foldBlanks
  | integer =>
    match integerOf? left, integerOf? right with
    | some x, some y => x == y
    | _, _ => false
  | boolean => sameIgnoringCase left.trim right.trim
  | distinguishedName =>
    match Dn.parse left, Dn.parse right with
    | .ok x, .ok y => x == y
    | _, _ => false

end MatchingRule

/-- Whether an attribute holds the clients' data or the server's. -/
inductive AttributeUsage where
  | userApplications
  | directoryOperation
deriving DecidableEq, Repr

structure AttributeType where
  oid : Text
  /-- The names, the primary one first. -/
  names : List Text
  /-- The identifier of the syntax that values must have. -/
  syntaxOid : Text
  equality : MatchingRule := .caseIgnore
  singleValue : Bool := false
  usage : AttributeUsage := .userApplications
deriving DecidableEq, Repr

namespace AttributeType

/-- Everything the type can be called by. -/
def designators (type : AttributeType) : List Text := type.names ++ [type.oid]

/-- The first name, or the object identifier of a type without names. -/
def primaryName (type : AttributeType) : Text := type.names.headD type.oid

def isOperational (type : AttributeType) : Bool := type.usage == .directoryOperation

end AttributeType

inductive ObjectClassKind where
  /-- Serves only as a superior of other classes. -/
  | abstract
  /-- Says what an entry is. -/
  | structural
  /-- Adds attributes to entries of other classes. -/
  | auxiliary
deriving DecidableEq, Repr

structure ObjectClass where
  oid : Text
  /-- The names, the primary one first. -/
  names : List Text
  kind : ObjectClassKind
  superiors : List Text := []
  /-- The attributes that entries of the class must have. -/
  must : List Text := []
  /-- The attributes that entries of the class may have. -/
  may : List Text := []
deriving DecidableEq, Repr

namespace ObjectClass

/-- Everything the class can be called by. -/
def designators (cls : ObjectClass) : List Text := cls.names ++ [cls.oid]

/-- The first name, or the object identifier of a class without names. -/
def primaryName (cls : ObjectClass) : Text := cls.names.headD cls.oid

end ObjectClass

end Directory
