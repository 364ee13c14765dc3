import Directory.Schema.Basic

namespace Directory.Schema

/-! The definitions that every schema has. -/

private def single (type : AttributeType) : AttributeType := { type with singleValue := true }

private def operational (type : AttributeType) : AttributeType :=
  { single type with usage := .directoryOperation }

private def attributeType (oid : Text) (names : List Text) (values : ValueSyntax)
    (equality : MatchingRule := .caseIgnore) : AttributeType :=
  { oid, names, syntaxOid := values.oid, equality }

def coreAttributeTypes : List AttributeType := [
  attributeType "2.5.4.0" ["objectClass"] .objectIdentifier,
  attributeType "2.5.4.3" ["cn", "commonName"] .directoryString,
  attributeType "2.5.4.4" ["sn", "surname"] .directoryString,
  single (attributeType "2.5.4.6" ["c", "countryName"] .directoryString),
  attributeType "2.5.4.10" ["o", "organizationName"] .directoryString,
  attributeType "2.5.4.11" ["ou", "organizationalUnitName"] .directoryString,
  single (attributeType "0.9.2342.19200300.100.1.25" ["dc", "domainComponent"] .ia5String),
  attributeType "0.9.2342.19200300.100.1.1" ["uid", "userid"] .directoryString,
  attributeType "2.5.4.13" ["description"] .directoryString,
  attributeType "2.5.4.20" ["telephoneNumber"] .directoryString,
  attributeType "2.5.4.35" ["userPassword"] .directoryString .caseExact,
  attributeType "2.5.4.34" ["seeAlso"] .distinguishedName .distinguishedName,
  attributeType "2.5.4.31" ["member"] .distinguishedName .distinguishedName,
  attributeType "2.16.840.1.113730.3.1.34" ["ref"] .ia5String .caseExact,
  operational (attributeType "2.5.18.1" ["createTimestamp"] .generalizedTime),
  operational (attributeType "2.5.18.2" ["modifyTimestamp"] .generalizedTime),
  operational (attributeType "2.5.18.3" ["creatorsName"] .distinguishedName .distinguishedName),
  operational (attributeType "2.5.18.4" ["modifiersName"] .distinguishedName .distinguishedName)]

def coreObjectClasses : List ObjectClass := [
  { oid := "2.5.6.0", names := ["top"], kind := .abstract, must := ["objectClass"] },
  { oid := "2.5.6.2", names := ["country"], kind := .structural, superiors := ["top"],
    must := ["c"], may := ["description"] },
  { oid := "2.5.6.4", names := ["organization"], kind := .structural, superiors := ["top"],
    must := ["o"], may := ["description", "seeAlso", "telephoneNumber", "userPassword"] },
  { oid := "2.5.6.5", names := ["organizationalUnit"], kind := .structural, superiors := ["top"],
    must := ["ou"], may := ["description", "seeAlso", "telephoneNumber", "userPassword"] },
  { oid := "2.5.6.6", names := ["person"], kind := .structural, superiors := ["top"],
    must := ["sn", "cn"], may := ["userPassword", "telephoneNumber", "seeAlso", "description"] },
  { oid := "2.5.6.7", names := ["organizationalPerson"], kind := .structural,
    superiors := ["person"], may := ["ou", "uid"] },
  { oid := "2.5.6.9", names := ["groupOfNames"], kind := .structural, superiors := ["top"],
    must := ["member", "cn"], may := ["description", "o", "ou", "seeAlso"] },
  { oid := "0.9.2342.19200300.100.4.13", names := ["domain"], kind := .structural,
    superiors := ["top"], must := ["dc"],
    may := ["description", "o", "seeAlso", "telephoneNumber", "userPassword"] },
  { oid := "1.3.6.1.4.1.1466.344", names := ["dcObject"], kind := .auxiliary,
    superiors := ["top"], must := ["dc"] },
  { oid := "1.3.6.1.1.3.1", names := ["uidObject"], kind := .auxiliary, superiors := ["top"],
    must := ["uid"] },
  { oid := "1.3.6.1.4.1.1466.101.120.111", names := ["extensibleObject"], kind := .auxiliary,
    superiors := ["top"] },
  { oid := "2.16.840.1.113730.3.2.6", names := ["referral"], kind := .structural,
    superiors := ["top"], must := ["ref"] }]

def core : Schema := ⟨coreAttributeTypes, coreObjectClasses⟩

end Directory.Schema
