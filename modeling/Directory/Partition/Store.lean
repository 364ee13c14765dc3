import Directory.Entry.Basic

namespace Directory

/-! # Stores

A store keeps entries under the storage keys of their names.  Reading through a
store is reading a tree: the entries at and below a name are those whose keys start
with the name's key, and ascending keys put every entry before what lies below it. -/

abbrev Store := KeyTable Entry

namespace Store

def find? (store : Store) (dn : Dn) : Option Entry := store.get? dn.storageKey

def holds (store : Store) (dn : Dn) : Bool := (store.find? dn).isSome

/-- Whether a key belongs to the tree under a name. -/
def isUnder (dn : Dn) (key : Text) : Bool :=
  dn.storageKey.isPrefixOf key

/-- The entries at and below a name, superiors first. -/
def subtree (store : Store) (dn : Dn) : List Entry :=
  (store.filter fun key _ => isUnder dn key).values

/-- The entries directly below a name. -/
def children (store : Store) (dn : Dn) : List Entry :=
  (store.subtree dn).filter fun entry => entry.dn.length == dn.length + 1

/-- Whether something besides the first entry lies in the tree under a name. -/
def hasChildren (store : Store) (dn : Dn) : Bool := 1 < (store.subtree dn).length

/-- Keeps an entry under the key of its name. -/
def put (store : Store) (entry : Entry) : Store := store.insert entry.dn.storageKey entry

theorem find?_put (store : Store) (entry : Entry) (dn : Dn) :
    (store.put entry).find? dn =
      if entry.dn.storageKey = dn.storageKey then some entry else store.find? dn := by
  simp only [find?, put, KeyTable.get?_insert]

end Store

end Directory
