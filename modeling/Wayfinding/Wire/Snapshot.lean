import Wayfinding.Navigation
import Wayfinding.Wire

namespace Wayfinding

open Wire

namespace Identity

def toWire (id : Identity) : List UInt8 := writeNumber id.bytes.length ++ id.bytes

def ofWire : Reader Identity := fun bytes => do
  let (count, bytes) ← readWord bytes
  let (content, bytes) ← readBytes count bytes
  match ofBytes? content with
  | some id => .ok (id, bytes)
  | none => .error .badValue

end Identity

namespace LocaleMap

def toWire (texts : LocaleMap) : List UInt8 :=
  writeList (fun entry => writeText entry.1 ++ writeText entry.2) texts.entries

/-- Of several entries for one locale the last counts. -/
def ofWire : Reader LocaleMap := fun bytes => do
  let (entries, bytes) ← readList (readPair readText readText) bytes
  return (ofList entries, bytes)

end LocaleMap

namespace Kind

def toWire : Kind → List UInt8
  | label => writeNumber 0
  | staticLink => writeNumber 1

def ofWire : Reader Kind := fun bytes => do
  match ← readShortWord bytes with
  | (0, bytes) => return (label, bytes)
  | (1, bytes) => return (staticLink, bytes)
  | _ => .error .badValue

end Kind

namespace Details

def toWire (details : Details) : List UInt8 :=
  writeText details.id ++ details.kind.toWire ++ writeFlag details.initial ++ details.paths.toWire
    ++ details.labels.toWire

def ofWire : Reader Details := fun bytes => do
  let (id, bytes) ← readText bytes
  let (kind, bytes) ← Kind.ofWire bytes
  let (initial, bytes) ← readFlag bytes
  let (paths, bytes) ← LocaleMap.ofWire bytes
  let (labels, bytes) ← LocaleMap.ofWire bytes
  return (⟨id, kind, initial, paths, labels⟩, bytes)

end Details

namespace Item

mutual

/-- The details, and then whether there are children, and which. -/
def toWire : Item → List UInt8
  | leaf details => details.toWire ++ [0]
  | group details children =>
    details.toWire ++ [1] ++ writeNumber children.length ++ toWireAll children

def toWireAll : List Item → List UInt8
  | [] => []
  | item :: rest => toWire item ++ toWireAll rest

end

/-- Reads an item in which groups are nested less deep than the fuel. -/
def ofWire : Nat → Reader Item
  | 0, _ => .error .endOfInput
  | fuel + 1, bytes => do
    let (details, bytes) ← Details.ofWire bytes
    let (isGroup, bytes) ← readBit .badChoice bytes
    if isGroup then
      let (children, bytes) ← readList (ofWire fuel) bytes
      return (group details children, bytes)
    else return (leaf details, bytes)

end Item

namespace Tree

def toWire (tree : Tree) : List UInt8 := writeNumber tree.length ++ Item.toWireAll tree

/-- Reads a tree. Items are no deeper nested than there are bytes. -/
def ofWire : Reader Tree := fun bytes => readList (Item.ofWire (bytes.length + 1)) bytes

end Tree

namespace Snapshot

def toWire (state : Snapshot) : List UInt8 :=
  state.id.toWire ++ writeNumber state.version ++ writeText state.name ++ state.tree.toWire

def ofWire : Reader Snapshot := fun bytes => do
  let (id, bytes) ← Identity.ofWire bytes
  let (version, bytes) ← readWord bytes
  let (name, bytes) ← readText bytes
  let (tree, bytes) ← Tree.ofWire bytes
  return (⟨id, version, name, tree⟩, bytes)

end Snapshot

namespace Navigation

def toBytes (nav : Navigation) : List UInt8 := nav.toSnapshot.toWire

/-- The navigation whose state some bytes begin with, with nothing to save. -/
def ofBytes (bytes : List UInt8) : Except NavigationError Navigation :=
  match Snapshot.ofWire bytes with
  | .ok (state, _) => .ok (ofSnapshot state)
  | .error fault => .error (.encoding fault.message)

end Navigation

end Wayfinding
