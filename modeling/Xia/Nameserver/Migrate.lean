import Xia.Dagaddr.Sockaddr
import Xia.StdMap

/-!
# Hosts that move

The name server maps names to the texts of addresses.  When a host registers its name from a new AD,
`migrate` replaces the record of the host, and then looks for other records that lead through the
old AD to the host.

The functions read the addresses with the numbers of `get_node`.  No two graphs are compared by
their containers.  What is logged is left out.
-/

namespace Xia

namespace Nameserver

open Dagaddr

abbrev NameTable := StdMap Text Text

def isAd (n : Node) : Bool := n.type = Xid.typeAd

def isHid (n : Node) : Bool := n.type = Xid.typeHid

def checkPair (g : Graph) (ad hid : Int) : Result Bool :=
  if 0 ≤ ad ∧ 0 ≤ hid then do
    let edges ← g.getOutEdges ad
    return edges.any fun e => (e : Int).bmod (2 ^ 32) = hid
  else return false

/-- The variables of the loops that look for an AD and a HID. -/
structure Found where
  adIndex : Int
  hidIndex : Int
  ad : Option Node
  hid : Option Node
deriving DecidableEq

def Found.init : Found := ⟨-1, -1, none, none⟩

/-- An iteration, in which a node may be the AD or else the HID that is looked for. -/
def Found.step (g : Graph) (isAd isHid : Node → Bool) (f : Found) (i : Nat) : Result Found := do
  let n ← g.getNode i
  return if isAd n then { f with adIndex := i, ad := some n }
    else if isHid n then { f with hidIndex := i, hid := some n }
    else f

def findPair (g : Graph) (isAd isHid : Node → Bool) : Result Found :=
  (List.range g.numNodes).foldlM (Found.step g isAd isHid) Found.init

def findNew (g : Graph) : Result Found := findPair g isAd isHid

/-- The old DAG, in which the HID of the new one is looked for. -/
def findOld (newHid : Node) (g : Graph) : Result Found :=
  findPair g isAd fun n => isHid n && newHid.equalTo n

def findOther (oldAd newHid : Node) (g : Graph) : Result Found :=
  findPair g oldAd.equalTo newHid.equalTo

/-- An iteration of the loop over the records.  The graph is a variable of the body, and nothing
puts it back into the table. -/
def migrateRecord (libc : Libc) (newAd newHid oldAd : Node) (ds : Text) : Result Graph := do
  let g ← Graph.ofString libc ds
  let found ← findOther oldAd newHid g
  if ← checkPair g found.adIndex found.hidIndex then g.replaceNodeAt found.adIndex newAd
  else return g

def migrateRecords (libc : Libc) (newAd newHid oldAd : Node) (table : NameTable) :
    List Text → Result NameTable
  | [] => return table
  | nm :: nms => do
    let _ ← migrateRecord libc newAd newHid oldAd (table.get nm)
    migrateRecords libc newAd newHid oldAd table nms

/-- What `migrate` does if the new DAG has an AD and a HID. -/
def migrateHost (libc : Libc) (table : NameTable) (name dag : Text) (new : Found)
    (oldDag : Graph) : Result NameTable := do
  let newHid ← deref new.hid
  let old ← findOld newHid oldDag
  if ← checkPair oldDag old.adIndex old.hidIndex then
    let newAd ← deref new.ad
    let oldAd ← deref old.ad
    migrateRecords libc newAd newHid oldAd (table.insert name dag)
      (StdMap.order (table.insert name dag))
  else return table

def migrate (libc : Libc) (table : NameTable) (name dag : Text) : Result NameTable :=
  match table.lookup name with
  | some dagStr => do
    let newDag ← Graph.ofString libc dag
    let oldDag ← Graph.ofString libc dagStr
    let new ← findNew newDag
    if ← checkPair newDag new.adIndex new.hidIndex then
      migrateHost libc table name dag new oldDag
    else return table
  | none => return table.insert name dag

end Nameserver

end Xia
