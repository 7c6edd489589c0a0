import Xia.Ownership
import Xia.Xrouted.Basic

/-!
# The computation of routes

`calcShortestPath` is the algorithm of Dijkstra, with the entries of `networkTable` as the labels
and with `table` as the set of the ADs that are not done.  Then it goes back along `prevNode` from
every destination to the neighbour through which it is reached.

An AD that is only named in the list of another one gets an entry as soon as it is looked at.  Such
an entry has no destination.  It is not in `table`, and so does not take part in the search.
-/

namespace Xia

namespace Xrouted

/-- The cost of an AD that has not been reached. -/
def infinity : Nat := 10000000

def maxHopCount : Nat := 50

def NodeStateEntry.abnormal (e : NodeStateEntry) : Bool := e.numNeighbors = 0 || e.dest = []

namespace NetworkTable

/-- The loop that filters out the abnormal entries.  After the first one that it erases it goes on
with an iterator that is no longer valid. -/
def filterAbnormal (t : NetworkTable) : Except Fault Unit :=
  t.order.forM fun k => if (t.get k).abnormal then .error .erasedIterator else .ok ()

/-- What this loop does with the entries: it looks at each of them, erases it if it is abnormal, and
moves on from it. -/
def cleanUpTrace (t : NetworkTable) : List (Ownership.Act CString) :=
  t.order.flatMap fun k =>
    .use k :: ((if (t.get k).abnormal then [.give k] else []) ++ [.use k])

def resetCosts (t : NetworkTable) : NetworkTable :=
  t.order.foldl (fun t k => t.modify k fun e => { e with checked := false, cost := infinity }) t

/-- The source, and the ADs next to it. -/
def initCosts (myAd : CString) (t : NetworkTable) : NetworkTable :=
  let t := t.modify myAd fun e => { e with checked := true, cost := 0 }
  (t.get myAd).neighborList.foldl
    (fun t tempAd => t.modify tempAd fun e => { e with cost := 1, prevNode := myAd }) t

/-- An iteration of the search for the AD of `table` with the least cost. -/
def selectStep (table : NetworkTable) (found : NetworkTable × Nat × CString) (k : CString) :
    NetworkTable × Nat × CString :=
  let tmpAd := (table.get k).dest
  let t := found.1.touch tmpAd
  if (t.get tmpAd).cost < found.2.1 then (t, (t.get tmpAd).cost, tmpAd)
  else (t, found.2.1, found.2.2)

/-- The search for the AD of `table` with the least cost: `networkTable`, `minCost` and
`selectedAD`. -/
def select (table t : NetworkTable) : NetworkTable × Nat × CString :=
  table.order.foldl (selectStep table) (t, infinity, [])

/-- A neighbour of the AD that has been selected. -/
def relax (selectedAd : CString) (t : NetworkTable) (tempAd : CString) : NetworkTable :=
  let t := t.touch tempAd
  let cost := (t.get selectedAd).cost + 1
  if !(t.get tempAd).checked && cost < (t.get tempAd).cost then
    t.modify tempAd fun e => { e with cost := cost, prevNode := selectedAd }
  else t

/-- The main loop.  It ends when `table` is empty, and then returns `true`, or it returns from the
function if no AD of `table` is reached.  An iteration that does not make `table` smaller is
repeated for ever, and so the loop does not end if it takes more iterations than `table` has
entries. -/
def mainLoop : Nat → NetworkTable → NetworkTable → Except Fault (Bool × NetworkTable)
  | 0, _, _ => .error .endless
  | fuel + 1, table, t =>
    if table.keys = [] then .ok (true, t)
    else
      let (t, _, selectedAd) := select table t
      if selectedAd = [] then .ok (false, t)
      else
        let t := t.modify selectedAd fun e => { e with checked := true }
        mainLoop fuel (table.erase selectedAd)
          ((t.get selectedAd).neighborList.foldl (relax selectedAd) t)

/-- The loop that goes back from an AD to the neighbour through which it is reached, with so many
hops still to go: `networkTable`, and the neighbour unless the hops were too many. -/
def follow (myAd : CString) : Nat → NetworkTable → CString → NetworkTable × Option CString
  | 0, t, tempAd => (t.touch tempAd, none)
  | hops + 1, t, tempAd =>
    let t := t.touch tempAd
    if (t.get tempAd).prevNode = myAd then (t, some tempAd)
    else follow myAd hops t (t.get tempAd).prevNode

end NetworkTable

namespace RouteState

open NetworkTable

/-- The part of the last loop for the entry of `k`. -/
def setNextHop (st : RouteState) (k : CString) : RouteState :=
  let dest := (st.networkTable.get k).dest
  if st.myAd = dest then st
  else
    match follow st.myAd maxHopCount st.networkTable dest with
    | (t, none) => { st with networkTable := t }
    | (t, some ad) =>
      { st with
        networkTable := t
        neighborTable := st.neighborTable.touch ad
        adRouteTable := st.adRouteTable.modify dest fun r => { r with
          dest := dest
          nextHop := (st.neighborTable.get ad).hid
          port := (st.neighborTable.get ad).port } }

/-- `calcShortestPath`.  If all destinations are the keys of their entries, the last loop can only
create an entry without a name, which comes before all others; so it passes through the entries that
are there at its beginning. -/
def calcShortestPath (st : RouteState) : Except Fault RouteState := do
  st.networkTable.filterAbnormal
  let table := st.networkTable.erase st.myAd
  let (complete, t) ← mainLoop (table.keys.length + 1) table
    (initCosts st.myAd (resetCosts st.networkTable))
  let st := { st with adRouteTable := ∅, networkTable := t }
  if complete then return t.order.foldl setNextHop st else return st

end RouteState

end Xrouted

end Xia
