import Xia.Xrouted.Messages

/-!
# The routing element

`XRoute` is the routing daemon as an element of the router.  Its state is that of the daemon, except
that it knows nothing of dual routers: the fields for them are not used here.  `processHello`,
`processHostRegister` and most of the loops of `calcShortestPath` are those of the daemon.

When no AD is left that has been reached, `calcShortestPath` of the daemon returns without any
routes.  That of the element goes on with its last loop, for all ADs.
-/

namespace Xia

namespace Xroute

open Xrouted NetworkTable

/-- The loop that filters out the abnormal entries.  After the first one that it erases it goes on
with an iterator that is no longer valid. -/
def filterAbnormal (t : NetworkTable) : Except Xrouted.Fault Unit :=
  t.order.forM fun k => if (t.get k).numNeighbors = 0 then .error .erasedIterator else .ok ()

/-- The loop that removes neighbours in the same AD.  When it has erased one, its iterator stands at
the next one, and it moves on from there. -/
def removeSame (myAd : CString) : List CString → List CString
  | [] => []
  | [x] => if x = myAd then [] else [x]
  | x :: y :: l => if x = myAd then y :: removeSame myAd l else x :: removeSame myAd (y :: l)

/-- The entry of the AD itself without the neighbours in the same AD. -/
def prune (myAd : CString) (t : NetworkTable) : NetworkTable :=
  t.modify myAd fun e => { e with neighborList := removeSame myAd e.neighborList }

/-- `calcShortestPath`.  The search may end before all ADs have been reached. -/
def calcShortestPath (st : RouteState) : Except Xrouted.Fault RouteState := do
  filterAbnormal st.networkTable
  let table := st.networkTable.erase st.myAd
  let (_, t) ← mainLoop (table.keys.length + 1) table
    (initCosts st.myAd (prune st.myAd st.networkTable.resetCosts))
  return t.order.foldl RouteState.setNextHop { st with adRouteTable := ∅, networkTable := t }

/-! ### Messages -/

/-- Step 0 of `processLSA`. -/
def parseLsa (msg : CString) : Lsa :=
  let (_, s) := readField msg []
  let (destAd, s) := readField s []
  let (destHid, s) := readField s []
  let (lsaSeq, s) := readField s []
  let (numNeighbors, s) := readField s []
  ⟨0, destAd, destHid, Xrouted.atoi lsaSeq, Xrouted.atoi numNeighbors, s⟩

/-- Step 2 of `processLSA`. -/
def store (st : RouteState) (lsa : Lsa) : RouteState :=
  { st with
    networkTable := (st.networkTable.erase lsa.destAd).insert lsa.destAd lsa.entry
    calcDijkstraTicks := st.calcDijkstraTicks + 1 }

/-- The computation of the routes, which is due at every fourth LSA. -/
def compute (st : RouteState) : Except Xrouted.Fault RouteState :=
  if st.calcDijkstraTicks = calcDijkstraInterval then do
    let st ← calcShortestPath st
    return { st with calcDijkstraTicks := 0 }
  else return st

def processLsa (st : RouteState) (msg : CString) :
    Except Xrouted.Fault (RouteState × List Xrouted.Output) :=
  let lsa := parseLsa msg
  if st.myAd = lsa.destAd then return (st, [])
  else do
    let seen ← st.seen lsa
    if seen then return (st, [])
    else do
      let st ← compute (store st lsa)
      let sent ← broadcast msg
      return (st, sent)

/-- The text that `sendLSA` sends. -/
def lsaText (st : RouteState) : CString :=
  ([ofText ['1'], st.myAd, st.myHid, formatInt st.lsaSeq, formatInt st.numNeighbors] ++
    st.neighborTable.order.flatMap fun k =>
      [(st.neighborTable.get k).ad, (st.neighborTable.get k).hid]).flatMap (· ++ [caret])

def runTimer (st : RouteState) : Except Xrouted.Fault (RouteState × List Xrouted.Output) := do
  if st.helloSeq < st.helloLsaRatio then
    let sent ← broadcast st.helloText
    return ({ st with helloSeq := st.helloSeq + 1 }, sent)
  else if st.helloSeq = st.helloLsaRatio then
    let sent ← broadcast (lsaText st)
    return ({ st with lsaSeq := (st.lsaSeq + 1) % maxSeqnum, helloSeq := 0 }, sent)
  else return (st, [])

/-! ### The element -/

/-- `push` and `run_timer`. -/
def step : Machine.Step RouteState RouteState.Event Xrouted.Fault Xrouted.Output
  | st, .timeout => runTimer st
  | st, .message msg port =>
    match nextField msg with
    | none => .ok (st, [])
    | some (type, _) =>
      if Xrouted.atoi type = 0 then .ok (st.processHello msg port, [])
      else if Xrouted.atoi type = 1 then processLsa st msg
      else if Xrouted.atoi type = 2 then .ok (st, RouteState.processHostRegister msg port)
      else .ok (st, [])

/-- `configure` and `initRouteState`, with the XIDs of the router. -/
def init (ad hid : Xid) : RouteState :=
  RouteState.init (ofText ad.unparse) (ofText hid.unparse) false

end Xroute

end Xia
