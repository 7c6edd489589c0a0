import Xia.Packet

/-!
# The elements of the router

The elements that `XIAPacketRoute` is made of, each as a function on a `Frame`: a packet with the
annotations that the elements leave for one another.  `XIA_NEXT_PATH_ANNO` is the edge of the
current node that is being considered, `XIA_PAINT_ANNO` the port the packet came from or goes to,
and the third one the neighbour it is sent to.

The node lists of the header are one array.  An index into it is an `int` and is checked only where
the source does so; outside the two lists there is a fault.
-/

namespace Xia

def bhid : Xid := ⟨htonl Xid.typeHid, Vector.replicate _ 0xff⟩

/-! ### Ports with a meaning -/

def destinedForDiscard : Int := -1
def destinedForLocalhost : Int := -2
def destinedForDhcp : Int := -3
def destinedForBroadcast : Int := -4
def redirect : Int := -5
def fallback : Int := -7
def totalSpecialCases : Int := 8

/-! ### Packets with annotations -/

/-- A packet in the router. -/
structure Frame where
  packet : Packet
  nextPath : UInt8
  paint : Int16
  nexthop : Option Xid
deriving DecidableEq

namespace Packet

/-- The entries of `hdr->node`. -/
def nodeList (p : Packet) : List XidNode := p.dnode ++ p.snode

/-- `hdr->node[i]`. -/
def nodeAt (p : Packet) (i : Int) : Result XidNode :=
  if i < 0 then .error .outOfBounds else inBounds p.nodeList[i.toNat]?

/-- The index of the current node: the source's edges are in the entry of the destination. -/
def lastIndex (p : Packet) : Int :=
  if p.last.toInt < 0 then p.last.toInt + p.dnode.length else p.last.toInt

/-- Set the `visited` bit of an edge. -/
def markNode (k : Nat) (n : XidNode) : XidNode :=
  { n with edge := n.edge.mapIdx fun j e => if j = k then { e with visited := true } else e }

/-- Set the `visited` bit of the edge `k` of the entry `i`. -/
def markVisited (p : Packet) (i k : Nat) : Packet :=
  { p with
    dnode := p.dnode.modify i (markNode k)
    snode := if i < p.dnode.length then p.snode
      else p.snode.modify (i - p.dnode.length) (markNode k) }

end Packet

namespace Frame

/-- The edge that is considered, `hdr->node[last].edge[XIA_NEXT_PATH_ANNO(p)]`. -/
def currentEdge (f : Frame) : Result XidEdge := do
  let node ← f.packet.nodeAt f.packet.lastIndex
  inBounds node.edge.toList[f.nextPath.toNat]?

def setPaint (f : Frame) (port : Int) : Frame := { f with paint := Int16.ofInt port }

end Frame

/-! ### `XIASelectPath` -/

/-- `XIASelectPath(first)`. -/
def selectFirst (f : Frame) : Frame := { f with nextPath := 0 }

/-- `XIASelectPath(next)`: the frame, and whether there is a path left. -/
def selectNext (f : Frame) : Frame × Bool :=
  let next := f.nextPath.toNat + 1
  ({ f with nextPath := UInt8.ofNat next }, next < xidEdgeNum)

/-! ### `XIAXIDTypeClassifier` -/

/-- A pattern of the classifier; the types are in network byte order. -/
inductive Pattern where
  | src (type : UInt32)
  | dst (type : UInt32)
  | srcAndDst (srcType dstType : UInt32)
  | srcOrDst (srcType dstType : UInt32)
  | next (type : UInt32)
  | any
deriving DecidableEq

/-- Does the pattern match these types? -/
def Pattern.accepts (srcType dstType nextType : UInt32) : Pattern → Bool
  | src type => srcType = type
  | dst type => dstType = type
  | srcAndDst s d => srcType = s && dstType = d
  | srcOrDst s d => srcType = s || dstType = d
  | next type => nextType = type
  | any => true

/-- The type of the node that the current edge leads to, or -1. -/
def nextXidType (f : Frame) : Result UInt32 := do
  if f.nextPath.toNat < xidEdgeNum then
    let edge ← f.currentEdge
    if edge.idx.val ≠ xidEdgeUnused ∧ edge.idx.val < f.packet.dnode.length then
      return (← f.packet.nodeAt edge.idx.val).xid.type
    else return -1
  else return -1

/-- `XIAXIDTypeClassifier::match`: the first pattern that matches. -/
def classify (patterns : List Pattern) (f : Frame) : Result (Option Nat) := do
  let dst ← f.packet.nodeAt (f.packet.dnode.length - 1)
  let src ← f.packet.nodeAt (f.packet.dnode.length + f.packet.snode.length - 1)
  let next ← nextXidType f
  return patterns.findIdx? (Pattern.accepts src.xid.type dst.xid.type next)

/-! ### `XIAXIDRouteTable` -/

structure RouteData where
  port : Int
  flags : UInt32
  nexthop : Option Xid
deriving DecidableEq

/-- The class `XIAXIDRouteTable`.  `rtdata` is the default route. -/
structure RouteTable where
  enabled : Bool
  rts : HashTable Xid RouteData
  rtdata : RouteData
  numPorts : Int
  localAddr : XiaPath
  localHid : Xid
deriving DecidableEq

namespace RouteTable

/-- The entry that a broadcast of a neighbour leaves: the port it came in. -/
def learn (t : RouteTable) (sourceHid : Xid) (inEtherPort : Int) : RouteTable :=
  match t.rts.lookup sourceHid with
  | some xrd =>
    if xrd.port ≠ inEtherPort then
      { t with rts := t.rts.insert sourceHid { xrd with port := inEtherPort } }
    else t
  | none => { t with rts := t.rts.insert sourceHid ⟨inEtherPort, 0, some sourceHid⟩ }

/-- The neighbour that a route sends the packet to is noted in the packet. -/
def noteNexthop (xrd : RouteData) (f : Frame) : Frame :=
  if xrd.port ≠ destinedForLocalhost ∧ xrd.port ≠ fallback ∧ xrd.nexthop.isSome then
    { f with nexthop := xrd.nexthop }
  else f

/-- The HID of the sender of a broadcast: the destination of the source path once its last node was
removed. -/
def senderHid (p : Packet) : Result Xid := do
  let sourcePath ← p.srcPath.removeNode p.srcPath.destinationNode
  sourcePath.destXid

/-- `lookup_route`: the port, and the table and the frame afterwards. -/
def lookupRoute (t : RouteTable) (inEtherPort : Int) (f : Frame) :
    Result (Int × RouteTable × Frame) := do
  let edge ← f.currentEdge
  if edge.idx.val = xidEdgeUnused then return (t.rtdata.port, t, f)
  else
    let node ← f.packet.nodeAt edge.idx.val
    if node.xid = bhid then
      let sourceHid ← senderHid f.packet
      if t.localHid = sourceHid then
        return (destinedForBroadcast, t, { f with nexthop := some bhid })
      else return (destinedForLocalhost, t.learn sourceHid inEtherPort, f)
    else
      let xrd := t.rts.get t.rtdata node.xid
      return (xrd.port, t, noteNexthop xrd f)

def payloadXid (bytes : List UInt8) (offset : Nat) : Xid :=
  ⟨UInt32.ofNat (leNat ((bytes.drop offset).take 4)),
    Vector.ofFn fun i => bytes.getD (offset + 4 + i) 0⟩

/-- `process_xcmp_redirect`.  What lies behind the end of the packet is not known (`beyond`). -/
def processXcmpRedirect (beyond : Nat → UInt8) (t : RouteTable) (p : Packet) : RouteTable :=
  let pay := readBytes beyond (p.payload.toOption.getD []) 52
  let dest := payloadXid pay 4
  let newroute := payloadXid pay 28
  match t.rts.lookup dest with
  | some xrd => { t with rts := t.rts.insert dest { xrd with nexthop := some newroute } }
  | none =>
    let isLocal := dest.unparse <:+: t.localAddr.unparse.toOption.getD []
    let port := if isLocal then destinedForLocalhost else t.rtdata.port
    { t with rts := t.rts.insert dest ⟨port, 0, some newroute⟩ }

/-- The clone for XCMP, if the packet would leave through the port it came from. -/
def redirectClone (port inEtherPort : Int) (f : Frame) : List (Nat × Frame) :=
  if port = inEtherPort ∧ inEtherPort ≠ destinedForLocalhost ∧ inEtherPort ≠ destinedForDiscard then
    [(4, f.setPaint ((inEtherPort + totalSpecialCases) * -1))]
  else []

/-- The output for a port, with the packet or its clones. -/
def dispatch (t : RouteTable) (port : Int) (f : Frame) : List (Nat × Frame) :=
  if 0 ≤ port then [(0, f.setPaint port)]
  else if port = destinedForLocalhost then [(1, f)]
  else if port = destinedForDhcp then [(3, f.setPaint port)]
  else if port = destinedForBroadcast then
    (List.range (t.numPorts + 1).toNat).map fun i => (0, f.setPaint i)
  else [(2, f)]

/-- `push`: the table afterwards, and what is pushed on which output. -/
def push (beyond : Nat → UInt8) (t : RouteTable) (f : Frame) :
    Result (RouteTable × List (Nat × Frame)) := do
  let inEtherPort := f.paint.toInt
  if !t.enabled then return (t, [(2, f)])
  else if inEtherPort = redirect then return (t.processXcmpRedirect beyond f.packet, [])
  else
    let (port, t, f) ← t.lookupRoute inEtherPort f
    return (t, redirectClone port inEtherPort f ++ t.dispatch port f)

end RouteTable

/-! ### The other elements -/

/-- `XIANextHop`. -/
def nextHop (f : Frame) : Result Frame := do
  let edge ← f.currentEdge
  let packet := f.packet.markVisited f.packet.lastIndex.toNat f.nextPath.toNat
  return { f with packet := { packet with last := Int8.ofNat edge.idx.val } }

/-- `XIACheckDest`: has the packet arrived? -/
def checkDest (f : Frame) : Bool := f.packet.last.toInt = (f.packet.dnode.length : Int) - 1

/-- `XIADecHLIM`: `none` if the hop limit is reached. -/
def decHlim (f : Frame) : Option Frame :=
  if f.packet.hlim ≤ 1 then none
  else some { f with packet := { f.packet with hlim := f.packet.hlim - 1 } }

end Xia
