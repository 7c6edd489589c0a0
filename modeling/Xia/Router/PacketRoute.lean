import Xia.Router.Elements

/-!
# The wiring of a router

`XIAPacketRoute` of `xia_router_lib.click`: a classifier with a route table for each of the five
principal types, two path selectors and the elements behind the tables.  A packet goes round: from
the last path of a table to the next path, and from a local node that is not the destination back to
the first path.

`Config.step` is the step of one element.  `GenericPostRouteProc` is part of the step of the table
before it.  What leaves the loop is listed with its exit; a packet that is handed to `XCMP` leaves
it, and what `XCMP` sends in turn is another packet.
-/

namespace Xia

/-- The principal types that the classifier knows, in the order of its outputs. -/
inductive Principal where
  | ad
  | hid
  | sid
  | cid
  | ip
deriving DecidableEq

namespace Principal

def all : List Principal := [ad, hid, sid, cid, ip]

def type : Principal → UInt32
  | ad => htonl Xid.typeAd
  | hid => htonl Xid.typeHid
  | sid => htonl Xid.typeSid
  | cid => htonl Xid.typeCid
  | ip => htonl Xid.typeIp

end Principal

/-- `XIAXIDTypeClassifier(next AD, next HID, next SID, next CID, next IP, -)`. -/
def routePatterns : List Pattern := Principal.all.map (fun t => .next t.type) ++ [.any]

/-- The route tables `rt_AD`, `rt_HID`, `rt_SID`, `rt_CID` and `rt_IP`. -/
abbrev Router := Principal → RouteTable

/-- The element that is about to be pushed a packet.  There is one `XIANextHop` behind `rt_SID` and
one behind the other tables. -/
inductive Stage where
  | firstPath
  | nextPath
  | classifier
  | routeTable (t : Principal)
  | nextHop (t : Principal)
  | checkDest
deriving DecidableEq

/-- Where a packet leaves the loop. -/
inductive Exit where
  /-- `[0]output`: forward -/
  | forward
  /-- `[1]output`: arrived at the destination node -/
  | arrived
  /-- `[2]output`: could not route at all -/
  | unroutable
  /-- `[3]output`: DHCP -/
  | dhcp
  /-- to the element `XCMP` -/
  | xcmp
  /-- to `Discard` -/
  | discard
deriving DecidableEq

/-- A packet in front of an element. -/
structure Config where
  router : Router
  stage : Stage
  frame : Frame

/-- `GenericPostRouteProc`. -/
def postRoute (f : Frame) : Exit × Frame :=
  match decHlim f with
  | some f => (.forward, f)
  | none => (.xcmp, f)

/-- The exits behind the outputs of the route table `t`. -/
def tableExit (t : Principal) : Nat × Frame → Option (Exit × Frame)
  | (0, f) => some (postRoute f)
  | (3, f) => some (if t = .sid then .dhcp else .discard, f)
  | (4, f) => some (.xcmp, f)
  | _ => none

/-- The elements behind the outputs of the route table `t` that are part of the loop. -/
def tableNext (t : Principal) : Nat × Frame → Option (Stage × Frame)
  | (1, f) => some (.nextHop t, f)
  | (2, f) => some (.nextPath, f)
  | _ => none

/-- What an element did: the tables, what left the loop, and where the packet is now. -/
structure Step where
  router : Router
  out : List (Exit × Frame)
  next : Option (Stage × Frame)

namespace Config

/-- The step of the element that the packet is in front of. -/
def step (beyond : Nat → UInt8) (c : Config) : Result Step :=
  match c.stage with
  | .firstPath => return ⟨c.router, [], some (.classifier, selectFirst c.frame)⟩
  | .nextPath =>
    match selectNext c.frame with
    | (f, true) => return ⟨c.router, [], some (.classifier, f)⟩
    | (f, false) => return ⟨c.router, [(.unroutable, f)], none⟩
  | .classifier => do
    match ← classify routePatterns c.frame with
    | none => return ⟨c.router, [], none⟩
    | some output =>
      match Principal.all[output]? with
      | some t => return ⟨c.router, [], some (.routeTable t, c.frame)⟩
      | none => return ⟨c.router, [(.unroutable, c.frame)], none⟩
  | .routeTable t => do
    let (table, outs) ← (c.router t).push beyond c.frame
    return ⟨Function.update c.router t table, outs.filterMap (tableExit t),
      outs.findSome? (tableNext t)⟩
  | .nextHop t => do
    let f ← Xia.nextHop c.frame
    if t = .sid then return ⟨c.router, [(.arrived, f.setPaint destinedForLocalhost)], none⟩
    else return ⟨c.router, [], some (.checkDest, f)⟩
  | .checkDest =>
    if Xia.checkDest c.frame then
      return ⟨c.router, [(.arrived, c.frame.setPaint destinedForLocalhost)], none⟩
    else return ⟨c.router, [], some (.firstPath, c.frame)⟩

/-- The packet in front of the next element; `none` when it has left the loop, and at a fault. -/
def next (beyond : Nat → UInt8) (c : Config) : Option Config :=
  match c.step beyond with
  | .ok s => s.next.map fun (stage, frame) => ⟨s.router, stage, frame⟩
  | .error _ => none

end Config

/-- A packet at the input of `XIAPacketRoute`. -/
def Router.start (r : Router) (f : Frame) : Config := ⟨r, .firstPath, f⟩

end Xia
