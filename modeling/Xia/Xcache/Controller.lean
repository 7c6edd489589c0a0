import Xia.Click.Basic
import Xia.Machine

/-!
# The controller of xcache

The controller keeps one `XcacheMeta` for every CID, in the order of their allocation, and one
`XcacheSlice` for every context.  A slice holds metas, and the data of a meta is in the content
store (`MemHt`), under the meta.

The constructor of a meta leaves its length uninitialised: `junkLen` is what the memory holds.
Metas are not freed, so a pointer to one is the number of metas that were allocated before it.
The time to live of a slice, which nothing reads, is left out.
-/

namespace Xia

namespace Xcache

/-- A `std::string` that holds bytes. -/
abbrev Bytes := List UInt8

/-- An `XcacheMeta *`. -/
abbrev MetaPtr := Nat

/-- `XcacheCommand::requestType`. -/
inductive RequestType where
  | store
  | newslice
  | getchunk
  | timeout
  | clear
  | response
  | error
  | status
deriving DecidableEq

/-- The fields of an `XcacheCommand` that the controller reads; a field that is not set has its
default. -/
structure XcacheCommand where
  cmd : RequestType
  contextId : Int32
  cid : Bytes
  data : Bytes
  cacheSize : Int32
deriving DecidableEq

/-- The response to a command; a GETCHUNK leaves it empty. -/
structure Response where
  cmd : Option RequestType
  contextId : Option Int32
deriving DecidableEq

def okSendResponse : Int := 1
def okNoResponse : Int := 0
def bad : Int := -1

/-! ### Policies and metas -/

/-- `XcachePolicy` and the class that is derived from it. -/
inductive XcachePolicy where
  | base
  | fifo
deriving DecidableEq

namespace XcachePolicy

def store (policy : XcachePolicy) (_ : MetaPtr) : Int :=
  match policy with
  | .base => 0
  | .fifo => 1

/-- Neither class names an object. -/
def evict : XcachePolicy → Option MetaPtr
  | .base => none
  | .fifo => none

/-- `policy = other`: the assignment copies the part of the base class, and the object keeps its
own one. -/
def assign (policy _ : XcachePolicy) : XcachePolicy := policy

end XcachePolicy

/-- The content stores that the store manager knows. -/
inductive ContentStore where
  | memHt
deriving DecidableEq

/-- The metadata of an object. -/
structure XcacheMeta where
  refCount : UInt32
  len : UInt64
  /-- the slices that the meta is a part of -/
  sliceMap : HashTable UInt32 Int32
  store : Option ContentStore
  cid : Bytes

/-- `XcacheMeta(cmd)`. -/
def XcacheMeta.new (junkLen : UInt64) (cmd : XcacheCommand) : XcacheMeta :=
  ⟨0, junkLen, ∅, none, cmd.cid⟩

/-- A slice of the cache: the objects of one context. -/
structure XcacheSlice where
  metaMap : HashTable Bytes MetaPtr
  maxSize : UInt64
  currentSize : UInt64
  contextId : Int32
  policy : XcachePolicy

namespace XcacheSlice

def new (contextId : Int32) : XcacheSlice :=
  ⟨∅, 0, 0, contextId, XcachePolicy.base.assign .fifo⟩

/-- `setSize`, called with an `int32_t`. -/
def setSize (size : Int32) (slice : XcacheSlice) : XcacheSlice :=
  { slice with maxSize := size.toInt64.toUInt64 }

/-- `hasRoom`, with its unsigned subtraction. -/
def hasRoom (slice : XcacheSlice) (m : XcacheMeta) : Bool :=
  m.len ≤ slice.maxSize - slice.currentSize

end XcacheSlice

def XcacheMeta.addedToSlice (slice : XcacheSlice) (m : XcacheMeta) : XcacheMeta :=
  { m with
    refCount := m.refCount + 1
    sliceMap := m.sliceMap.insert slice.contextId.toUInt32 slice.contextId }

def XcacheMeta.removedFromSlice (m : XcacheMeta) : XcacheMeta :=
  { m with refCount := m.refCount - 1 }

/-! ### The controller -/

/-- `XcacheController`, with the metas that it has allocated, the content store of its store manager
and the static counter `context_id`. -/
structure XcacheController where
  metas : List XcacheMeta
  metaMap : HashTable Bytes MetaPtr
  sliceMap : HashTable Int32 XcacheSlice
  memht : HashTable MetaPtr Bytes
  lastContextId : Int32

namespace XcacheController

def init : XcacheController := ⟨[], ∅, ∅, ∅, 0⟩

def metaAt (c : XcacheController) (p : MetaPtr) : Result XcacheMeta := deref c.metas[p]?

def setMeta (c : XcacheController) (p : MetaPtr) (m : XcacheMeta) : XcacheController :=
  { c with metas := c.metas.set p m }

def addMeta (c : XcacheController) (slice : XcacheSlice) (p : MetaPtr) :
    Result (XcacheController × XcacheSlice) := do
  let m ← c.metaAt p
  return (c.setMeta p (m.addedToSlice slice),
    { slice with metaMap := slice.metaMap.insert m.cid p })

/-- `XcacheSlice::removeMeta`; the result of `find` is not checked. -/
def removeMeta (c : XcacheController) (slice : XcacheSlice) (p : MetaPtr) :
    Result (XcacheController × XcacheSlice) := do
  let m ← c.metaAt p
  let _ ← inBounds (slice.metaMap.lookup m.cid)
  return (c.setMeta p m.removedFromSlice,
    { slice with metaMap := slice.metaMap.erase m.cid })

/-- `XcacheSlice::makeRoom`.  Every iteration takes one object out of the slice, so the fuel is one
more than their number. -/
def makeRoom (m : XcacheMeta) :
    Nat → XcacheController → XcacheSlice → Result (XcacheController × XcacheSlice)
  | 0, _, _ => .error .outOfBounds
  | fuel + 1, c, slice =>
    if slice.hasRoom m then .ok (c, slice)
    else do
      let toRemove ← deref slice.policy.evict
      let (c, slice) ← c.removeMeta slice toRemove
      makeRoom m fuel c slice

/-- `XcacheSlice::store`. -/
def sliceStore (c : XcacheController) (slice : XcacheSlice) (p : MetaPtr) :
    Result (Int × XcacheController × XcacheSlice) := do
  let m ← c.metaAt p
  -- `alreadyHasMeta`
  if (slice.metaMap.lookup m.cid).isSome then return (bad, c, slice)
  else
    let (c, slice) ← c.makeRoom m (slice.metaMap.entries.length + 1) slice
    let (c, slice) ← c.addMeta slice p
    return (slice.policy.store p, c, slice)

/-- `XcacheStoreManager::store`: the one store of the vector takes everything. -/
def managerStore (c : XcacheController) (p : MetaPtr) (data : Bytes) :
    Result (Int × XcacheController) := do
  let m ← c.metaAt p
  let c := { c with memht := c.memht.insert p data }
  return (0, c.setMeta p { m with store := some .memHt })

def lookupSlice (c : XcacheController) (cmd : XcacheCommand) : Option XcacheSlice :=
  c.sliceMap.lookup cmd.contextId

/-- `newSlice`.  The context of the command is checked, the new slice gets the next number. -/
def newSlice (c : XcacheController) (cmd : XcacheCommand) : Int × Response × XcacheController :=
  if (c.lookupSlice cmd).isSome then (bad, ⟨none, none⟩, c)
  else
    let contextId := c.lastContextId + 1
    let slice := (XcacheSlice.new contextId).setSize cmd.cacheSize
    (okSendResponse, ⟨some .response, some contextId⟩,
      { c with lastContextId := contextId, sliceMap := c.sliceMap.insert contextId slice })

/-- The first part of `store`: the meta of the CID, made anew for a CID that is not known. -/
def findMeta (junkLen : UInt64) (c : XcacheController) (cmd : XcacheCommand) :
    MetaPtr × XcacheController :=
  match c.metaMap.lookup cmd.cid with
  | some p => (p, c)
  | none =>
    let p := c.metas.length
    (p, { c with
      metas := c.metas ++ [XcacheMeta.new junkLen cmd], metaMap := c.metaMap.insert cmd.cid p })

def store (junkLen : UInt64) (c : XcacheController) (cmd : XcacheCommand) :
    Result (Int × XcacheController) := do
  let (p, c) := c.findMeta junkLen cmd
  match c.lookupSlice cmd with
  | none => return (bad, c)
  | some slice =>
    let (ret, c, slice) ← c.sliceStore slice p
    -- the slice is changed in place
    let c := { c with sliceMap := c.sliceMap.insert cmd.contextId slice }
    if ret < 0 then return (bad, c) else c.managerStore p cmd.data

/-- `XcacheMeta::get`.  The index operator of the map stores an empty text for a missing meta. -/
def metaGet (c : XcacheController) (p : MetaPtr) : Result (Bytes × XcacheController) := do
  let m ← c.metaAt p
  let _ ← deref m.store
  match c.memht.lookup p with
  | some data => return (data, c)
  | none => return ([], { c with memht := c.memht.insert p [] })

/-- `XcacheSlice::search`. -/
def sliceSearch (c : XcacheController) (slice : XcacheSlice) (cid : Bytes) :
    Result (Bytes × XcacheController) :=
  match slice.metaMap.lookup cid with
  | some p => c.metaGet p
  | none => .ok ([], c)

/-- The metas that `status` prints. -/
def heldMetas (c : XcacheController) : List MetaPtr :=
  c.sliceMap.entries.flatMap fun e => e.2.metaMap.entries.map fun e => e.2

/-- `status`: the data of every meta of every slice is printed. -/
def status (c : XcacheController) : List MetaPtr → Result XcacheController
  | [] => .ok c
  | p :: ps => do
    let (_, c) ← c.metaGet p
    status c ps

/-- `handleCmd`.  A GETCHUNK only connects to the network, since the local search is compiled
out. -/
def handleCmd (junkLen : UInt64) (c : XcacheController) (cmd : XcacheCommand) :
    Result (Int × Response × XcacheController) :=
  match cmd.cmd with
  | .store => do
    let (ret, c) ← c.store junkLen cmd
    return (ret, ⟨none, none⟩, c)
  | .newslice => .ok (c.newSlice cmd)
  | .getchunk => .ok (okSendResponse, ⟨none, none⟩, c)
  | .status => do
    let c ← c.status c.heldMetas
    return (okNoResponse, ⟨none, none⟩, c)
  | _ => .ok (okNoResponse, ⟨none, none⟩, c)

/-- A command, and the memory in which its meta may be made. -/
structure Request where
  junkLen : UInt64
  cmd : XcacheCommand

/-- The controller as a machine: its outputs are the responses that are written. -/
def step : Machine.Step XcacheController Request Fault Response := fun c r => do
  let (ret, resp, c) ← c.handleCmd r.junkLen r.cmd
  return (c, if ret = okSendResponse then [resp] else [])

def Reachable (c : XcacheController) : Prop :=
  ∃ rs out, Machine.run step init rs = .ok (c, out)

end XcacheController

end Xcache

end Xia
