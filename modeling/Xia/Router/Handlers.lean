import Xia.Dagaddr.Construct
import Xia.Router.Elements

/-!
# The handlers of the route table

`XIAXIDRouteTable` is changed through write handlers that take a text: `add` and `set` a word and a
port, `add4` and `set4` up to four arguments between commas, and `remove` the text of an XID.  The
read handler `list` returns the table as lines of text.

`XIARouter` is the client of these handlers: `updateRoute` makes the text for one of them, and
`getRoutes` takes the lines apart.
-/

namespace Xia

/-- `String(int)`. -/
def itoa (n : Int) : Text := (if n < 0 then ['-'] else []) ++ XiaPath.decimal n.natAbs

def atoi (s : Text) : Int := (Dagaddr.sscanfInt s).getD 0

/-- `cp_xid` with a naming context, of which `query` is `XIAXIDInfo::query_xid`. -/
def cpXid (query : Text → Option Xid) (s : Text) : Option Xid := (query s).or (Xid.parse s)

def Xid.valid (x : Xid) : Bool := htonl x.type ≠ typeUndef

/-! ### The write handlers -/

def parseNexthop (query : Text → Option Xid) (arg : Text) : Except String (Option Xid) :=
  if arg = [] then .ok none
  else
    match (cpXid query arg).filter Xid.valid with
    | some x => .ok (some x)
    | none => .error "invalid next hop xid: "

/-- The flags of a route: the last of four arguments. -/
def parseFlags (args : List Text) : Except String UInt32 :=
  match args[3]? with
  | none => .ok 0
  | some arg =>
    match cpInteger false arg with
    | some flags => .ok (UInt32.ofNat flags.toNat)
    | none => .error "invalid flags: "

/-- The first part of `set_handler4`, which reads the arguments. -/
def parseRoute (query : Text → Option Xid) (conf : Text) : Except String (Text × RouteData) := do
  let args := cpArgvec conf
  if args.length < 2 ∨ 4 < args.length then throw "invalid route: "
  match cpInteger true (args.getD 1 []) with
  | none => throw "invalid port: "
  | some port =>
    let flags ← parseFlags args
    let nexthop ← parseNexthop query (args.getD 2 [])
    return (args.getD 0 [], ⟨port, flags, nexthop⟩)

namespace RouteTable

/-- The default route of a new table, and after it was removed. -/
def noRoute : RouteData := ⟨-1, 0, none⟩

def configure (localAddr : XiaPath) (localHid : Xid) (numPorts : Int) : RouteTable where
  enabled := true
  rts := ∅
  rtdata := noRoute
  numPorts := numPorts
  localAddr := localAddr
  localHid := localHid

/-- `set_handler4`: the text of the error that is returned, and the table. -/
def setHandler4 (query : Text → Option Xid) (addMode : Bool) (conf : Text) (t : RouteTable) :
    Option String × RouteTable :=
  match parseRoute query conf with
  | .error e => (some e, t)
  | .ok (xidStr, data) =>
    if xidStr = ['-'] then
      if addMode ∧ t.rtdata.port ≠ -1 then (some "duplicate default route: ", t)
      else (none, { t with rtdata := data })
    else
      match cpXid query xidStr with
      | none => (some "invalid XID: ", t)
      | some xid =>
        if addMode ∧ xid ∈ t.rts then (some "duplicate XID: ", t)
        else (none, { t with rts := t.rts.insert xid data })

/-- The arguments that `set_handler` passes on. -/
def oldStyleRoute (xidStr : Text) (port : Int) : Text :=
  xidStr ++ [','] ++ itoa port ++ [',', ',', '0']

def setHandler (query : Text → Option Xid) (addMode : Bool) (conf : Text) (t : RouteTable) :
    Option String × RouteTable :=
  let (xidStr, strCopy) := cpShiftSpacevec conf
  if xidStr = [] then (none, t)
  else
    match cpInteger true strCopy with
    | none => (some "invalid port: ", t)
    | some port => setHandler4 query addMode (oldStyleRoute xidStr port) t

def removeHandler (query : Text → Option Xid) (xidStr : Text) (t : RouteTable) :
    Option String × RouteTable :=
  if xidStr = [] then (none, t)
  else if xidStr = ['-'] then (none, { t with rtdata := noRoute })
  else
    match cpXid query xidStr with
    | none => (some "invalid XID: ", t)
    | some xid =>
      if xid ∈ t.rts then (none, { t with rts := t.rts.erase xid })
      else (some "nonexistent XID: ", t)

/-- A call of a write handler. -/
inductive Call
  | add (conf : Text)
  | set (conf : Text)
  | add4 (conf : Text)
  | set4 (conf : Text)
  | remove (xidStr : Text)
deriving DecidableEq

/-- The handlers, as `add_handlers` names them. -/
def handle (query : Text → Option Xid) : Call → RouteTable → Option String × RouteTable
  | .add conf => setHandler query true conf
  | .set conf => setHandler query false conf
  | .add4 conf => setHandler4 query true conf
  | .set4 conf => setHandler4 query false conf
  | .remove xidStr => removeHandler query xidStr

/-! ### The read handler -/

def routeLine (xid : Text) (xrd : RouteData) : Text :=
  xid ++ [','] ++ itoa xrd.port ++ [','] ++ (xrd.nexthop.map Xid.unparse).getD [] ++ [','] ++
    XiaPath.decimal xrd.flags.toNat ++ ['\n']

def listRoutesHandler (t : RouteTable) : Text :=
  routeLine ['-'] t.rtdata ++ t.rts.entries.flatMap fun e => routeLine e.1.unparse e.2

end RouteTable

/-! ### `XIARouter` -/

structure RouteEntry where
  xid : Text
  nextHop : Text
  port : UInt16
  flags : UInt64
deriving DecidableEq

namespace XiaRouter

/-- The part of a line before the next comma, and where the next one starts.  If there is no comma,
`find` returns -1, and one more than that is the start of the line. -/
def nextField (line s : Text) : Text × Text :=
  (s.takeWhile (· ≠ ','), if ',' ∈ s then (s.dropWhile (· ≠ ',')).tail else line)

/-- The entry that `getRoutes` makes of a line. -/
def parseEntry (line : Text) : RouteEntry :=
  let (xid, s) := nextField line line
  let (port, s) := nextField line s
  let (nextHop, s) := nextField line s
  ⟨xid, nextHop, UInt16.ofInt (atoi port), UInt64.ofInt (atoi s)⟩

/-- `getRoutes`, on the text that `click` returns: its lines are those that `getline` would find. -/
def getRoutes (result : Text) : List RouteEntry := (Dagaddr.split '\n' result).map parseEntry

/-- `sizeof(std::string)`. -/
def sizeofString : Nat := 32

/-- The commands of `updateRoute`. -/
inductive Cmd
  | add4
  | set4
  | remove
deriving DecidableEq

/-- The call that `updateRoute` makes, on the table for XIDs of a type, or `none` for
`XR_INVALID_XID`.  The flags are passed as an `int`. -/
def updateRoute (cmd : Cmd) (xid : Text) (port : Int) (next : Text) (flags : UInt64) :
    Option (Text × RouteTable.Call) :=
  let xidtype := xid.takeWhile (· ≠ ':')
  if xid = [] ∨ (next ≠ [] ∧ ':' ∉ next) ∨ ':' ∉ xid ∨ sizeofString ≤ xidtype.length then none
  else
    let mutableXid := if xid[xidtype.length + 1]? = some '-' then ['-'] else xid
    let entry := mutableXid ++ [','] ++ itoa port ++ [','] ++ next ++ [','] ++
      itoa ((flags.toNat : Int).bmod (2 ^ 32))
    match cmd with
    | .add4 => some (xidtype, .add4 entry)
    | .set4 => some (xidtype, .set4 entry)
    | .remove => some (xidtype, .remove mutableXid)

end XiaRouter

end Xia
