import Xia.Dagaddr.Graph

/-!
# Graphs from text

The constructor `Graph(std::string)` reads the two textual forms of an address.  It takes a text
apart with `split`, `trim` and `stoi` of `utils.cpp` and makes a new `Node` for every XID.  The
format checks are stubs, so a text that is not in one of the forms can lead to an access outside a
vector.

An index that is initialised with -1 is an `Option`.
-/

namespace Xia

namespace Dagaddr

/-! ### Text -/

/-- `split`: the pieces that `getline` returns.  After a delimiter at the end comes no piece. -/
def split (delim : Char) : Text → List Text
  | [] => []
  | c :: s =>
    if c = delim then [] :: split delim s
    else
      match split delim s with
      | [] => [[c]]
      | piece :: pieces => (c :: piece) :: pieces

/-- The white space of `trim`. -/
def isBlank (c : Char) : Bool := c = ' ' || c = '\t'

def trim (s : Text) : Text := (s.dropWhile isBlank).rdropWhile isBlank

def scanSign : Text → Bool × Text
  | '-' :: s => (true, s)
  | '+' :: s => (false, s)
  | s => (false, s)

/-- The number at the front of a text, in base `b`; `acc` is what has been read of it. -/
def scanDigits (b : Nat) : Text → Option Nat → Option Nat
  | [], acc => acc
  | c :: s, acc =>
    match digitValue b c with
    | some d => scanDigits b s (some (acc.getD 0 * b + d))
    | none => acc

/-- A number in base 16 may have a prefix, which is a number itself. -/
def scanHexDigits : Text → Option Nat
  | '0' :: 'x' :: s => scanDigits 16 s (some 0)
  | '0' :: 'X' :: s => scanDigits 16 s (some 0)
  | s => scanDigits 16 s none

/-- `sscanf` with `%d`: a `long` that is cut down to an `int`. -/
def sscanfInt (s : Text) : Option Int :=
  let (negative, digits) := scanSign (s.dropWhile isSpace)
  (scanDigits 10 digits none).map fun n =>
    (if negative then -(min n (2 ^ 63) : Nat) else (min n (2 ^ 63 - 1) : Nat) : Int).bmod (2 ^ 32)

/-- `sscanf` with `%x`: an `unsigned long` that is cut down to an `int`. -/
def sscanfHex (s : Text) : Option Int :=
  let (negative, digits) := scanSign (s.dropWhile isSpace)
  (scanHexDigits digits).map fun n =>
    (if 2 ^ 64 ≤ n then -1 else if negative then -(n : Int) else n).bmod (2 ^ 32)

/-- `stoi`: -1 if there is no number. -/
def stoi (s : Text) (base : Nat) : Int :=
  (if base = 16 then sscanfHex s else sscanfInt s).getD (-1)

/-! ### Nodes -/

/-- What the library takes from the C and C++ run-time libraries. -/
structure Libc where
  /-- `inet_addr`, with `none` for `INADDR_NONE` -/
  inetAddr : Text → Option (UInt8 × UInt8 × UInt8 × UInt8)
  /-- the addresses of new containers: no two of those in use are the same, and none is that of
  `dummy_source_` -/
  new : Nat → Nat
  new_injective : Function.Injective new
  new_ne_zero : ∀ i, new i ≠ 0

instance : Inhabited Libc := ⟨⟨fun _ => none, Nat.succ, Nat.succ_injective, Nat.succ_ne_zero⟩⟩

namespace Node

def typeOfString (s : Text) : UInt32 :=
  if s = ['A', 'D'] then Xid.typeAd
  else if s = ['H', 'I', 'D'] then Xid.typeHid
  else if s = ['C', 'I', 'D'] then Xid.typeCid
  else if s = ['S', 'I', 'D'] then Xid.typeSid
  else if s = ['I', 'P'] then Xid.typeIp
  else if s = ['S', 'O', 'U', 'R', 'C', 'E'] then typeDummySource
  else 0

/-- One byte of an identifier; a pair that is no number leaves the zero. -/
def idByte (s : Text) : UInt8 :=
  let num := stoi s 16
  if num = -1 then 0 else UInt8.ofNat (num % 256).toNat

/-- The identifier that is read for a node of a type.  An `IP` identifier may be a dotted quad. -/
def idOfString (libc : Libc) (type : UInt32) (s : Text) : Vector UInt8 xidIdLen :=
  match if type = Xid.typeIp then libc.inetAddr s else none with
  | some (a, b, c, d) =>
    Vector.ofFn fun i =>
      [0x45, 0, 0, 0, 0, 0x01, 0, 0, 0xfa, 0xfa, 0, 0, 0, 0, 0, 0, a, b, c, d].getD i 0
  | none =>
    if s.length ≠ 40 then Vector.replicate _ 0
    else Vector.ofFn fun i => idByte ((s.drop (2 * i)).take 2)

/-- `construct_from_strings`, in a container at the address `ptr`. -/
def constructFromStrings (libc : Libc) (ptr : Nat) (typeStr idStr : Text) : Node :=
  ⟨ptr, typeOfString typeStr, idOfString libc (typeOfString typeStr) idStr⟩

/-- `Node(std::string)`. -/
def ofString (libc : Libc) (ptr : Nat) (s : Text) : Result Node := do
  let xidElems := split ':' s
  let typeStr ← inBounds xidElems[0]?
  let idStr ← inBounds xidElems[1]?
  return constructFromStrings libc ptr typeStr idStr

end Node

namespace Graph

variable (libc : Libc)

/-! ### The form with indices -/

def lineElems (line : Text) : List Text := split ' ' (trim line)

/-- Pass 1 of `construct_from_dag_string`, from the line `i` on: the graph with the nodes, and
`dag_idx_to_graph_idx`. -/
def addDagNodes : Nat → List Text → Graph × List Nat → Result (Graph × List Nat)
  | _, [], st => .ok st
  | i, line :: lines, (g, idxs) => do
    let n ←
      if i = 0 then pure Node.dummySource
      else do
        let xid ← inBounds (lineElems line)[0]?
        Node.ofString libc (libc.new i) xid
    let (idx, g) := g.addNode n false
    addDagNodes (i + 1) lines (g, idxs ++ [idx])

/-- An element of a vector, at an `int`. -/
def atInt {α : Type} (v : List α) (k : Int) : Option α := if 0 ≤ k then v[k.toNat]? else none

/-- `dag_idx + 1`, as an `int`. -/
def dagPosition (word : Text) : Int := (stoi word 10 + 1).bmod (2 ^ 32)

def addDagLine (idxs : List Nat) (i : Nat) (g : Graph) (word : Text) : Result Graph := do
  let fromId ← inBounds idxs[i]?
  let toId ← inBounds (atInt idxs (dagPosition word))
  g.addEdge fromId toId

/-- Pass 2 of `construct_from_dag_string`, from the line `i` on. -/
def addDagEdges (idxs : List Nat) : Nat → List Text → Graph → Result Graph
  | _, [], g => .ok g
  | i, line :: lines, g => do
    let g ← (lineElems line).tail.foldlM (addDagLine idxs i) g
    addDagEdges idxs (i + 1) lines g

def constructFromDagString (dagString : Text) : Result Graph := do
  let lines := split '-' (dagString.filter (· ≠ '\n'))
  let (g, idxs) ← addDagNodes libc 0 lines (empty, [])
  addDagEdges idxs 0 lines g

/-! ### The form with fallbacks -/

/-- The variables of `construct_from_re_string`, and the number of nodes that were made. -/
structure ReState where
  graph : Graph
  lastIntentIdx : Nat
  lastFallbackIdx : Option Nat
  firstFallbackIdx : Option Nat
  processingFallback : Bool
  justProcessedFallback : Bool
  justStartedFallback : Bool
  made : Nat

def ReState.init : ReState where
  graph := (empty.addNode Node.dummySource false).2
  lastIntentIdx := (empty.addNode Node.dummySource false).1
  lastFallbackIdx := none
  firstFallbackIdx := none
  processingFallback := false
  justProcessedFallback := false
  justStartedFallback := false
  made := 0

def ReState.addXid (st : ReState) (component : Text) : Result ReState := do
  let n ← Node.ofString libc (libc.new st.made) component
  let (curIdx, g) := st.graph.addNode n false
  let st := { st with graph := g, made := st.made + 1 }
  if st.processingFallback then
    if st.justStartedFallback then
      return { st with
        firstFallbackIdx := some curIdx
        justStartedFallback := false
        lastFallbackIdx := some curIdx }
    else
      let last ← inBounds st.lastFallbackIdx
      let g ← st.graph.addEdge last curIdx
      return { st with graph := g, lastFallbackIdx := some curIdx }
  else
    let g ← st.graph.addEdge st.lastIntentIdx curIdx
    if st.justProcessedFallback then
      let first ← inBounds st.firstFallbackIdx
      let g ← g.addEdge st.lastIntentIdx first
      let last ← inBounds st.lastFallbackIdx
      let g ← g.addEdge last curIdx
      return { st with graph := g, justProcessedFallback := false, lastIntentIdx := curIdx }
    else return { st with graph := g, lastIntentIdx := curIdx }

def ReState.step (st : ReState) (component : Text) : Result ReState :=
  if component = ['('] then
    return { st with processingFallback := true, justStartedFallback := true }
  else if component = [')'] then
    return { st with processingFallback := false, justProcessedFallback := true }
  else st.addXid libc component

def constructFromReString (reString : Text) : Result Graph := do
  let st ← (split ' ' reString).tail.foldlM (ReState.step libc) ReState.init
  return st.graph

/-- `Graph(std::string)`. -/
def ofString (dagString : Text) : Result Graph :=
  if ['D', 'A', 'G'] <:+: dagString then constructFromDagString libc dagString
  else if ['R', 'E'] <:+: dagString then constructFromReString libc dagString
  else return ofNode Node.dummySource

end Graph

end Dagaddr

end Xia
