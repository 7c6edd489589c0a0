import Xia.Transport.Equiv.Teardown

/-!
# The demultiplexing tables

`XIDpairToPort` maps the local and the remote XID of a connection, or of a chunk request, to a
port.  The table is coherent if every entry belongs to a live socket with these names.

No call and no tick removes an entry: `KeepsPairs` says, for each event and on the state before it,
that the sockets it makes, renames or removes have no entry that would become wrong.
`demultiplexes_of_keepsPairs` is the result for runs.
-/

namespace Xia

open List Option HashTable

/-! ### Names -/

/-- The local address followed by the XID, written as text and read back, ends in the XID. -/
def ReadsBack (localAddr : XiaPath) (x : Xid) : Prop :=
  ∀ t, localAddr.unparseRe = .ok t → (XiaPath.parseRe (t ++ [' '] ++ x.unparse)).2.destXid = .ok x

theorem XiaPath.parseReWords_destXid_of_typeWord {type : Text} {ws : List Text}
    (htype : type = ['D', 'A', 'G'] ∨ type = ['R', 'E']) (x : Xid) :
    (XiaPath.parseReWords (type :: ws)).2.destXid ≠ .ok x := by
  have hparen : type ≠ ['('] := by rcases htype with rfl | rfl <;> decide
  have hxid : Xid.parse type = none := by rcases htype with rfl | rfl <;> decide
  have hloop : ∀ st, XiaPath.parseReLoop (type :: ws).length (type :: ws) st = (false, st) := by
    intro st
    simp [XiaPath.parseReLoop, hparen, hxid]
  rw [XiaPath.parseReWords, hloop]
  intro h
  cases h

/-- A text that `parse_re` reads does not start with a type word, so `parse` leaves the path as it
was. -/
theorem XiaPath.parse_of_parseRe {str : Text} {x : Xid}
    (h : (XiaPath.parseRe str).2.destXid = .ok x) (p : XiaPath) : (p.parse str).2 = p := by
  rw [XiaPath.parseRe] at h
  rw [XiaPath.parse]
  cases hws : cpSpacevec str with
  | nil => rfl
  | cons type ws =>
    rw [hws] at h
    have hne : ¬ (type = ['D', 'A', 'G'] ∨ type = ['R', 'E']) := fun htype =>
      XiaPath.parseReWords_destXid_of_typeWord htype x h
    rw [not_or] at hne
    simp only [if_neg hne.1, if_neg hne.2]

theorem DagInfo.Relocated.destXid {localAddr path path' : XiaPath} {x : Xid}
    (h : DagInfo.Relocated localAddr path path') (hx : path.destXid = .ok x)
    (hback : ReadsBack localAddr x) : path'.destXid = .ok x := by
  induction h with
  | refl => exact hx
  | tail _ hstep ih =>
    obtain ⟨x', t, hx', ht, rfl⟩ := hstep
    rw [ih, Except.ok.injEq] at hx'
    subst hx'
    exact hback t ht

/-- The socket has the local name of the pair, and its peer's name or a requested CID is the remote
one. -/
structure DagInfo.Owns (d : DagInfo) (pair : XidPair) : Prop where
  src : d.srcPath.destXid = .ok pair.src
  dst : d.dstPath.destXid = .ok pair.dst ∨ (d.xidToStatus.lookup pair.dst).isSome

theorem DagInfo.Owns.relocated {localAddr path : XiaPath} {d d' : DagInfo} {pair : XidPair}
    (h : d.Owns pair) (hback : ReadsBack localAddr pair.src)
    (hpath : DagInfo.Relocated localAddr d.srcPath path) (hsrc : d'.srcPath = path)
    (hdst : d'.dstPath = d.dstPath)
    (hstatus : ∀ x, (d.xidToStatus.lookup x).isSome → (d'.xidToStatus.lookup x).isSome) :
    d'.Owns pair :=
  ⟨by rw [hsrc]; exact hpath.destXid h.src hback,
    h.dst.imp (fun h => by rw [hdst]; exact h) (hstatus _)⟩

namespace XTransport

variable {sha1 : Sha1} {env : Env} {s s' : XTransport} {q : UInt16} {d d' : DagInfo}
variable {x : Xid} {localAddr : XiaPath}
variable {out : List Output}

/-- Every entry of `XIDpairToPort` belongs to a live socket with its names. -/
def Coherent (s : XTransport) : Prop :=
  ∀ pair q, s.xidPairToPort.lookup pair = some q →
    ∃ d, s.portToDagInfo.lookup q = some d ∧ d.Owns pair

/-- The pair by which an event is demultiplexed: a stream packet of a connection, or a chunk. -/
def demuxPair : Event → Option XidPair
  | .network p =>
    match packetKey p with
    | none => none
    | some (pair, thdr) =>
      if p.nxt ≠ nxtXcmp ∧ (IsStream thdr TransportHeader.synack ∨
          IsStream thdr TransportHeader.data ∨ IsStream thdr TransportHeader.ack) then some pair
      else none
  | .cache p =>
    match p.dstPath.destXid, p.srcPath.destXid, p.extHeader with
    | .ok x, .ok y, .ok ch =>
      if ContentHeader.opcode ch = .ok ContentHeader.opPush then none else some ⟨x, y⟩
    | _, _, _ => none
  | _ => none

/-- What is handed to an application for a stream packet or a chunk goes to the socket that owns the
pair. -/
def DeliversToOwner (sha1 : Sha1) (s : XTransport) : Prop :=
  ∀ env e s' out pair, s.handle sha1 env e = .ok (s', out) → demuxPair e = some pair →
    ∀ q msg, Output.api q msg ∈ out → ∃ d, s.portToDagInfo.lookup q = some d ∧ d.Owns pair

/-! ### The condition -/

/-- The socket owns every entry of the port. -/
def Fits (s : XTransport) (q : UInt16) (d : DagInfo) : Prop :=
  ∀ pair, s.xidPairToPort.lookup pair = some q → d.Owns pair

/-- The XID under which the socket of a port requests a chunk. -/
def RequestName (env : Env) (s : XTransport) (q : UInt16) (x : Xid) : Prop :=
  ∃ d path, d = (s.portToDagInfo.lookup q).getD (DagInfo.new env.junk) ∧ path.destXid = .ok x ∧
    (d.initialized = true ∧ path = d.srcPath ∨
      d.initialized = false ∧ DagInfo.Ephemeral env s.localAddr path)

/-- The ports whose sockets a packet gives the path of its sender. -/
def repathed (s : XTransport) (p : Packet) (pair : XidPair) (thdr : ExtHeader) : List UInt16 :=
  (if (IsStream thdr TransportHeader.data ∨ IsStream thdr TransportHeader.ack) ∧
      (s.portToActive.lookup (s.pairPort pair)).isSome then [s.pairPort pair] else []) ++
  if p.nxt = 22 then [s.pairPort pair, s.xidToPort.get 0 pair.src] else []

/-- The local names of the entries read back behind an address. -/
def PairsReadBack (s : XTransport) (localAddr : XiaPath) : Prop :=
  ∀ pair q, s.xidPairToPort.lookup pair = some q → ReadsBack localAddr pair.src

/-- The event leaves every entry with a socket of its names. -/
def KeepsPairs (s : XTransport) (i : Input) : Prop :=
  match i.event with
  -- a new socket has no name: its port has no entry yet
  | .xsocket q _ => ∀ pair, s.xidPairToPort.lookup pair ≠ some q
  | .xbind q sdag | .xbindPush q sdag =>
    ∀ d, s.portToDagInfo.lookup q = some d → s.Fits q { d with srcPath := (d.srcPath.parse sdag).2 }
  | .xconnect q ddag =>
    ∀ d src dst, d = (s.portToDagInfo.lookup q).getD (DagInfo.new i.env.junk) →
      d.ConnectPaths i.env s.localAddr (cStr ddag) src dst →
        s.Fits q { d with srcPath := src, dstPath := dst } ∧
          ∀ x, src.destXid = .ok x → ReadsBack s.localAddr x
  | .xaccept q =>
    ∀ d rest, s.pendingConnectionBuf = d :: rest →
      s.Fits q d ∧ ∀ x, d.srcPath.destXid = .ok x → ReadsBack s.localAddr x
  | .xrequestChunk q _ _ => ∀ x, s.RequestName i.env q x → ReadsBack s.localAddr x
  -- the pair that is filed has the CID as its local name, not the name of the socket
  | .xpushChunkto _ _ _ _ _ => False
  | .xchangead ad ip4id => s.PairsReadBack (s.localAddr.parse (s.changeadText ad ip4id)).2
  | .xhcp p =>
    ∀ text, s.xhcpText i.env p = .ok (some text) → s.PairsReadBack (s.localAddr.parse text).2
  | .writeParam conf => ∀ addr, XiaPath.empty.parse conf = (true, addr) → s.PairsReadBack addr
  | .network p =>
    ∀ pair thdr, packetKey p = some (pair, thdr) → p.nxt ≠ nxtXcmp →
      ∀ q ∈ s.repathed p pair thdr, ∀ d, s.portToDagInfo.lookup q = some d →
        s.Fits q { d with dstPath := p.srcPath }
  -- a removed socket leaves its entries behind
  | .timer => ∀ q ∈ s.removedPorts i.env.now, ∀ pair, s.xidPairToPort.lookup pair ≠ some q
  | .xsetsockopt _ _ _ | .xclose _ | .xsend _ _ | .xsendto _ _ _ | .xreadChunk _ _
  | .xgetChunkStatus _ _ | .cache _ => True

/-! ### One step -/

theorem bindSocket_names {sdag : Text} {x : Option Xid} (h : bindSocket d sdag = .ok (d', x)) :
    d'.srcPath = (d.srcPath.parse sdag).2 ∧ d'.dstPath = d.dstPath ∧
      d'.xidToStatus = d.xidToStatus ∧ (d.initialized = true → d'.initialized = true) := by
  simp only [bindSocket] at h
  split at h
  · simp only [Result.bind_eq_ok] at h
    obtain ⟨_, -, _, -, _, -, _, -, h⟩ := h
    cases h
    exact ⟨rfl, rfl, rfl, fun _ => rfl⟩
  · cases h
    exact ⟨rfl, rfl, rfl, id⟩

theorem isSome_lookup_insert {t : HashTable Xid Int} {y : Xid} {v : Int} (h : (t.lookup x).isSome) :
    ((t.insert y v).lookup x).isSome := by
  rw [lookup_insert_eq]
  split
  · rfl
  · exact h

/-- The invariant behind coherence: the sockets of the entries are initialized, and their names read
back. -/
def Entries (s : XTransport) : Prop :=
  ∀ pair q, s.xidPairToPort.lookup pair = some q →
    ∃ d, s.portToDagInfo.lookup q = some d ∧ d.initialized = true ∧ d.Owns pair ∧
      ReadsBack s.localAddr pair.src

namespace Entries

variable (h : Entries s)
include h

theorem coherent : Coherent s := fun pair q hpair => by
  obtain ⟨d, hd, -, howns, -⟩ := h pair q hpair
  exact ⟨d, hd, howns⟩

/-- An event that stores the socket of one port: the entries of that port fit the new socket. -/
theorem touched (ht : Touched s s' q d')
    (hpairs : ∀ pair q', s'.xidPairToPort.lookup pair = some q' → q' ≠ q →
      s.xidPairToPort.lookup pair = some q')
    (hfit : ∀ pair, s'.xidPairToPort.lookup pair = some q →
      d'.initialized = true ∧ d'.Owns pair ∧ ReadsBack s.localAddr pair.src) : Entries s' := by
  intro pair q' hpair
  rw [ht.localAddr]
  by_cases hq : q' = q
  · subst hq
    exact ⟨d', ht.self, hfit pair hpair⟩
  · rw [ht.other hq]
    exact h pair q' (hpairs pair q' hpair hq)

theorem touched_of_same (ht : Touched s s' q d') (hsame : s'.xidPairToPort = s.xidPairToPort)
    (hfit : ∀ pair d, s.xidPairToPort.lookup pair = some q → s.portToDagInfo.lookup q = some d →
      d.initialized = true → d.Owns pair → ReadsBack s.localAddr pair.src →
        d'.initialized = true ∧ d'.Owns pair) : Entries s' := by
  refine h.touched ht (fun pair q' hpair _ => hsame ▸ hpair) fun pair hpair => ?_
  rw [hsame] at hpair
  obtain ⟨d, hd, hinit, howns, hback⟩ := h pair q hpair
  obtain ⟨hinit', howns'⟩ := hfit pair d hpair hd hinit howns hback
  exact ⟨hinit', howns', hback⟩

theorem touched_of_lookup (hd : s.portToDagInfo.lookup q = some d)
    (ht : Touched s s' q d') (hsame : s'.xidPairToPort = s.xidPairToPort)
    (hfit : ∀ pair, s.xidPairToPort.lookup pair = some q → d.initialized = true → d.Owns pair →
      ReadsBack s.localAddr pair.src → d'.initialized = true ∧ d'.Owns pair) : Entries s' := by
  refine h.touched_of_same ht hsame fun pair d₀ hpair hd₀ => ?_
  rw [hd, Option.some.injEq] at hd₀
  subst hd₀
  exact hfit pair hpair

theorem touched_of_insert {pair₀ : XidPair} (ht : Touched s s' q d')
    (hinsert : s'.xidPairToPort = s.xidPairToPort.insert pair₀ q)
    (hinit : d'.initialized = true) (howns : d'.Owns pair₀)
    (hback : ReadsBack s.localAddr pair₀.src)
    (hfit : ∀ pair, s.xidPairToPort.lookup pair = some q →
      d'.Owns pair ∧ ReadsBack s.localAddr pair.src) : Entries s' := by
  refine h.touched ht (fun pair q' hpair hq => ?_) fun pair hpair => ?_
  · rw [hinsert, lookup_insert_eq] at hpair
    split at hpair
    · exact absurd (Option.some.inj hpair).symm hq
    · exact hpair
  · rw [hinsert, lookup_insert_eq] at hpair
    split at hpair
    · rename_i heq
      subst heq
      exact ⟨hinit, howns, hback⟩
    · exact ⟨hinit, hfit pair hpair⟩

theorem untouched (hun : Untouched s s')
    (hsame : s'.xidPairToPort = s.xidPairToPort) : Entries s' := by
  intro pair q hpair
  rw [hun.portToDagInfo, hun.localAddr]
  exact h pair q (hsame ▸ hpair)

theorem bind {sdag : Text} {x : Option Xid}
    (hd : s.portToDagInfo.lookup q = some d) (hbind : bindSocket d sdag = .ok (d', x))
    (ht : Touched s s' q d') (hsame : s'.xidPairToPort = s.xidPairToPort)
    (hcond : s.Fits q { d with srcPath := (d.srcPath.parse sdag).2 }) : Entries s' := by
  obtain ⟨hsrc, hdst, hstatus, hinit⟩ := bindSocket_names hbind
  refine h.touched_of_lookup hd ht hsame fun pair hpair hinit₀ _ _ => ?_
  have howns := hcond pair hpair
  exact ⟨hinit hinit₀, by rw [hsrc]; exact howns.src, by rw [hdst, hstatus]; exact howns.dst⟩

theorem xconnect {ddag : Text} (hs : s.xconnect env q ddag = .ok (s', out))
    (hcond : s.KeepsPairs ⟨env, .xconnect q ddag⟩) : Entries s' := by
  obtain ⟨d, src, path, dst, x, y, copy, p, rfl, hpaths, hx, hy, hpath, -, -, ht, hpairs, -⟩ :=
    xconnect_eq_ok hs
  obtain ⟨hfit, hback⟩ := hcond _ src dst rfl hpaths
  refine h.touched_of_insert ht hpairs rfl ⟨hpath.destXid hx (hback x hx), .inl hy⟩ (hback x hx)
    fun pair hpair => ?_
  have howns := hfit pair hpair
  have hback' := hback pair.src howns.src
  exact ⟨howns.relocated hback' hpath rfl rfl fun _ h => h, hback'⟩

theorem xaccept (hpend : ∀ d ∈ s.pendingConnectionBuf, d.initialized = true)
    (hs : s.xaccept q = .ok (s', out)) (hcond : s.KeepsPairs ⟨env, .xaccept q⟩) : Entries s' := by
  cases hbuf : s.pendingConnectionBuf with
  | nil =>
    obtain ⟨hun, hdemux, -⟩ := xaccept_nil hs hbuf
    exact h.untouched hun hdemux.xidPairToPort
  | cons d rest =>
    obtain ⟨x, y, dag, hx, hy, ht, hpairs, -⟩ := xaccept_cons hs hbuf
    obtain ⟨hfit, hback⟩ := hcond d rest hbuf
    refine h.touched_of_insert ht hpairs (hpend d (by rw [hbuf]; exact mem_cons_self))
      ⟨hx, .inl hy⟩ (hback x hx) fun pair hpair => ?_
    have howns := hfit pair hpair
    exact ⟨⟨howns.src, howns.dst⟩, hback pair.src howns.src⟩

theorem xsend {payload : List UInt8} (hs : s.xsend env q payload = .ok (s', out)) : Entries s' := by
  rcases xsend_eq_ok hs with ⟨rfl, -⟩ | ⟨d, d', p, hd, -, hsend, ht, hdemux, -⟩
  · exact h
  · obtain ⟨path, copy, hpath, rfl, -⟩ := DagInfo.xsend_eq_ok hsend
    exact h.touched_of_lookup hd ht hdemux.xidPairToPort fun pair _ hinit howns hback =>
      ⟨hinit, howns.relocated hback hpath rfl rfl fun _ h => h⟩

theorem xreadChunk {dag : Text} (hs : s.xreadChunk env q dag = .ok (s', out)) : Entries s' := by
  obtain ⟨d, path, t₁, t₂, hd, hpath, ht, hdemux, -⟩ := xreadChunk_eq_ok hs
  exact h.touched_of_lookup hd ht hdemux.xidPairToPort fun pair _ hinit howns hback =>
    ⟨hinit, howns.relocated hback hpath rfl rfl fun _ h => h⟩

theorem readdressed {addr : XiaPath} {hid : Xid}
    (hback : s.PairsReadBack addr) : Entries { s with localAddr := addr, localHid := hid } := by
  intro pair q hpair
  obtain ⟨d, hd, hinit, howns, -⟩ := h pair q hpair
  exact ⟨d, hd, hinit, howns, hback pair q hpair⟩

theorem cache {p : Packet} (hs : s.processCachePacket sha1 env p = .ok (s', out)) : Entries s' := by
  obtain ⟨x, y, -, -, ⟨rfl, -⟩ | ⟨d, path, t₁, t₂, status, -, hd, hpath, ht, hdemux, -⟩⟩ :=
    processCachePacket_eq_ok hs
  · exact h
  · exact h.touched_of_lookup hd ht hdemux.xidPairToPort fun pair _ hinit howns hback =>
      ⟨hinit, howns.relocated hback hpath rfl rfl fun _ => isSome_lookup_insert⟩

end Entries

/-! ### Datagrams and chunk requests -/

theorem exists_destXid_of_relocated {path path' : XiaPath}
    (h : DagInfo.Relocated localAddr path path') (hx : path'.destXid = .ok x) :
    ∃ y, path.destXid = .ok y := by
  rcases Relation.ReflTransGen.cases_head h with rfl | ⟨_, ⟨y, _, hy, _⟩, _⟩
  · exact ⟨x, hx⟩
  · exact ⟨y, hy⟩

/-- What is parsed again has no type word, so the path stays. -/
theorem reparseSrcPath_eq_self (h : reparseSrcPath localAddr d = .ok d')
    (hback : ∀ x, d.srcPath.destXid = .ok x → ReadsBack localAddr x) : d' = d := by
  obtain ⟨path, rfl, hpath | ⟨str, hstr, hpath⟩⟩ := reparseSrcPath_eq_ok h
  · rw [hpath]
  · simp only [DagInfo.localSource, Result.bind_eq_ok, Result.pure_eq_ok] at hstr
    obtain ⟨x, hx, t, ht, rfl⟩ := hstr
    rw [hpath, XiaPath.parse_of_parseRe (hback x hx t ht)]

/-- A name that reads back stays the name of the socket when its path is completed and parsed
again. -/
theorem destXid_of_named {d₁ d₂ d₃ : DagInfo} (h₂ : d₁.completeSrcPath localAddr = .ok d₂)
    (h₃ : reparseSrcPath localAddr d₂ = .ok d₃) (hx : d₁.srcPath.destXid = .ok x)
    (hback : ReadsBack localAddr x) : d₃.srcPath.destXid = .ok x := by
  obtain ⟨path, hpath, rfl⟩ := DagInfo.completeSrcPath_eq_ok h₂
  have hx₂ : path.destXid = .ok x := hpath.destXid hx hback
  rw [reparseSrcPath_eq_self h₃ fun y hy => by
    rw [hx₂, Except.ok.injEq] at hy
    exact hy ▸ hback]
  exact hx₂

theorem destXid_reparseSrcPath {d₁ d₂ d₃ : DagInfo} {sid : Xid}
    (h₂ : d₁.completeSrcPath localAddr = .ok d₂) (h₃ : reparseSrcPath localAddr d₂ = .ok d₃)
    (hsid : d₃.srcPath.destXid = .ok sid)
    (hback : ∀ x, d₁.srcPath.destXid = .ok x → ReadsBack localAddr x) :
    d₁.srcPath.destXid = .ok sid := by
  obtain ⟨path, hpath, rfl⟩ := DagInfo.completeSrcPath_eq_ok h₂
  -- the completed path has the name of the path before it
  have hname : ∀ x, path.destXid = .ok x → d₁.srcPath.destXid = .ok x := by
    intro x hx
    obtain ⟨y, hy⟩ := exists_destXid_of_relocated hpath hx
    have hyx := hpath.destXid hy (hback y hy)
    rw [hx, Except.ok.injEq] at hyx
    rw [hyx]
    exact hy
  have hself := reparseSrcPath_eq_self h₃ fun x hx => hback x (hname x hx)
  rw [hself] at hsid
  exact hname sid hsid

theorem Entries.xsendto {ddag : Text} {payload : List UInt8} (h : Entries s)
    (hs : s.xsendto env q ddag payload = .ok (s', out)) : Entries s' := by
  obtain ⟨d, d₁, d₂, d₃, s₁, p, hd, h₁, h₂, h₃, -, ht, hdemux, -⟩ := xsendto_eq_ok hs
  refine h.touched_of_same ht hdemux.xidPairToPort fun pair d₀ _ hd₀ hinit howns hback => ?_
  rw [hd₀, getD_some] at hd
  subst hd
  -- a socket with entries is initialized, so it keeps its name
  obtain ⟨-, -, hcase⟩ := bindEphemeral_eq_ok h₁
  obtain ⟨rfl, -⟩ := hcase.resolve_right fun hno => by simp [hinit] at hno
  have hsrc := destXid_of_named h₂ h₃ howns.src hback
  obtain ⟨_, -, rfl⟩ := DagInfo.completeSrcPath_eq_ok h₂
  obtain ⟨_, rfl, -⟩ := reparseSrcPath_eq_ok h₃
  exact ⟨hinit, hsrc, howns.dst⟩

theorem Entries.requestOne {payload : List UInt8} {dag : Text} (h : Entries s)
    (hback : ∀ x, s.RequestName env q x → ReadsBack s.localAddr x)
    (hs : s.requestOne env q payload dag = .ok (s', out)) :
    Entries s' ∧ ∀ x, s'.RequestName env q x → ReadsBack s'.localAddr x := by
  obtain ⟨d₃, path, sid, cid, copy, p, hreq, -⟩ := requestOne_eq_ok hs
  obtain ⟨s₁, d₁, d₂, h₁, h₂, h₃⟩ := hreq.named
  have ht := hreq.touched
  obtain ⟨-, -, hcase⟩ := bindEphemeral_eq_ok h₁
  have hname : ∀ x, d₁.srcPath.destXid = .ok x → s.RequestName env q x := by
    intro x hx
    rcases hcase with ⟨rfl, hinit⟩ | ⟨hinit, path₁, heph, rfl⟩
    · exact ⟨_, _, rfl, hx, .inl ⟨hinit, rfl⟩⟩
    · exact ⟨_, _, rfl, hx, .inr ⟨hinit, heph⟩⟩
  have hinit₁ : d₁.initialized = true := by
    rcases hcase with ⟨rfl, hinit⟩ | ⟨-, _, -, rfl⟩
    · exact hinit
    · rfl
  have hsid₁ := destXid_reparseSrcPath h₂ h₃ hreq.source fun x hx => hback x (hname x hx)
  have hbackSid := hback sid (hname sid hsid₁)
  have hsid' : path.destXid = .ok sid := hreq.relocated.destXid hreq.source hbackSid
  obtain ⟨path₂, -, rfl⟩ := DagInfo.completeSrcPath_eq_ok h₂
  obtain ⟨path₃, rfl, -⟩ := reparseSrcPath_eq_ok h₃
  constructor
  -- the entries that the port has already belong to the same name
  · refine h.touched_of_insert ht hreq.xidPairToPort hinit₁ ⟨hsid', .inr ?_⟩ hbackSid
      fun pair hpair => ?_
    · simp
    · obtain ⟨d₀, hd₀, hinit, howns, hbackPair⟩ := h pair q hpair
      rw [hd₀, getD_some] at hcase
      obtain ⟨rfl, -⟩ := hcase.resolve_right fun hno => by simp [hinit] at hno
      have hsrc : sid = pair.src := by
        rw [howns.src, Except.ok.injEq] at hsid₁
        exact hsid₁.symm
      refine ⟨⟨by rw [← hsrc]; exact hsid', ?_⟩, hbackPair⟩
      exact howns.dst.imp_right isSome_lookup_insert
  · rintro x ⟨d', path', hd', hx, hcase'⟩
    rw [ht.self, getD_some] at hd'
    subst hd'
    rw [ht.localAddr]
    obtain ⟨-, rfl⟩ := hcase'.resolve_right fun hno => by simp [hinit₁] at hno
    rw [hsid', Except.ok.injEq] at hx
    exact hx ▸ hbackSid

theorem Entries.xrequestChunk {payload : List UInt8} {dags : List Text} (h : Entries s)
    (hback : ∀ x, s.RequestName env q x → ReadsBack s.localAddr x)
    (hs : s.xrequestChunk env q payload dags = .ok (s', out)) : Entries s' := by
  rw [xrequestChunk_eq_run] at hs
  refine (Machine.run_invariant (I := fun s => Entries s ∧
    ∀ x, s.RequestName env q x → ReadsBack s.localAddr x) ?_ ⟨h, hback⟩ hs).1
  exact fun s dag s' out hI hone => hI.1.requestOne hI.2 hone

/-! ### Packets and ticks -/

variable {p : Packet} {pair : XidPair} {thdr : ExtHeader} {v : Verdict}

theorem Dispatched.names (h : Dispatched env s p pair thdr s' out v)
    (hd' : s'.portToDagInfo.lookup q = some d') :
    ∃ d, s.portToDagInfo.lookup q = some d ∧ d'.srcPath = d.srcPath ∧
      d'.xidToStatus = d.xidToStatus := by
  rcases h.touched with hsame | ⟨d, d₁, hd, ht, hsrc, htables⟩
  · exact ⟨d', hsame ▸ hd', rfl, rfl⟩
  · rw [ht.lookup] at hd'
    split at hd'
    · rename_i hq
      cases hd'
      exact ⟨d, hq ▸ hd, hsrc, htables.xidToStatus⟩
    · exact ⟨d', hd', rfl, rfl⟩

theorem Dispatched.xidPairToPort (h : Dispatched env s p pair thdr s' out v) :
    s'.xidPairToPort = s.xidPairToPort := by
  cases h <;> rfl

theorem Dispatched.dport_mem (h : Dispatched env s p pair thdr s' out v) :
    v.dport ∈ [s.pairPort pair, s.xidToPort.get 0 pair.src] := by
  cases h <;> simp [pairPort]

theorem Entries.dispatched (h : Entries s) (hs : Dispatched env s p pair thdr s' out v)
    (hcond : ∀ q ∈ s.repathed p pair thdr, ∀ d, s.portToDagInfo.lookup q = some d →
      s.Fits q { d with dstPath := p.srcPath }) : Entries s' := by
  have hrepath : IsStream thdr TransportHeader.data ∨ IsStream thdr TransportHeader.ack →
      s.IsActive (s.pairPort pair) → s.pairPort pair ∈ s.repathed p pair thdr := by
    intro hkind hactive
    rw [repathed, if_pos ⟨hkind, hactive⟩]
    simp
  cases hs with
  | syn => exact h.untouched ⟨rfl, rfl, rfl⟩ rfl
  | synack d _ hd =>
    exact h.touched_of_lookup hd (touched_setDagInfo _ _ ⟨rfl, rfl, rfl⟩) rfl
      fun pair' _ hinit howns _ => ⟨hinit, howns.src, howns.dst⟩
  | data d _ hkind hactive hd =>
    refine h.touched_of_lookup hd (touched_setDagInfo _ _ ⟨rfl, rfl, rfl⟩) rfl
      fun pair' hpair hinit _ _ => ?_
    have howns := hcond _ (hrepath (.inl hkind) hactive) d hd pair' hpair
    rw [DagInfo.receiveData]
    split
    · exact ⟨hinit, howns.src, howns.dst⟩
    · exact ⟨hinit, howns.src, howns.dst⟩
  | ack d d₁ _ _ hkind hactive hd hack =>
    obtain ⟨ring, -, -, rfl⟩ := DagInfo.receiveAck_eq_ok hack
    refine h.touched_of_lookup hd (touched_setDagInfo _ _ ⟨rfl, rfl, rfl⟩) rfl
      fun pair' hpair hinit _ _ => ?_
    have howns := hcond _ (hrepath (.inr hkind) hactive) d hd pair' hpair
    exact ⟨hinit, howns.src, howns.dst⟩
  | inactive => exact h
  | other => exact h

/-- The end of `ProcessNetworkPacket` renews the path of a socket without entries, or moves a
connected one. -/
theorem Entries.delivered (h : Entries s) (hs : Delivered env s p thdr v s' out)
    (hmove : p.nxt = 22 → ∀ d, s.portToDagInfo.lookup v.dport = some d →
      s.Fits v.dport { d with dstPath := p.srcPath }) : Entries s' := by
  cases hs with
  | dropped => exact h
  | moved d' _ _ hd' hnxt =>
    subst hd'
    refine h.touched_of_same (touched_setDagInfo _ _ ⟨rfl, rfl, rfl⟩) rfl
      fun pair d₀ hpair hd₀ _ _ _ => ?_
    have howns := hmove hnxt d₀ hd₀ pair hpair
    rw [get_of_lookup hd₀]
    exact ⟨rfl, howns.src, howns.dst⟩
  | first d' dag _ _ hfirst _ =>
    -- the sockets of the entries are initialized
    refine h.touched_of_same (touched_setDagInfo _ _ ⟨rfl, rfl, rfl⟩) rfl
      fun pair d₀ hpair hd₀ hinit _ _ => ?_
    rw [get_of_lookup hd₀, hinit] at hfirst
    cases hfirst
  | handed => exact h

theorem Entries.network (h : Entries s) (hs : s.processNetworkPacket env p = .ok (s', out))
    (hcond : s.KeepsPairs ⟨env, .network p⟩) : Entries s' := by
  obtain ⟨x, y, thdr, hx, hy, hthdr, ⟨-, rfl, -⟩ | ⟨hnxt, s₁, o₁, v, o₂, h₁, h₂, -⟩⟩ :=
    processNetworkPacket_eq_ok hs
  · exact h
  have hkeep := hcond _ thdr (packetKey_eq_some hx hy hthdr) hnxt
  refine (h.dispatched h₁ hkeep).delivered h₂ fun hmoved d₁ hd₁ pair hpair => ?_
  obtain ⟨d, hd, hsrc, hstatus⟩ := h₁.names hd₁
  rw [h₁.xidPairToPort] at hpair
  have hmem : v.dport ∈ s.repathed p ⟨x, y⟩ thdr := by
    rw [repathed, if_pos hmoved]
    exact mem_append_right _ h₁.dport_mem
  have howns := hkeep _ hmem d hd pair hpair
  exact ⟨by rw [← howns.src, ← hsrc], howns.dst.imp_right fun hr => by rw [hstatus]; exact hr⟩

theorem visited_names (h : DagInfo.Visited env localAddr d (some d') out) :
    DagInfo.Relocated localAddr d.srcPath d'.srcPath ∧ d'.dstPath = d.dstPath ∧
      d'.xidToStatus = d.xidToStatus ∧ d'.initialized = d.initialized := by
  cases h with
  | kept h hcid =>
    obtain ⟨path, t₁, t₂, hpath, rfl⟩ := DagInfo.cidTimeouts_eq_ok hcid
    cases h with
    | idle => exact ⟨hpath, rfl, rfl, rfl⟩
    | synResend path₁ _ _ _ _ _ _ _ _ hpath₁ => exact ⟨hpath₁.trans hpath, rfl, rfl, rfl⟩
    | synGiveUp => exact ⟨hpath, rfl, rfl, rfl⟩
    | dataResend path₁ _ _ _ _ _ _ _ _ hpath₁ => exact ⟨hpath₁.trans hpath, rfl, rfl, rfl⟩
    | dataStop path₁ _ _ _ _ _ hpath₁ => exact ⟨hpath₁.trans hpath, rfl, rfl, rfl⟩

theorem Entries.timer (h : Entries s) (hs : s.runTimer env = .ok (s', out))
    (hcond : s.KeepsPairs ⟨env, .timer⟩) : Entries s' := by
  have hticked := runTimer_visits hs
  intro pair q hpair
  rw [hticked.xidPairToPort] at hpair
  obtain ⟨d, hd, hinit, howns, hback⟩ := h pair q hpair
  obtain ⟨o, hv, -⟩ := runTimer_some hs hd
  cases hd' : s'.portToDagInfo.lookup q with
  -- the condition excludes that a socket with an entry is removed
  | none => exact absurd hpair (hcond q ((removed_iff hs hd).1 hd') pair)
  | some d' =>
    rw [hd'] at hv
    obtain ⟨hpath, hdst, hstatus, hinit'⟩ := visited_names hv
    rw [hticked.localAddr]
    exact ⟨d', rfl, by rw [hinit', hinit],
      howns.relocated hback hpath rfl hdst fun x hx => by rw [hstatus]; exact hx, hback⟩

/-- **One step**: an event with the condition keeps the entries in order. -/
theorem entries_step {e : Event} (h : Entries s)
    (hpend : ∀ d ∈ s.pendingConnectionBuf, d.initialized = true)
    (hcond : s.KeepsPairs ⟨env, e⟩) (hs : s.handle sha1 env e = .ok (s', out)) : Entries s' := by
  cases e with
  | xsocket q t =>
    obtain ⟨ht, hpairs, -⟩ := xsocket_eq_ok hs
    exact h.touched_of_same ht hpairs fun pair _ hpair => absurd hpair (hcond pair)
  | xsetsockopt q t i =>
    obtain ⟨hun, hdemux, -⟩ := xsetsockopt_eq_ok hs
    exact h.untouched hun hdemux.xidPairToPort
  | xbind q sdag =>
    obtain ⟨d, d', x, hd, hbind, ht, hdemux, -⟩ := xbind_eq_ok hs
    exact h.bind hd hbind ht hdemux.xidPairToPort (hcond d hd)
  | xbindPush q sdag =>
    obtain ⟨d, d', x, hd, hbind, ht, hdemux, -⟩ := xbindPush_eq_ok hs
    exact h.bind hd hbind ht hdemux.xidPairToPort (hcond d hd)
  | xclose q =>
    obtain ⟨d, hd, ht, hdemux, -⟩ := xclose_eq_ok hs
    exact h.touched_of_lookup hd ht hdemux.xidPairToPort fun pair _ hinit howns _ =>
      ⟨hinit, howns.src, howns.dst⟩
  | xconnect q ddag => exact h.xconnect hs hcond
  | xaccept q => exact h.xaccept hpend hs hcond
  | xsend q payload => exact h.xsend hs
  | xsendto q ddag payload => exact h.xsendto hs
  | xrequestChunk q payload dags => exact h.xrequestChunk hcond hs
  | xreadChunk q dag => exact h.xreadChunk hs
  | xgetChunkStatus q dags =>
    obtain ⟨rfl, -⟩ := xgetChunkStatus_eq_ok hs
    exact h
  | xpushChunkto q cid ddag payload params => exact hcond.elim
  | xchangead ad ip4id =>
    obtain ⟨rfl, -⟩ := xchangead_eq_ok hs
    exact h.readdressed hcond
  | xhcp p =>
    obtain ⟨-, rfl | ⟨text, htext, rfl⟩⟩ := processXhcpPacket_eq_ok hs
    · exact h
    · exact h.readdressed (hcond text htext)
  | writeParam conf =>
    obtain ⟨-, rfl | ⟨addr, hid, haddr, rfl⟩⟩ := writeParam_eq_ok hs
    · exact h
    · exact h.readdressed (hcond addr haddr)
  | network p => exact h.network hs hcond
  | cache p => exact h.cache hs
  | timer => exact h.timer hs hcond

/-! ### Delivery -/

theorem Coherent.of_pairPort (h : Coherent s) {pair : XidPair} (hport : s.pairPort pair ≠ 0) :
    ∃ d, s.portToDagInfo.lookup (s.pairPort pair) = some d ∧ d.Owns pair := by
  cases hpair : s.xidPairToPort.lookup pair with
  | none => exact absurd (by simp [pairPort, HashTable.get, hpair]) hport
  | some q =>
    rw [pairPort, get_of_lookup hpair]
    exact h pair q hpair

theorem Dispatched.dport_eq_pairPort (h : Dispatched env s p pair thdr s' out v)
    (hstream : IsStream thdr TransportHeader.synack ∨ IsStream thdr TransportHeader.data ∨
      IsStream thdr TransportHeader.ack) :
    v.dport = s.pairPort pair ∧ ∀ q msg, Output.api q msg ∉ out := by
  cases h with
  | syn _ hkind =>
    rcases hstream with h | h | h
    · exact absurd (hkind.unique h) (by decide)
    · exact absurd (hkind.unique h) (by decide)
    · exact absurd (hkind.unique h) (by decide)
  | synack => exact ⟨rfl, by simp⟩
  | data => exact ⟨rfl, by simp⟩
  | ack => exact ⟨rfl, by simp⟩
  | inactive => exact ⟨rfl, by simp⟩
  | other send hsyn hsynack hdata hack =>
    rcases hstream with h | h | h
    · exact absurd h hsynack
    · exact absurd h hdata
    · exact absurd h hack

theorem Delivered.api_eq {msg : ApiMsg} (h : Delivered env s p thdr v s' out)
    (hmem : Output.api q msg ∈ out) : q = v.dport ∧ v.dport ≠ 0 := by
  cases h with
  | dropped => cases hmem
  | moved => cases hmem
  | first _ _ hport => exact ⟨(Output.api.inj (mem_singleton.1 hmem)).1, hport⟩
  | handed _ hport => exact ⟨(Output.api.inj (mem_singleton.1 hmem)).1, hport⟩

theorem Coherent.deliversToOwner (h : Coherent s) : DeliversToOwner sha1 s := by
  intro env e s' out pair hs hpair q msg hmsg
  cases e with
  | network p =>
    obtain ⟨x, y, thdr, hx, hy, hthdr, hcase⟩ := processNetworkPacket_eq_ok hs
    simp only [demuxPair, packetKey_eq_some hx hy hthdr, ite_none_right_eq_some,
      Option.some.injEq] at hpair
    obtain ⟨⟨hnxt, hstream⟩, rfl⟩ := hpair
    obtain ⟨-, s₁, o₁, v, o₂, h₁, h₂, rfl⟩ := hcase.resolve_left fun hno => hnxt hno.1
    -- the branch sends nothing up itself, and what follows goes to the port of the pair
    obtain ⟨hport, hnone⟩ := h₁.dport_eq_pairPort hstream
    have hmem := (mem_append.1 hmsg).resolve_left (hnone q msg)
    obtain ⟨rfl, hne⟩ := h₂.api_eq hmem
    rw [hport] at hne ⊢
    exact h.of_pairPort hne
  | cache p =>
    obtain ⟨x, y, hx, hy, hcase⟩ := processCachePacket_eq_ok hs
    rcases hcase with ⟨-, rfl | ⟨ch, m, hch, hpush, -⟩⟩ |
      ⟨d, path, t₁, t₂, status, hport, hd, -, -, -, hout⟩
    · cases hmsg
    · simp [demuxPair, hx, hy, hch, hpush] at hpair
    · have hpair' : pair = ⟨x, y⟩ := by
        cases hch : p.extHeader with
        | error f => simp [demuxPair, hx, hy, hch] at hpair
        | ok ch =>
          simp only [demuxPair, hx, hy, hch, ite_none_left_eq_some, Option.some.injEq] at hpair
          exact hpair.2.symm
      rcases hout with rfl | ⟨dag, payload, rfl⟩
      · cases hmsg
      · obtain ⟨rfl, -⟩ := Output.api.inj (mem_singleton.1 hmsg)
        rw [hpair']
        exact h.of_pairPort hport
  | _ => cases hpair

/-! ### Runs -/

/-- The tables demultiplex correctly. -/
structure Demultiplexes (sha1 : Sha1) (s : XTransport) : Prop where
  coherent : Coherent s
  delivers : DeliversToOwner sha1 s

/-- **Coherent tables**: in a run whose events meet the condition, every entry belongs to a live
socket with its names, and packets reach the sockets that own their pairs, in every state. -/
theorem demultiplexes_of_keepsPairs (localAddr : XiaPath) (junk : DagInfo) (is : List Input)
    (h : Machine.AllSteps (step sha1) KeepsPairs (init localAddr junk) is) :
    Machine.AllStates (step sha1) (Demultiplexes sha1) (init localAddr junk) is := by
  have hall := Machine.allStates_of_allSteps
    (I := fun s => (∀ d ∈ s.pendingConnectionBuf, d.initialized = true) ∧ Entries s)
    (fun s i s' out hI hcond hs =>
      ⟨forall_pending_step (fun _ _ => rfl) hI.1 hs, entries_step hI.2 hI.1 hcond hs⟩)
    ⟨by simp [init], fun pair q hpair => by cases hpair⟩ h
  exact hall.mono fun s hI => ⟨hI.2.coherent, hI.2.coherent.deliversToOwner⟩

/-- The name that a socket of `host` takes when it connects without being bound. -/
theorem readsBack_ephemeral {src : XiaPath} (hsrc : DagInfo.Ephemeral (.zero 0) host.localAddr src)
    (hx : src.destXid = .ok x) : ReadsBack host.localAddr x := by
  obtain ⟨_, ht₀, _, hx₀, hback⟩ : ∃ t, host.localAddr.unparseRe = .ok t ∧
      ∃ x, (XiaPath.parseRe (t ++ [' '] ++ randomXid 0)).2.destXid = .ok x ∧
        (XiaPath.parseRe (t ++ [' '] ++ x.unparse)).2.destXid = .ok x := by decide +kernel
  obtain ⟨t, ht, rfl⟩ := hsrc
  obtain rfl := Except.ok.inj (ht₀.symm.trans ht)
  obtain rfl := Except.ok.inj (hx₀.symm.trans hx)
  intro t' ht'
  obtain rfl := Except.ok.inj (ht.symm.trans ht')
  exact hback

/-- A socket that connects and sends. -/
theorem demultiplexes_connect_send :
    Machine.AllStates (step Sha1.zero) (Demultiplexes Sha1.zero) host
      [⟨.zero 0, .xsocket 1 1⟩, connectCall, ⟨.zero 0, .xsend 1 [1]⟩] := by
  apply demultiplexes_of_keepsPairs
  intro s₁ o₁ h₁
  refine ⟨fun pair hpair => ?_, ?_⟩
  · cases hpair
  obtain ⟨ht, hpairs, -⟩ := xsocket_eq_ok h₁
  refine fun s₂ o₂ _ => ⟨?_, fun s₃ o₃ _ => ⟨trivial, trivial⟩⟩
  rintro d src dst rfl hpaths
  have hsrc : DagInfo.Ephemeral (.zero 0) s₁.localAddr src := hpaths.unbound (by rw [ht.self]; rfl)
  rw [ht.localAddr] at hsrc ⊢
  refine ⟨fun pair hpair => ?_, fun x hx => readsBack_ephemeral hsrc hx⟩
  rw [hpairs] at hpair
  cases hpair

/-- A connected socket that was closed and torn down: its entry stays, without a socket. -/
theorem not_coherent_after_teardown : ∃ s out, Machine.run (step Sha1.zero) host
        [⟨.zero 0, .xsocket 1 1⟩, connectCall, ⟨.zero 0, .xclose 1⟩,
          ⟨.zero teardownDelay, .timer⟩, ⟨.zero (teardownDelay + 1), .timer⟩] = .ok (s, out) ∧
      s.portToDagInfo.lookup 1 = none ∧ ¬ Coherent s := by
  obtain ⟨s, out, hr, hnone, e, -, hpair⟩ : ∃ s out, Machine.run (step Sha1.zero) host
      [⟨.zero 0, .xsocket 1 1⟩, connectCall, ⟨.zero 0, .xclose 1⟩,
        ⟨.zero teardownDelay, .timer⟩, ⟨.zero (teardownDelay + 1), .timer⟩] = .ok (s, out) ∧
      s.portToDagInfo.lookup 1 = none ∧ ∃ e, s.xidPairToPort.entries.head? = some e ∧
        s.xidPairToPort.lookup e.1 = some 1 := by decide +kernel
  refine ⟨s, out, hr, hnone, fun hcoherent => ?_⟩
  obtain ⟨d, hd, -⟩ := hcoherent e.1 1 hpair
  rw [hnone] at hd
  cases hd

end XTransport

end Xia
