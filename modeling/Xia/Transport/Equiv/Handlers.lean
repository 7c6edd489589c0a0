import Xia.Transport.Equiv.Timer

/-!
# What the handlers change

One inversion lemma for each handler: if it succeeds, this is what it did to the socket of its
port and to the tables.  The results about runs use these lemmas and do not unfold a handler.
-/

namespace Xia

open Result
open TransportHeader (ackNum data encap seqNum syn synack type xsockStream)
open ContentHeader (cachePolicy cacheSize contextId encapChunk length makeRequestHeader opPush
  opcode ttlDefault)

/-- The calls that name their socket and change nothing else of it. -/
def Event.names : Event → Bool
  | .xbind _ _ | .xbindPush _ _ | .xsendto _ _ _ | .xpushChunkto _ _ _ _ _ => true
  | _ => false

def Event.sparesSockets : Event → Bool
  | .xsetsockopt _ _ _ | .xgetChunkStatus _ _ => true
  | e => e.readdresses

/-- The sockets differ in what naming sets. -/
def DagInfo.Renamed (d d' : DagInfo) : Prop :=
  ∃ path c i t b, d' = { d with
    srcPath := path, isConnected := c, initialized := i, sdag := t, fullSrcDag := b }

namespace XTransport

variable {env : Env} {s s' : XTransport} {sport : UInt16} {out : List Output}
variable {d' d : DagInfo} {sdag ddag : Text} {localAddr : XiaPath} {sha1 : Sha1}

/-- The socket of `sport` becomes `d'` and no other socket changes. -/
structure Touched (s s' : XTransport) (sport : UInt16) (d' : DagInfo) : Prop where
  localAddr : s'.localAddr = s.localAddr
  noDagInfo : s'.noDagInfo = s.noDagInfo
  lookup : ∀ q, s'.portToDagInfo.lookup q =
    if q = sport then some d' else s.portToDagInfo.lookup q

structure Untouched (s s' : XTransport) : Prop where
  localAddr : s'.localAddr = s.localAddr
  noDagInfo : s'.noDagInfo = s.noDagInfo
  portToDagInfo : s'.portToDagInfo = s.portToDagInfo

/-- The tables that demultiplex streams and chunks, and the pending connections, stay. -/
structure SameDemux (s s' : XTransport) : Prop where
  xidPairToPort : s'.xidPairToPort = s.xidPairToPort
  portToActive : s'.portToActive = s.portToActive
  pendingConnectionBuf : s'.pendingConnectionBuf = s.pendingConnectionBuf

/-- The timer stays too. -/
structure SameTimer (s s' : XTransport) : Prop extends SameDemux s s' where
  timer : s'.timer = s.timer

theorem touched_setDagInfo {s₁ : XTransport} (sport : UInt16) (d : DagInfo)
    (h : Untouched s s₁) : Touched s (s₁.setDagInfo sport d) sport d :=
  ⟨h.localAddr, h.noDagInfo, fun q => by rw [lookup_setDagInfo, h.portToDagInfo]⟩

theorem setDagInfo_setDagInfo (s : XTransport) (port : UInt16) (d d' : DagInfo) :
    (s.setDagInfo port d).setDagInfo port d' = s.setDagInfo port d' := by
  simp [setDagInfo, AList.insert_insert]

theorem Touched.self (h : Touched s s' sport d') : s'.portToDagInfo.lookup sport = some d' := by
  rw [h.lookup, if_pos rfl]

theorem Touched.other (h : Touched s s' sport d') {q : UInt16} (hq : q ≠ sport) :
    s'.portToDagInfo.lookup q = s.portToDagInfo.lookup q := by
  rw [h.lookup, if_neg hq]

/-! ### Calls of the socket API -/

theorem xsocket_eq_ok {sockType : Int} (h : s.xsocket env sport sockType = .ok (s', out)) :
    Touched s s' sport (DagInfo.xsocket env.junk sockType) ∧
      s'.xidPairToPort = s.xidPairToPort ∧ s'.portToActive = s.portToActive.insert sport true ∧
      s'.pendingConnectionBuf = s.pendingConnectionBuf ∧
      out = [.api sport (.result .xsocket 0 0)] := by
  cases h
  exact ⟨⟨rfl, rfl, fun q => HashTable.lookup_insert_eq _ _ _ _⟩, rfl, rfl, rfl, rfl⟩

theorem xsetsockopt_eq_ok {optType intOpt : Int}
    (h : s.xsetsockopt sport optType intOpt = .ok (s', out)) :
    Untouched s s' ∧ SameTimer s s' ∧ out = [.api sport (.result .xsetsockopt 0 0)] := by
  rw [xsetsockopt] at h
  cases h
  split_ifs <;> exact ⟨⟨rfl, rfl, rfl⟩, ⟨⟨rfl, rfl, rfl⟩, rfl⟩, rfl⟩

theorem bindSocket_eq_ok {x : Option Xid} (h : bindSocket d sdag = .ok (d', x)) : d.Renamed d' := by
  simp only [bindSocket] at h
  split at h
  · simp only [bind_eq_ok] at h
    obtain ⟨_, -, _, -, _, -, _, -, h⟩ := h
    cases h
    exact ⟨_, _, _, _, _, rfl⟩
  · cases h
    exact ⟨_, _, _, _, _, rfl⟩

theorem xbind_eq_ok (h : s.xbind sport sdag = .ok (s', out)) :
    ∃ d d' x, s.portToDagInfo.lookup sport = some d ∧ bindSocket d sdag = .ok (d', x) ∧
      Touched s s' sport d' ∧ SameTimer s s' ∧
      ∃ rc ec, out = [.api sport (.result .xbind rc ec)] := by
  simp only [xbind, bind_eq_ok] at h
  obtain ⟨d, hd, ⟨d', x⟩, hbind, h⟩ := h
  refine ⟨d, d', x, deref_eq_ok.1 hd, hbind, ?_⟩
  cases x with
  | some x =>
    cases h
    exact ⟨touched_setDagInfo _ _ ⟨rfl, rfl, rfl⟩, ⟨⟨rfl, rfl, rfl⟩, rfl⟩, _, _, rfl⟩
  | none =>
    cases h
    exact ⟨touched_setDagInfo _ _ ⟨rfl, rfl, rfl⟩, ⟨⟨rfl, rfl, rfl⟩, rfl⟩, _, _, rfl⟩

theorem xbindPush_eq_ok (h : s.xbindPush sport sdag = .ok (s', out)) :
    ∃ d d' x, s.portToDagInfo.lookup sport = some d ∧ bindSocket d sdag = .ok (d', x) ∧
      Touched s s' sport d' ∧ SameTimer s s' ∧
      ∃ rc ec, out = [.api sport (.result .xbindpush rc ec)] := by
  simp only [xbindPush, bind_eq_ok] at h
  obtain ⟨d, hd, ⟨d', x⟩, hbind, h⟩ := h
  refine ⟨d, d', x, deref_eq_ok.1 hd, hbind, ?_⟩
  cases x with
  | some x =>
    cases h
    exact ⟨touched_setDagInfo _ _ ⟨rfl, rfl, rfl⟩, ⟨⟨rfl, rfl, rfl⟩, rfl⟩, _, _, rfl⟩
  | none =>
    cases h
    exact ⟨touched_setDagInfo _ _ ⟨rfl, rfl, rfl⟩, ⟨⟨rfl, rfl, rfl⟩, rfl⟩, _, _, rfl⟩

theorem xclose_eq_ok (h : s.xclose env sport = .ok (s', out)) :
    ∃ d, s.portToDagInfo.lookup sport = some d ∧ Touched s s' sport { d with
        timerOn := true, teardownWaiting := true, teardownExpiry := env.now + teardownDelay } ∧
      SameDemux s s' ∧ s'.xidToPort = s.xidToPort ∧ s'.routes = s.routes ∧
      out = [.api sport (.result .xclose 0 0)] := by
  simp only [xclose, bind_eq_ok] at h
  obtain ⟨d, hd, h⟩ := h
  cases h
  exact ⟨d, deref_eq_ok.1 hd, touched_setDagInfo _ _ ⟨rfl, rfl, rfl⟩, ⟨rfl, rfl, rfl⟩, rfl, rfl,
    rfl⟩

/-- The SYN packet of `Xconnect`: what it carries, and the socket afterwards. -/
theorem sendSyn_eq_ok {hlim : UInt8} {p : Packet} (h : d.sendSyn env localAddr hlim = .ok (d', p)) :
    ∃ path copy, DagInfo.Relocated localAddr d.srcPath path ∧ p.HasHeader xsockStream syn 0 (-1) 0 ∧
      copy.HasHeader xsockStream syn 0 (-1) 0 ∧
      d' = { d with
        srcPath := path, timerOn := true, synackWaiting := true, expiry := env.now + ackDelay
        synPkt := some copy } := by
  simp only [DagInfo.sendSyn, bind_eq_ok] at h
  obtain ⟨p', hp, ⟨d₁, copy⟩, hcopy, h⟩ := h
  obtain ⟨path, thdr, _, _, _, _, _, hpath, rfl, -⟩ := DagInfo.copyPacket_eq_ok hcopy
  obtain ⟨rfl, rfl⟩ := pure_pair_eq_ok.1 h
  obtain ⟨dnode, snode, -, -, hfields⟩ := Packet.encap_eq_ok hp
  have hhdr : p'.HasHeader xsockStream syn 0 (-1) 0 :=
    ⟨by rw [hfields], cBytes "Connection_request", by rw [hfields]; rfl⟩
  exact ⟨path, copy, hpath, hhdr, DagInfo.copyPacket_hasHeader hcopy hhdr, rfl⟩

/-- `Xconnect`: the pair of the two last XIDs is filed for the port and a SYN leaves. -/
theorem xconnect_eq_ok (h : s.xconnect env sport ddag = .ok (s', out)) :
    ∃ d path path' dst x y copy p, d = (s.portToDagInfo.lookup sport).getD (DagInfo.new env.junk) ∧
      d.ConnectPaths env s.localAddr (cStr ddag) path dst ∧
      path.destXid = .ok x ∧ dst.destXid = .ok y ∧
      DagInfo.Relocated s.localAddr path path' ∧
      p.HasHeader xsockStream syn 0 (-1) 0 ∧
      copy.HasHeader xsockStream syn 0 (-1) 0 ∧
      Touched s s' sport { d with
        dstPath := dst, srcPath := path', isConnected := true, initialized := true
        seqNum := 0, ackNum := 0, base := 0, nextSeqnum := 0, expectedSeqnum := 0
        numConnectTries := d.numConnectTries + 1
        timerOn := true, synackWaiting := true, expiry := env.now + ackDelay
        synPkt := some copy } ∧
      s'.xidPairToPort = s.xidPairToPort.insert ⟨x, y⟩ sport ∧
      s'.portToActive = s.portToActive ∧
      s'.pendingConnectionBuf = s.pendingConnectionBuf ∧ out = [.network p] := by
  simp only [xconnect, bind_eq_ok] at h
  obtain ⟨d₁, hd₁, x, hx, y, hy, ⟨d₂, p⟩, hsyn, h⟩ := h
  cases h
  simp only [DagInfo.xconnect, bind_eq_ok, pure_eq_ok] at hd₁
  obtain ⟨str, hstr, rfl⟩ := hd₁
  obtain ⟨path', copy, hpath, hp, hcopy, rfl⟩ := sendSyn_eq_ok hsyn
  exact ⟨_, _, path', _, x, y, copy, p, rfl,
    ⟨rfl, fun hne => if_neg hne, fun hnil => ⟨str, hstr, if_pos hnil⟩⟩, hx, hy, hpath, hp, hcopy,
    touched_setDagInfo _ _ ⟨rfl, rfl, rfl⟩, rfl, rfl, rfl, rfl⟩

/-- `Xaccept` with nothing pending reports an error. -/
theorem xaccept_nil (h : s.xaccept sport = .ok (s', out)) (hnil : s.pendingConnectionBuf = []) :
    Untouched s s' ∧ SameTimer s s' ∧ out = [.api sport (.result .xaccept (-1) econnaborted)] ∧
      s'.xidToPort = s.xidToPort := by
  simp only [xaccept, hnil] at h
  cases h
  exact ⟨⟨rfl, rfl, rfl⟩, ⟨⟨rfl, rfl, hnil.symm⟩, rfl⟩, rfl, rfl⟩

/-- `Xaccept` takes the oldest pending connection. -/
theorem xaccept_cons {pending : DagInfo} {rest : List DagInfo}
    (h : s.xaccept sport = .ok (s', out)) (hcons : s.pendingConnectionBuf = pending :: rest) :
    ∃ x y dag, pending.srcPath.destXid = .ok x ∧ pending.dstPath.destXid = .ok y ∧
      Touched s s' sport pending.xaccept ∧
      s'.xidPairToPort = s.xidPairToPort.insert ⟨x, y⟩ sport ∧
      s'.portToActive = s.portToActive.insert sport true ∧
      s'.pendingConnectionBuf = rest ∧ out = [.api sport (.accept dag)] ∧ s'.timer = s.timer ∧
      s'.xidToPort = s.xidToPort := by
  simp only [xaccept, hcons, bind_eq_ok] at h
  obtain ⟨x, hx, y, hy, dag, -, h⟩ := h
  cases h
  exact ⟨x, y, dag, hx, hy, touched_setDagInfo _ _ ⟨rfl, rfl, rfl⟩, rfl, rfl, rfl, rfl, rfl, rfl⟩

/-- `Xsend` on a port without a connected socket does nothing. -/
theorem xsend_eq_ok {payload : List UInt8} (h : s.xsend env sport payload = .ok (s', out)) :
    (s' = s ∧ out = [] ∧ ∀ d, s.portToDagInfo.lookup sport = some d → d.isConnected = false) ∨
    ∃ d d' p, s.portToDagInfo.lookup sport = some d ∧ d.isConnected = true ∧
      d.xsend env s.localAddr (s.hlimOf sport) payload = .ok (d', p) ∧
      Touched s s' sport d' ∧ SameDemux s s' ∧ out = [.network p] ∧
      s'.xidToPort = s.xidToPort := by
  rw [xsend] at h
  split at h
  · rename_i hnone
    cases h
    exact .inl ⟨rfl, rfl, fun d hd => by rw [hnone] at hd; cases hd⟩
  · rename_i d hd
    split at h
    · rename_i hconn
      simp only [bind_eq_ok] at h
      obtain ⟨⟨d', p⟩, hsend, h⟩ := h
      cases h
      exact .inr ⟨d, d', p, hd, hconn, hsend, touched_setDagInfo _ _ ⟨rfl, rfl, rfl⟩,
        ⟨rfl, rfl, rfl⟩, rfl, rfl⟩
    · rename_i hconn
      cases h
      refine .inl ⟨rfl, rfl, fun d' hd' => ?_⟩
      rw [hd] at hd'
      cases hd'
      simpa using hconn

/-! ### Datagrams and chunks -/

theorem bindEphemeral_eq_ok (h : s.bindEphemeral env sport d = .ok (s', d')) :
    Untouched s s' ∧ SameTimer s s' ∧ ((d' = d ∧ d.initialized = true) ∨ (d.initialized = false ∧
        ∃ path, DagInfo.Ephemeral env s.localAddr path ∧
          d' = { d with srcPath := path, initialized := true, fullSrcDag := true })) := by
  simp only [bindEphemeral] at h
  split at h
  · rename_i hinit
    cases h
    exact ⟨⟨rfl, rfl, rfl⟩, ⟨⟨rfl, rfl, rfl⟩, rfl⟩, .inl ⟨rfl, hinit⟩⟩
  · rename_i hinit
    simp only [bind_eq_ok] at h
    obtain ⟨str, hstr, x, -, h⟩ := h
    cases h
    exact ⟨⟨rfl, rfl, rfl⟩, ⟨⟨rfl, rfl, rfl⟩, rfl⟩,
      .inr ⟨by simpa using hinit, _, ⟨str, hstr, rfl⟩, rfl⟩⟩

theorem reparseSrcPath_eq_ok (h : reparseSrcPath localAddr d = .ok d') :
    ∃ path, d' = { d with srcPath := path } ∧ (path = d.srcPath ∨
      ∃ str, d.localSource localAddr = .ok str ∧ path = (d.srcPath.parse str).2) := by
  simp only [reparseSrcPath, bind_eq_ok] at h
  obtain ⟨re, -, h⟩ := h
  split at h
  · exact ⟨d.srcPath, (pure_eq_ok.1 h).symm, .inl rfl⟩
  · simp only [bind_eq_ok] at h
    obtain ⟨str, hstr, h⟩ := h
    exact ⟨_, (pure_eq_ok.1 h).symm, .inr ⟨str, hstr, rfl⟩⟩

/-- A socket that is about to send has a name and a full path; nothing else of it changes. -/
theorem exists_srcPath_of_named {d₁ d₂ d₃ : DagInfo} (h₁ : (d₁ = d ∧ d.initialized = true) ∨
      ∃ path, d₁ = { d with srcPath := path, initialized := true, fullSrcDag := true })
    (h₂ : d₁.completeSrcPath localAddr = .ok d₂) (h₃ : reparseSrcPath localAddr d₂ = .ok d₃) :
    ∃ path, d₃ = { d with srcPath := path, initialized := true, fullSrcDag := true } := by
  obtain ⟨path, rfl, -⟩ := reparseSrcPath_eq_ok h₃
  obtain ⟨_, -, rfl⟩ := DagInfo.completeSrcPath_eq_ok h₂
  obtain ⟨rfl, hinit⟩ | ⟨_, rfl⟩ := h₁
  · exact ⟨path, by rw [← hinit]⟩
  · exact ⟨path, rfl⟩

theorem bindEphemeral_named {s₁ : XTransport} {d₁ d₂ d₃ : DagInfo}
    (h₁ : s.bindEphemeral env sport d = .ok (s₁, d₁)) (h₂ : d₁.completeSrcPath localAddr = .ok d₂)
    (h₃ : reparseSrcPath localAddr d₂ = .ok d₃) :
    ∃ path, d₃ = { d with srcPath := path, initialized := true, fullSrcDag := true } := by
  obtain ⟨-, -, hcase⟩ := bindEphemeral_eq_ok h₁
  exact exists_srcPath_of_named (hcase.imp_right fun ⟨_, path, _, hd⟩ => ⟨path, hd⟩) h₂ h₃

/-- `Xsendto`: the socket gets a name if it has none, and a packet with its path leaves. -/
theorem xsendto_eq_ok {payload : List UInt8} (h : s.xsendto env sport ddag payload = .ok (s', out))
    :
    ∃ d d₁ d₂ d₃ s₁ p, d = (s.portToDagInfo.lookup sport).getD (DagInfo.new env.junk) ∧
      s.bindEphemeral env sport d = .ok (s₁, d₁) ∧
      d₁.completeSrcPath s.localAddr = .ok d₂ ∧ reparseSrcPath s.localAddr d₂ = .ok d₃ ∧
      d₃.srcPath.wireNodes = .ok p.snode ∧ Touched s s' sport d₃ ∧ SameTimer s s' ∧
      out = [.network p] := by
  simp only [xsendto, bind_eq_ok] at h
  obtain ⟨⟨s₁, d₁⟩, h₁, d₂, h₂, d₃, h₃, h⟩ := h
  obtain ⟨hun, hsame, -⟩ := bindEphemeral_eq_ok h₁
  rw [hun.localAddr] at h₂ h₃
  -- with or without a transport header, the packet carries the path of the socket
  split at h
  all_goals
    simp only [bind_eq_ok] at h
    obtain ⟨p, hp, h⟩ := h
    cases h
    obtain ⟨dnode, snode, -, hwire, rfl⟩ := Packet.encap_eq_ok hp
    exact ⟨_, d₁, d₂, d₃, s₁, _, rfl, h₁, h₂, h₃, hwire, touched_setDagInfo _ _ hun,
      ⟨⟨hsame.1.1, hsame.1.2, hsame.1.3⟩, hsame.timer⟩, rfl⟩

/-- What one chunk request does: the socket `d` of the port, which has a name now, sends `p` and
stores a copy of it, and the pair of its own XID and the CID is filed. -/
structure Requested (env : Env) (s : XTransport) (sport : UInt16) (payload : List UInt8)
    (d : DagInfo) (path : XiaPath) (sid cid : Xid) (copy p : Packet) (s' : XTransport) : Prop where
  named : ∃ s₁ d₁ d₂, s.bindEphemeral env sport
      ((s.portToDagInfo.lookup sport).getD (DagInfo.new env.junk)) = .ok (s₁, d₁) ∧
    d₁.completeSrcPath s.localAddr = .ok d₂ ∧ reparseSrcPath s.localAddr d₂ = .ok d
  source : d.srcPath.destXid = .ok sid
  relocated : DagInfo.Relocated s.localAddr d.srcPath path
  copied : d.copyCidReqPacket env.beyond s.localAddr p = .ok ({ d with srcPath := path }, copy)
  wire : d.srcPath.wireNodes = .ok p.snode
  nxt : p.nxt = nxtCid
  plen : p.plen = UInt16.ofNat (makeRequestHeader ++ payload).length
  body : p.body = makeRequestHeader ++ payload
  touched : Touched s s' sport { d with
    srcPath := path
    xidToCidReqPkt := d.xidToCidReqPkt.insert cid copy
    xidToStatus := d.xidToStatus.insert cid waitingForChunk
    xidToReadReq := d.xidToReadReq.insert cid false
    xidToExpiryTime := d.xidToExpiryTime.insert cid (env.now + ackDelay)
    xidToTimerOn := d.xidToTimerOn.insert cid true }
  xidPairToPort : s'.xidPairToPort = s.xidPairToPort.insert ⟨sid, cid⟩ sport
  portToActive : s'.portToActive = s.portToActive
  pendingConnectionBuf : s'.pendingConnectionBuf = s.pendingConnectionBuf
  timer : s'.timer = arm s.timer (env.now + ackDelay)

theorem requestOne_eq_ok {payload : List UInt8} {dag : Text}
    (h : s.requestOne env sport payload dag = .ok (s', out)) :
    ∃ d path sid cid copy p, Requested env s sport payload d path sid cid copy p s' ∧
      out = [.network p] := by
  simp only [requestOne, bind_eq_ok] at h
  obtain ⟨⟨s₁, d₁⟩, h₁, d₂, h₂, d₃, h₃, p, hp, sid, hsid, cid, -, ⟨d₄, copy⟩, hcopy, h⟩ := h
  -- the name, if it is a new one, is filed before the request
  obtain ⟨hun, hsame, -⟩ := bindEphemeral_eq_ok h₁
  rw [hun.localAddr] at h₂ h₃ hcopy
  obtain ⟨path, hpath, rfl⟩ := DagInfo.copyContentPacket_eq_ok hcopy
  cases h
  obtain ⟨dnode, snode, -, hwire, rfl⟩ := Packet.encap_eq_ok hp
  refine ⟨d₃, path, sid, cid, copy, _, ⟨⟨s₁, d₁, d₂, h₁, h₂, h₃⟩, hsid, hpath, hcopy, hwire, rfl,
    rfl, rfl, touched_setDagInfo _ _ ⟨hun.1, hun.2, hun.3⟩, ?_, hsame.portToActive,
    hsame.pendingConnectionBuf, ?_⟩, rfl⟩
  · rw [← hsame.xidPairToPort]
    rfl
  · rw [← hsame.timer]
    rfl

/-- A request changes nothing of the socket but its name and the tables of its chunks. -/
theorem Requested.exists_srcPath {payload : List UInt8} {path : XiaPath} {sid cid : Xid}
    {copy p : Packet} (h : Requested env s sport payload d path sid cid copy p s') :
    ∃ path, d = { (s.portToDagInfo.lookup sport).getD (DagInfo.new env.junk) with
      srcPath := path, initialized := true, fullSrcDag := true } := by
  obtain ⟨s₁, d₁, d₂, h₁, h₂, h₃⟩ := h.named
  exact bindEphemeral_named h₁ h₂ h₃

theorem xrequestChunk_eq_run (env : Env) (s : XTransport) (sport : UInt16) (payload : List UInt8)
    (dags : List Text) : s.xrequestChunk env sport payload dags =
      Machine.run (fun s dag => s.requestOne env sport payload dag) s dags := by
  induction dags generalizing s with
  | nil => rfl
  | cons dag dags ih =>
    rw [xrequestChunk, Machine.run]
    cases s.requestOne env sport payload dag with
    | error f => rfl
    | ok r =>
      obtain ⟨s₁, o₁⟩ := r
      simp only [ok_bind, ih]
      cases Machine.run (fun s dag => s.requestOne env sport payload dag) s₁ dags <;> rfl

/-- A status with which `XreadChunk` hands a chunk up. -/
def Readable (status : Option Int) : Prop :=
  status = some readyToRead ∨ status = some invalidHash

instance (status : Option Int) : Decidable (Readable status) :=
  inferInstanceAs (Decidable (_ ∨ _))

/-- The outcomes of `XreadChunk` for a socket `d`: the read is recorded, or the stored packet is
copied, handed up and dropped. -/
inductive ChunkRead (env : Env) (localAddr : XiaPath) (sport : UInt16) (d : DagInfo) (cid : Xid) :
    DagInfo → List Output → Prop
  | recorded (hstatus : ¬ Readable (d.xidToStatus.lookup cid)) :
      ChunkRead env localAddr sport d cid
        { d with xidToReadReq := d.xidToReadReq.insert cid true } []
  | handed (path : XiaPath) (pkt copy : Packet) (dag : Text) (bytes : List UInt8)
      (hstatus : Readable (d.xidToStatus.lookup cid))
      (hpkt : d.xidToCidResponsePkt.lookup cid = some pkt)
      (hpath : DagInfo.Relocated localAddr d.srcPath path)
      (hcopy : DagInfo.IsResponseCopy env.beyond copy pkt) (hbytes : copy.payload = .ok bytes) :
      ChunkRead env localAddr sport d cid
        { d with
          srcPath := path
          xidToReadReq := (d.xidToReadReq.insert cid true).insert cid false
          xidToCidResponsePkt := d.xidToCidResponsePkt.erase cid }
        [.api sport (.readchunk dag (readBytes env.beyond bytes copy.plen.toNat))]

theorem xreadChunk_outcome {dag : Text} (h : s.xreadChunk env sport dag = .ok (s', out)) :
    ∃ d d' cid, s.portToDagInfo.lookup sport = some d ∧
      (XiaPath.empty.parse (cStr dag)).2.destXid = .ok cid ∧
      ChunkRead env s.localAddr sport d cid d' out ∧ s' = s.setDagInfo sport d' := by
  simp only [xreadChunk, bind_eq_ok] at h
  obtain ⟨cid, hcid, d, hd, h⟩ := h
  rw [deref_eq_ok] at hd
  split at h
  · rename_i hstatus
    cases h
    exact ⟨d, _, cid, hd, hcid, .recorded (by simp [Readable, hstatus]), rfl⟩
  · rename_i status hstatus
    split at h
    · rename_i hne
      cases h
      exact ⟨d, _, cid, hd, hcid, .recorded (by simp [Readable, hstatus, hne]), rfl⟩
    · rename_i hread
      simp only [bind_eq_ok] at h
      obtain ⟨pkt, hpkt, ⟨d₁, copy⟩, hcopy, src, -, bytes, hbytes, h⟩ := h
      cases h
      obtain ⟨path, hpath, rfl, hresp⟩ := DagInfo.copyCidResponsePacket_eq_ok hcopy
      have hreadable : Readable (d.xidToStatus.lookup cid) := by
        rw [Readable, hstatus, Option.some_inj, Option.some_inj]
        omega
      exact ⟨d, _, cid, hd, hcid,
        .handed path pkt copy src bytes hreadable (deref_eq_ok.1 hpkt) hpath hresp hbytes, rfl⟩

theorem xreadChunk_eq_ok {dag : Text} (h : s.xreadChunk env sport dag = .ok (s', out)) :
    ∃ d path t₁ t₂, s.portToDagInfo.lookup sport = some d ∧
      DagInfo.Relocated s.localAddr d.srcPath path ∧
      Touched s s' sport { d with
        srcPath := path, xidToReadReq := t₁, xidToCidResponsePkt := t₂ } ∧
      SameTimer s s' ∧ (out = [] ∨ ∃ dag payload, out = [.api sport (.readchunk dag payload)]) := by
  obtain ⟨d, d', cid, hd, -, hread, rfl⟩ := xreadChunk_outcome h
  cases hread with
  | recorded =>
    exact ⟨d, d.srcPath, _, _, hd, .refl, touched_setDagInfo _ _ ⟨rfl, rfl, rfl⟩,
      ⟨⟨rfl, rfl, rfl⟩, rfl⟩, .inl rfl⟩
  | handed path pkt copy src bytes _ _ hpath =>
    exact ⟨d, path, _, _, hd, hpath, touched_setDagInfo _ _ ⟨rfl, rfl, rfl⟩,
      ⟨⟨rfl, rfl, rfl⟩, rfl⟩, .inr ⟨_, _, rfl⟩⟩

theorem xgetChunkStatus_eq_ok {dags : List Text}
    (h : s.xgetChunkStatus sport dags = .ok (s', out)) :
    s' = s ∧ ∃ status payload, out = [.api sport (.chunkstatus dags status payload)] := by
  simp only [xgetChunkStatus, bind_eq_ok] at h
  obtain ⟨status, -, h⟩ := h
  cases h
  exact ⟨rfl, status, _, rfl⟩

theorem bindLocalAddr_eq_ok (h : s.bindLocalAddr sport d = .ok (s', d')) :
    Untouched s s' ∧ SameTimer s s' ∧ ((d' = d ∧ d.initialized = true) ∨
      ∃ path, d' = { d with srcPath := path, initialized := true, fullSrcDag := true }) := by
  simp only [bindLocalAddr] at h
  split at h
  · rename_i hinit
    cases h
    exact ⟨⟨rfl, rfl, rfl⟩, ⟨⟨rfl, rfl, rfl⟩, rfl⟩, .inl ⟨rfl, hinit⟩⟩
  · simp only [bind_eq_ok] at h
    obtain ⟨str, -, x, -, h⟩ := h
    cases h
    exact ⟨⟨rfl, rfl, rfl⟩, ⟨⟨rfl, rfl, rfl⟩, rfl⟩, .inr ⟨_, rfl⟩⟩

/-- The packet that `XpushChunkto` sends: a content header with the defaults behind the context, and
the payload. -/
def pushBody (payload : List UInt8) (ttl : Int32) : List UInt8 :=
  encapChunk 0 0 (UInt16.ofNat payload.length) (UInt32.ofNat payload.length)
    opPush ttl.toUInt32 ttlDefault ContentHeader.cacheSizeDefault
    ContentHeader.cachePolicyDefault ++ payload

/-- `XpushChunkto`: the pair of the CID and the destination is filed for the port. -/
theorem xpushChunkto_eq_ok {cid : Text} {payload : List UInt8} {params : CacheParams}
    (h : s.xpushChunkto env sport cid ddag payload params = .ok (s', out)) :
    ∃ path x y p, p.nxt = nxtCid ∧ p.plen = UInt16.ofNat (pushBody payload params.ttl).length ∧
      p.body = pushBody payload params.ttl ∧
      Touched s s' sport { (s.portToDagInfo.lookup sport).getD (DagInfo.new env.junk) with
        srcPath := path, initialized := true, fullSrcDag := true } ∧
      s'.xidPairToPort = s.xidPairToPort.insert ⟨x, y⟩ sport ∧
      s'.portToActive = s.portToActive ∧ s'.pendingConnectionBuf = s.pendingConnectionBuf ∧
      s'.timer = s.timer ∧ out = [.network p] := by
  simp only [xpushChunkto, bind_eq_ok] at h
  obtain ⟨⟨s₁, d₁⟩, h₁, d₂, h₂, d₃, h₃, cidSrcPath, -, p, hp, x, -, y, -, h⟩ := h
  obtain ⟨hun, hsame, hcase⟩ := bindLocalAddr_eq_ok h₁
  obtain ⟨path, rfl⟩ := exists_srcPath_of_named hcase h₂ h₃
  cases h
  obtain ⟨dnode, snode, -, -, rfl⟩ := Packet.encap_eq_ok hp
  refine ⟨path, x, y, _, rfl, rfl, rfl, touched_setDagInfo _ _ ⟨hun.1, hun.2, hun.3⟩, ?_,
    hsame.portToActive, hsame.pendingConnectionBuf, hsame.timer, rfl⟩
  rw [← hsame.xidPairToPort]
  rfl

/-! ### Changes of the local address -/

def Readdressed (s s' : XTransport) : Prop :=
  ∃ addr hid, s' = { s with localAddr := addr, localHid := hid }

theorem xchangead_eq_ok {ad ip4id : Text} (h : s.xchangead ad ip4id = .ok (s', out)) :
    s' = { s with localAddr := (s.localAddr.parse (s.changeadText ad ip4id)).2 } ∧ out = [] := by
  cases h
  exact ⟨rfl, rfl⟩

theorem processXhcpPacket_eq_ok {p : Packet} (h : s.processXhcpPacket env p = .ok (s', out)) :
    out = [] ∧ (s' = s ∨ ∃ text, s.xhcpText env p = .ok (some text) ∧
      s' = { s with localAddr := (s.localAddr.parse text).2 }) := by
  simp only [processXhcpPacket, bind_eq_ok] at h
  obtain ⟨text, htext, h⟩ := h
  cases text with
  | none =>
    cases h
    exact ⟨rfl, .inl rfl⟩
  | some text =>
    cases h
    exact ⟨rfl, .inr ⟨text, htext, rfl⟩⟩

theorem writeParam_eq_ok {conf : Text} (h : s.writeParam conf = .ok (s', out)) :
    out = [] ∧ (s' = s ∨ ∃ addr hid, XiaPath.empty.parse conf = (true, addr) ∧
      s' = { s with localAddr := addr, localHid := hid }) := by
  simp only [writeParam] at h
  split at h
  · rename_i hok
    simp only [bind_eq_ok] at h
    obtain ⟨_, -, hid, -, h⟩ := h
    cases h
    exact ⟨rfl, .inr ⟨_, hid, Prod.ext hok rfl, rfl⟩⟩
  · cases h
    exact ⟨rfl, .inl rfl⟩

theorem handle_readdresses {e : Event} (he : e.readdresses = true)
    (h : s.handle sha1 env e = .ok (s', out)) : Readdressed s s' ∧ out = [] := by
  cases e with
  | xchangead ad ip4id =>
    obtain ⟨rfl, rfl⟩ := xchangead_eq_ok h
    exact ⟨⟨_, _, rfl⟩, rfl⟩
  | xhcp p =>
    obtain ⟨rfl, rfl | ⟨text, -, rfl⟩⟩ := processXhcpPacket_eq_ok h
    · exact ⟨⟨_, _, rfl⟩, rfl⟩
    · exact ⟨⟨_, _, rfl⟩, rfl⟩
  | writeParam conf =>
    obtain ⟨rfl, rfl | ⟨addr, hid, -, rfl⟩⟩ := writeParam_eq_ok h
    · exact ⟨⟨_, _, rfl⟩, rfl⟩
    · exact ⟨⟨_, _, rfl⟩, rfl⟩
  | _ => cases he

/-! ### Packets from the network -/

def IsStream (thdr : ExtHeader) (pktInfo : UInt8) : Prop :=
  type thdr = .ok xsockStream ∧ TransportHeader.pktInfo thdr = .ok pktInfo

instance (thdr : ExtHeader) (pktInfo : UInt8) : Decidable (IsStream thdr pktInfo) :=
  inferInstanceAs (Decidable (_ ∧ _))

theorem IsStream.unique {thdr : ExtHeader} {i j : UInt8} (hi : IsStream thdr i)
    (hj : IsStream thdr j) : i = j :=
  Except.ok.inj (hi.2.symm.trans hj.2)

def pairPort (s : XTransport) (pair : XidPair) : UInt16 := s.xidPairToPort.get 0 pair

def IsActive (s : XTransport) (port : UInt16) : Prop := (s.portToActive.lookup port).isSome

inductive Dispatched (env : Env) (s : XTransport) (p : Packet) (pair : XidPair)
    (thdr : ExtHeader) : XTransport → List Output → Verdict → Prop
  | syn (q : Packet) (hkind : IsStream thdr syn)
      (hq : q.HasHeader xsockStream synack 0 0 0) :
      Dispatched env s p pair thdr
        { s with
          pendingConnectionBuf := s.pendingConnectionBuf ++ [DagInfo.pending env.junk p]
          xidPairToConnectPending := s.xidPairToConnectPending.insert pair true }
        [.network q] ⟨s.xidToPort.get 0 pair.src, true⟩
  | synack (d : DagInfo) (hkind : IsStream thdr synack)
      (hd : s.portToDagInfo.lookup (s.pairPort pair) = some d) :
      Dispatched env s p pair thdr
        (s.setDagInfo (s.pairPort pair) { d with timerOn := false, synackWaiting := false }) []
        ⟨s.pairPort pair, d.synackWaiting⟩
  | data {n : UInt32} (d : DagInfo) (q : Packet) (hkind : IsStream thdr data)
      (hactive : s.IsActive (s.pairPort pair))
      (hd : s.portToDagInfo.lookup (s.pairPort pair) = some d)
      (hq : q.HasHeader xsockStream TransportHeader.ack 0
        (d.receiveData p.srcPath n).1.expectedSeqnum 0) (hn : seqNum thdr = .ok n) :
      Dispatched env s p pair thdr
        (s.setDagInfo (s.pairPort pair) (d.receiveData p.srcPath n).1) [.network q]
        ⟨s.pairPort pair, (d.receiveData p.srcPath n).2⟩
  | ack {n : UInt32} (d d' : DagInfo) (reset : Bool) (t : Option Nat)
      (hkind : IsStream thdr TransportHeader.ack) (hactive : s.IsActive (s.pairPort pair))
      (hd : s.portToDagInfo.lookup (s.pairPort pair) = some d)
      (hack : d.receiveAck env.now p.srcPath n = .ok (d', reset))
      (hn : ackNum thdr = .ok n) :
      Dispatched env s p pair thdr
        ({ s with timer := t }.setDagInfo (s.pairPort pair) d') [] ⟨s.pairPort pair, false⟩
  | inactive (hkind : IsStream thdr data ∨ IsStream thdr TransportHeader.ack)
      (hactive : ¬ s.IsActive (s.pairPort pair)) :
      Dispatched env s p pair thdr s [] ⟨s.pairPort pair, false⟩
  | other (send : Bool) (hsyn : ¬ IsStream thdr syn)
      (hsynack : ¬ IsStream thdr synack)
      (hdata : ¬ IsStream thdr data) (hack : ¬ IsStream thdr TransportHeader.ack) :
      Dispatched env s p pair thdr s [] ⟨s.xidToPort.get 0 pair.src, send⟩

variable {p : Packet} {pair : XidPair} {thdr : ExtHeader} {v : Verdict}

theorem answer_hasHeader {t i : UInt8} {n a : UInt32} {l : UInt16} {dummy : String} {q : Packet}
    (h : answer p (encap t i n a l) dummy = .ok q) : q.HasHeader t i n a l := by
  obtain ⟨dnode, snode, -, -, rfl⟩ := Packet.encap_eq_ok h
  exact ⟨rfl, cBytes dummy, rfl⟩

theorem dispatched_of_receiveData (hkind : IsStream thdr data)
    (h : s.receiveData p pair thdr = .ok (s', out, v)) :
    Dispatched env s p pair thdr s' out v := by
  simp only [receiveData] at h
  split at h
  · rename_i hactive
    simp only [bind_eq_ok] at h
    obtain ⟨d, hd, n, hn, q, hq, h⟩ := h
    cases h
    exact .data d q hkind hactive (deref_eq_ok.1 hd) (answer_hasHeader hq) hn
  · rename_i hactive
    cases h
    exact .inactive (.inl hkind) hactive

theorem dispatched_of_receiveAck (hkind : IsStream thdr TransportHeader.ack)
    (h : s.receiveAck env p pair thdr = .ok (s', out, v)) :
    Dispatched env s p pair thdr s' out v := by
  simp only [receiveAck] at h
  split at h
  · rename_i hactive
    simp only [bind_eq_ok] at h
    obtain ⟨d, hd, n, hn, ⟨d', reset⟩, hack, h⟩ := h
    cases h
    cases reset with
    | true => exact .ack d d' true _ hkind hactive (deref_eq_ok.1 hd) hack hn
    | false => exact .ack d d' false s.timer hkind hactive (deref_eq_ok.1 hd) hack hn
  · rename_i hactive
    cases h
    exact .inactive (.inr hkind) hactive

theorem dispatch_eq_ok (h : s.dispatch env p pair thdr = .ok (s', out, v)) :
    Dispatched env s p pair thdr s' out v := by
  simp only [dispatch, bind_eq_ok] at h
  obtain ⟨t, ht, h⟩ := h
  by_cases htype : t = xsockStream
  · rw [if_pos htype, bind_eq_ok] at h
    rw [htype] at ht
    obtain ⟨i, hi, h⟩ := h
    by_cases hsyn : i = syn
    · rw [if_pos hsyn] at h
      simp only [receiveSyn, bind_eq_ok] at h
      obtain ⟨q, hq, h⟩ := h
      cases h
      exact .syn q ⟨ht, hsyn ▸ hi⟩ (answer_hasHeader hq)
    rw [if_neg hsyn] at h
    by_cases hsynack : i = synack
    · rw [if_pos hsynack] at h
      simp only [receiveSynack, bind_eq_ok] at h
      obtain ⟨d, hd, h⟩ := h
      cases h
      exact .synack d ⟨ht, hsynack ▸ hi⟩ (deref_eq_ok.1 hd)
    rw [if_neg hsynack] at h
    by_cases hdata : i = data
    · rw [if_pos hdata] at h
      exact dispatched_of_receiveData ⟨ht, hdata ▸ hi⟩ h
    rw [if_neg hdata] at h
    by_cases hack : i = TransportHeader.ack
    · rw [if_pos hack] at h
      exact dispatched_of_receiveAck ⟨ht, hack ▸ hi⟩ h
    rw [if_neg hack] at h
    cases h
    have hno {j : UInt8} (hne : i ≠ j) : ¬ IsStream thdr j := fun hk =>
      hne (Except.ok.inj (hi.symm.trans hk.2))
    exact .other true (hno hsyn) (hno hsynack) (hno hdata) (hno hack)
  · rw [if_neg htype] at h
    -- a datagram or a packet of an unknown type
    have hno : ∀ i, ¬ IsStream thdr i := fun i hk => htype (Except.ok.inj (ht.symm.trans hk.1))
    split at h
    · simp only [receiveDgram, bind_eq_ok] at h
      obtain ⟨d, hd, h⟩ := h
      cases h
      exact .other _ (hno _) (hno _) (hno _) (hno _)
    · cases h
      exact .other true (hno _) (hno _) (hno _) (hno _)

/-- The branches for the kinds of packets change at most the socket of the pair, and of it neither
the name nor the chunks. -/
theorem Dispatched.touched (h : Dispatched env s p pair thdr s' out v) :
    s'.portToDagInfo = s.portToDagInfo ∨ ∃ d d', s.portToDagInfo.lookup (s.pairPort pair) = some d ∧
        Touched s s' (s.pairPort pair) d' ∧ d'.srcPath = d.srcPath ∧
        DagInfo.SameChunkTables d d' := by
  cases h with
  | syn | inactive | other => exact .inl rfl
  | synack d _ hd =>
    exact .inr ⟨d, _, hd, touched_setDagInfo _ _ ⟨rfl, rfl, rfl⟩, rfl, rfl, rfl, rfl, rfl⟩
  | data d _ _ _ hd =>
    refine .inr ⟨d, _, hd, touched_setDagInfo _ _ ⟨rfl, rfl, rfl⟩, ?_⟩
    unfold DagInfo.receiveData
    split <;> exact ⟨rfl, rfl, rfl, rfl, rfl⟩
  | ack d _ _ _ _ _ hd hack =>
    obtain ⟨ring, -, -, rfl⟩ := DagInfo.receiveAck_eq_ok hack
    exact .inr ⟨d, _, hd, touched_setDagInfo _ _ ⟨rfl, rfl, rfl⟩, rfl, rfl, rfl, rfl, rfl⟩

/-- The end of `ProcessNetworkPacket`: at most the peer's path of the socket is renewed, and at
most one message is handed up. -/
inductive Delivered (env : Env) (s : XTransport) (p : Packet) (thdr : ExtHeader) (v : Verdict) :
    XTransport → List Output → Prop
  | dropped (h : ¬ (v.dport ≠ 0 ∧ v.sendToApplication)) : Delivered env s p thdr v s []
  | moved (d' : DagInfo) (hport : v.dport ≠ 0) (hsend : v.sendToApplication)
      (hd' : d' = { s.portToDagInfo.get s.noDagInfo v.dport with
        dstPath := p.srcPath, initialized := true }) (hnxt : p.nxt = 22) :
      Delivered env s p thdr v (s.setDagInfo v.dport d') []
  | first (d' : DagInfo) (dag : Text) (hport : v.dport ≠ 0) (hsend : v.sendToApplication)
      (hinit : (s.portToDagInfo.get s.noDagInfo v.dport).initialized = false)
      (hd' : d' = { s.portToDagInfo.get s.noDagInfo v.dport with
        dstPath := p.srcPath, initialized := true }) (hdag : p.srcPath.unparse = .ok dag) :
      Delivered env s p thdr v (s.setDagInfo v.dport d')
        [.api v.dport (.recv dag (readString env.beyond (p.extPayload thdr)
          ((p.plen.toNat : Int) - thdr.hlen.toNat)))]
  | handed (dag : Text) (hport : v.dport ≠ 0) (hsend : v.sendToApplication)
      (hinit : (s.portToDagInfo.get s.noDagInfo v.dport).initialized = true)
      (hdag : p.srcPath.unparse = .ok dag) : Delivered env s p thdr v s
        [.api v.dport (.recv dag (readString env.beyond (p.extPayload thdr)
          ((p.plen.toNat : Int) - thdr.hlen.toNat)))]

theorem deliver_eq_ok (h : s.deliver env p thdr v = .ok (s', out)) :
    Delivered env s p thdr v s' out := by
  simp only [deliver] at h
  split at h
  · rename_i hgo
    cases hinit : (s.portToDagInfo.get s.noDagInfo v.dport).initialized with
    | true =>
      simp only [hinit, if_true] at h
      split at h
      · rename_i hmove
        cases h
        refine .moved _ hgo.1 hgo.2 ?_ hmove.1
        rw [← hinit]
      · simp only [bind_eq_ok] at h
        obtain ⟨dag, hdag, h⟩ := h
        cases h
        exact .handed dag hgo.1 hgo.2 hinit hdag
    | false =>
      simp only [hinit, Bool.false_eq_true, if_false] at h
      split at h
      · rename_i hmove
        cases h
        -- the socket is written twice
        rw [setDagInfo_setDagInfo]
        exact .moved _ hgo.1 hgo.2 rfl hmove.1
      · simp only [bind_eq_ok] at h
        obtain ⟨dag, hdag, h⟩ := h
        cases h
        exact .first _ dag hgo.1 hgo.2 hinit rfl hdag
  · rename_i hgo
    cases h
    exact .dropped hgo

theorem Delivered.touched (h : Delivered env s p thdr v s' out) :
    s' = s ∨ Touched s s' v.dport { s.portToDagInfo.get s.noDagInfo v.dport with
      dstPath := p.srcPath, initialized := true } := by
  cases h with
  | dropped | handed => exact .inl rfl
  | moved d' _ _ hd' =>
    subst hd'
    exact .inr (touched_setDagInfo _ _ ⟨rfl, rfl, rfl⟩)
  | first d' _ _ _ _ hd' =>
    subst hd'
    exact .inr (touched_setDagInfo _ _ ⟨rfl, rfl, rfl⟩)

theorem Delivered.eq_of_not_sent (h : Delivered env s p thdr v s' out)
    (hv : v.sendToApplication = false) : s' = s ∧ out = [] := by
  cases h with
  | dropped => exact ⟨rfl, rfl⟩
  | moved _ _ hsend => exact absurd hsend (by simp [hv])
  | first _ _ _ hsend => exact absurd hsend (by simp [hv])
  | handed _ _ hsend => exact absurd hsend (by simp [hv])

theorem Delivered.eq_of_initialized (h : Delivered env s p thdr v s' out) (hnxt : p.nxt = nxtTrn)
    (hd : s.portToDagInfo.lookup v.dport = some d) (hinit : d.initialized = true) :
    s' = s ∧ (out = [] ∧ (v.dport = 0 ∨ v.sendToApplication = false) ∨
      v.dport ≠ 0 ∧ v.sendToApplication = true ∧
        ∃ dag, out = [.api v.dport (.recv dag (readString env.beyond (p.extPayload thdr)
          ((p.plen.toNat : Int) - thdr.hlen.toNat)))]) := by
  cases h with
  | dropped h =>
    refine ⟨rfl, .inl ⟨rfl, ?_⟩⟩
    by_cases hport : v.dport = 0
    · exact .inl hport
    · exact .inr (by simpa [hport] using h)
  | moved _ _ _ _ h22 =>
    rw [hnxt] at h22
    exact absurd h22 (by decide)
  | first _ _ _ _ hno =>
    rw [HashTable.get_of_lookup hd, hinit] at hno
    cases hno
  | handed dag hport hsend => exact ⟨rfl, .inr ⟨hport, hsend, dag, rfl⟩⟩

/-- `ProcessNetworkPacket` in two stages; an XCMP message changes nothing. -/
theorem processNetworkPacket_eq_ok (h : s.processNetworkPacket env p = .ok (s', out)) :
    ∃ x y thdr, p.lastXid = .ok x ∧ p.srcPath.destXid = .ok y ∧ p.extHeader = .ok thdr ∧
      ((p.nxt = nxtXcmp ∧ s' = s ∧ ∃ dag str,
          out = s.xcmpListeners.map fun port => .api port (.recv dag str)) ∨
        p.nxt ≠ nxtXcmp ∧ ∃ s₁ o₁ v o₂, Dispatched env s p ⟨x, y⟩ thdr s₁ o₁ v ∧
          Delivered env s₁ p thdr v s' o₂ ∧ out = o₁ ++ o₂) := by
  simp only [processNetworkPacket, bind_eq_ok] at h
  obtain ⟨x, hx, y, hy, thdr, hthdr, h⟩ := h
  refine ⟨x, y, thdr, hx, hy, hthdr, ?_⟩
  split at h
  · rename_i hxcmp
    simp only [receiveXcmp, bind_eq_ok] at h
    obtain ⟨dag, -, bytes, -, h⟩ := h
    cases h
    exact .inl ⟨hxcmp, rfl, dag, _, rfl⟩
  · rename_i hxcmp
    simp only [bind_eq_ok] at h
    obtain ⟨⟨s₁, o₁, v⟩, h₁, ⟨s₂, o₂⟩, h₂, h⟩ := h
    cases h
    exact .inr ⟨hxcmp, s₁, o₁, v, o₂, dispatch_eq_ok h₁, deliver_eq_ok h₂, rfl⟩

/-! ### Packets from the cache -/

/-- The status that `ProcessCachePacket` sets for the payload that it reads. -/
def arrivalStatus (sha1 : Sha1) (payload : List UInt8) (cid : Xid) : Int :=
  if hashText (sha1 payload) = cid.unparse then readyToRead else invalidHash

theorem readable_arrivalStatus (sha1 : Sha1) (payload : List UInt8) (cid : Xid) :
    Readable (some (arrivalStatus sha1 payload cid)) := by
  unfold arrivalStatus
  split
  · exact .inl rfl
  · exact .inr rfl

/-- The outcomes of `ProcessCachePacket` for a packet from `cid` to `sid`. -/
inductive Cached (sha1 : Sha1) (env : Env) (s : XTransport) (p : Packet) (ch : ExtHeader)
    (sid cid : Xid) : XTransport → List Output → Prop
  | pushUnknown (hop : opcode ch = .ok opPush)
      (hport : s.xidToPushPort.get 0 sid = 0) : Cached sha1 env s p ch sid cid s []
  | pushed {policy time size ctx : UInt32} {len : UInt16} (bytes : List UInt8) (ddag : Text)
      (hop : opcode ch = .ok opPush) (hport : s.xidToPushPort.get 0 sid ≠ 0)
      (hbytes : p.payload = .ok bytes) (hpolicy : cachePolicy ch = .ok policy)
      (htime : ContentHeader.ttl ch = .ok time) (hsize : cacheSize ch = .ok size)
      (hctx : contextId ch = .ok ctx) (hlen : length ch = .ok len) :
      Cached sha1 env s p ch sid cid s [.api (s.xidToPushPort.get 0 sid) (.pushchunkto cid.unparse
          (readBytes env.beyond bytes p.plen.toNat) policy time size ctx len ddag)]
  | unknown (hop : opcode ch ≠ .ok opPush)
      (hport : s.pairPort ⟨sid, cid⟩ = 0) : Cached sha1 env s p ch sid cid s []
  | handed (d : DagInfo) (bytes : List UInt8) (dag : Text)
      (hop : opcode ch ≠ .ok opPush) (hport : s.pairPort ⟨sid, cid⟩ ≠ 0)
      (hd : s.portToDagInfo.lookup (s.pairPort ⟨sid, cid⟩) = some d)
      (hbytes : p.payload = .ok bytes) (hreq : d.xidToReadReq.lookup cid = some true) :
      Cached sha1 env s p ch sid cid (s.setDagInfo (s.pairPort ⟨sid, cid⟩)
          { chunkArrived cid (arrivalStatus sha1 (readBytes env.beyond bytes p.plen.toNat) cid) d
            with xidToReadReq := d.xidToReadReq.erase cid })
        [.api (s.pairPort ⟨sid, cid⟩) (.readchunk dag (readBytes env.beyond bytes p.plen.toNat))]
  | stored (d : DagInfo) (path : XiaPath) (copy : Packet) (bytes : List UInt8)
      (hop : opcode ch ≠ .ok opPush) (hport : s.pairPort ⟨sid, cid⟩ ≠ 0)
      (hd : s.portToDagInfo.lookup (s.pairPort ⟨sid, cid⟩) = some d)
      (hbytes : p.payload = .ok bytes) (hreq : d.xidToReadReq.lookup cid ≠ some true)
      (hpath : DagInfo.Relocated s.localAddr d.srcPath path)
      (hcopy : DagInfo.IsResponseCopy env.beyond copy p) :
      Cached sha1 env s p ch sid cid (s.setDagInfo (s.pairPort ⟨sid, cid⟩)
          { chunkArrived cid (arrivalStatus sha1 (readBytes env.beyond bytes p.plen.toNat) cid) d
            with
            srcPath := path
            xidToCidResponsePkt := d.xidToCidResponsePkt.insert cid copy }) []

theorem processCachePacket_outcome (h : s.processCachePacket sha1 env p = .ok (s', out)) :
    ∃ sid cid ch, p.dstPath.destXid = .ok sid ∧ p.srcPath.destXid = .ok cid ∧
      p.extHeader = .ok ch ∧ Cached sha1 env s p ch sid cid s' out := by
  simp only [processCachePacket, bind_eq_ok] at h
  obtain ⟨sid, hsid, cid, hcid, ch, hch, op, hop', h⟩ := h
  refine ⟨sid, cid, ch, hsid, hcid, hch, ?_⟩
  split at h
  · rename_i hop
    rw [hop] at hop'
    simp only [receivePush, bind_eq_ok] at h
    obtain ⟨bytes, hbytes, h⟩ := h
    split at h
    · rename_i hport
      cases h
      exact .pushUnknown hop' hport
    · rename_i hport
      simp only [bind_eq_ok] at h
      obtain ⟨_, -, _, -, ddag, -, _, hpolicy, _, htime, _, hsize, _, hctx, _, hlen, h⟩ := h
      cases h
      exact .pushed bytes ddag hop' hport hbytes hpolicy htime hsize hctx hlen
  · rename_i hop
    replace hop : opcode ch ≠ .ok opPush := fun heq =>
      hop (Except.ok.inj (hop'.symm.trans heq))
    split at h
    · rename_i hport
      cases h
      exact .unknown hop hport
    · rename_i hport
      simp only [bind_eq_ok] at h
      obtain ⟨d, hd, bytes, hbytes, h⟩ := h
      rw [deref_eq_ok] at hd
      -- whether the hash is right decides only the status
      rw [← arrivalStatus] at h
      split at h
      · rename_i hreq
        simp only [bind_eq_ok] at h
        obtain ⟨dag, -, h⟩ := h
        cases h
        exact .handed d bytes dag hop hport hd hbytes hreq
      · rename_i hreq
        simp only [bind_eq_ok] at h
        obtain ⟨⟨d₁, copy⟩, hcopy, h⟩ := h
        obtain ⟨path, hpath, rfl, hresp⟩ := DagInfo.copyCidResponsePacket_eq_ok hcopy
        cases h
        exact .stored d path copy bytes hop hport hd hbytes hreq hpath hresp

/-- `ProcessCachePacket`: a pushed chunk changes nothing; a requested one updates the chunk tables
of the socket that the pair names. -/
theorem processCachePacket_eq_ok (h : s.processCachePacket sha1 env p = .ok (s', out)) :
    ∃ x y, p.dstPath.destXid = .ok x ∧ p.srcPath.destXid = .ok y ∧
      ((s' = s ∧ (out = [] ∨ ∃ ch m, p.extHeader = .ok ch ∧ opcode ch = .ok opPush ∧
          out = [.api (s.xidToPushPort.get 0 x) m])) ∨
        ∃ d path t₁ t₂ status, s.pairPort ⟨x, y⟩ ≠ 0 ∧
          s.portToDagInfo.lookup (s.pairPort ⟨x, y⟩) = some d ∧
          DagInfo.Relocated s.localAddr d.srcPath path ∧
          Touched s s' (s.pairPort ⟨x, y⟩) { chunkArrived y status d with
            srcPath := path, xidToReadReq := t₁, xidToCidResponsePkt := t₂ } ∧
          SameTimer s s' ∧
          (out = [] ∨ ∃ dag payload,
            out = [.api (s.pairPort ⟨x, y⟩) (.readchunk dag payload)])) := by
  obtain ⟨x, y, ch, hx, hy, hch, hcached⟩ := processCachePacket_outcome h
  refine ⟨x, y, hx, hy, ?_⟩
  cases hcached with
  | pushUnknown => exact .inl ⟨rfl, .inl rfl⟩
  | pushed bytes ddag hop => exact .inl ⟨rfl, .inr ⟨ch, _, hch, hop, rfl⟩⟩
  | unknown => exact .inl ⟨rfl, .inl rfl⟩
  | handed d bytes dag _ hport hd =>
    exact .inr ⟨d, d.srcPath, _, _, _, hport, hd, .refl, touched_setDagInfo _ _ ⟨rfl, rfl, rfl⟩,
      ⟨⟨rfl, rfl, rfl⟩, rfl⟩, .inr ⟨_, _, rfl⟩⟩
  | stored d path copy bytes _ hport hd _ _ hpath =>
    exact .inr ⟨d, path, _, _, _, hport, hd, hpath, touched_setDagInfo _ _ ⟨rfl, rfl, rfl⟩,
      ⟨⟨rfl, rfl, rfl⟩, rfl⟩, .inl rfl⟩

/-! ### Events of one kind -/

theorem handle_names {e : Event} (he : e.names = true) (h : s.handle sha1 env e = .ok (s', out)) :
    ∃ q d', ((s.portToDagInfo.lookup q).getD (DagInfo.new env.junk)).Renamed d' ∧
      Touched s s' q d' ∧ s'.portToActive = s.portToActive ∧
      s'.pendingConnectionBuf = s.pendingConnectionBuf ∧ s'.timer = s.timer ∧
      ((∃ p, out = [.network p]) ∨ ∃ c rc ec, out = [.api q (.result c rc ec)]) := by
  cases e with
  | xbind q sdag =>
    obtain ⟨d, d', x, hd, hbind, ht, hsame, rc, ec, rfl⟩ := xbind_eq_ok h
    refine ⟨q, d', ?_, ht, hsame.1.2, hsame.1.3, hsame.timer, .inr ⟨_, rc, ec, rfl⟩⟩
    rw [hd]
    exact bindSocket_eq_ok hbind
  | xbindPush q sdag =>
    obtain ⟨d, d', x, hd, hbind, ht, hsame, rc, ec, rfl⟩ := xbindPush_eq_ok h
    refine ⟨q, d', ?_, ht, hsame.1.2, hsame.1.3, hsame.timer, .inr ⟨_, rc, ec, rfl⟩⟩
    rw [hd]
    exact bindSocket_eq_ok hbind
  | xsendto q ddag payload =>
    obtain ⟨_, _, _, _, _, p, rfl, h₁, h₂, h₃, -, ht, hsame, rfl⟩ := xsendto_eq_ok h
    obtain ⟨path, rfl⟩ := bindEphemeral_named h₁ h₂ h₃
    exact ⟨q, _, ⟨_, _, _, _, _, rfl⟩, ht, hsame.1.2, hsame.1.3, hsame.2, .inl ⟨p, rfl⟩⟩
  | xpushChunkto q cid ddag payload params =>
    obtain ⟨_, _, _, p, -, -, -, ht, -, hactive, hpending, htimer, rfl⟩ := xpushChunkto_eq_ok h
    exact ⟨q, _, ⟨_, _, _, _, _, rfl⟩, ht, hactive, hpending, htimer, .inl ⟨p, rfl⟩⟩
  | _ => cases he

theorem handle_sparesSockets {e : Event} (he : e.sparesSockets = true)
    (h : s.handle sha1 env e = .ok (s', out)) :
    s'.portToDagInfo = s.portToDagInfo ∧ s'.noDagInfo = s.noDagInfo ∧ SameTimer s s' := by
  have hmoved : Readdressed s s' → s'.portToDagInfo = s.portToDagInfo ∧
      s'.noDagInfo = s.noDagInfo ∧ SameTimer s s' := by
    rintro ⟨addr, hid, rfl⟩
    exact ⟨rfl, rfl, ⟨rfl, rfl, rfl⟩, rfl⟩
  cases e with
  | xsetsockopt q t i =>
    obtain ⟨hun, hsame, -⟩ := xsetsockopt_eq_ok h
    exact ⟨hun.portToDagInfo, hun.noDagInfo, hsame⟩
  | xgetChunkStatus q dags =>
    obtain ⟨rfl, -⟩ := xgetChunkStatus_eq_ok h
    exact ⟨rfl, rfl, ⟨rfl, rfl, rfl⟩, rfl⟩
  | xchangead | xhcp | writeParam => exact hmoved (handle_readdresses rfl h).1
  | _ => cases he

end XTransport

end Xia
