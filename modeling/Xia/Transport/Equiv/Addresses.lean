import Xia.Transport.Equiv.Missing

/-!
# Addresses that cannot be read

`XIAPath::parse` fails after it has cleared the path that it is to fill, unless already the first
word of the text is wrong.  So `Xbind` reports the failure and yet loses the source path of the
socket, and `Xconnect`, `Xsendto` and `XrequestChunk`, which do not look at the result of `parse`,
go on with a path that has no destination.

`rejectsCleanly_iff` says when a call with such an address is rejected without further effect.
-/

namespace Xia

namespace XiaPath

variable {p : XiaPath} {w : Text}

/-- The first word of the text is the type of an address. -/
def Typed (w : Text) : Prop :=
  (cpSpacevec w).head? = some ['D', 'A', 'G'] ∨ (cpSpacevec w).head? = some ['R', 'E']

instance (w : Text) : Decidable (Typed w) := inferInstanceAs (Decidable (_ ∨ _))

theorem parse_of_not_typed (h : ¬ Typed w) : p.parse w = (false, p) := by
  rw [Typed, not_or] at h
  unfold parse
  split
  · rename_i type ws hws
    simp only [hws, List.head?_cons, Option.some.injEq] at h
    rw [if_neg h.1, if_neg h.2]
  · rfl

theorem parse_of_typed (p p' : XiaPath) (h : Typed w) : p.parse w = p'.parse w := by
  unfold parse
  split
  · rename_i type ws hws
    simp only [Typed, hws, List.head?_cons, Option.some.injEq] at h
    split_ifs with hdag hre
    · rfl
    · rfl
    · exact absurd h (by simp [hdag, hre])
  · rename_i hws
    exact absurd h (by simp [Typed, hws])

theorem parse_fst_congr (p p' : XiaPath) : (p.parse w).1 = (p'.parse w).1 := by
  by_cases h : Typed w
  · rw [parse_of_typed p p' h]
  · rw [parse_of_not_typed h, parse_of_not_typed h]

theorem dst_parseDagWords {ws : List Text} (h : (parseDagWords ws).1 = false) :
    (parseDagWords ws).2.dst = none := by
  revert h
  unfold parseDagWords
  split
  · simp [empty]
  · split <;> simp

theorem dst_parseReWords {ws : List Text} (h : (parseReWords ws).1 = false) :
    (parseReWords ws).2.dst = none := by
  revert h
  unfold parseReWords
  split
  · simp
  · split_ifs <;> simp [empty]

/-- A text that cannot be read leaves a new path without a destination. -/
theorem destXid_parse_ne_ok (h : (empty.parse w).1 = false) (x : Xid) :
    (empty.parse w).2.destXid ≠ .ok x := by
  have hdst : (empty.parse w).2.dst = none := by
    revert h
    unfold parse
    split
    · split_ifs
      · exact dst_parseDagWords
      · exact dst_parseReWords
      · simp [empty]
    · simp [empty]
  simp [destXid, destinationNode, hdst, xid, inBounds_eq_ok]

end XiaPath

namespace XTransport

variable {sha1 : Sha1} {env : Env} {s : XTransport} {q : UInt16} {d d' : DagInfo}
  {sdag ddag : Text} {payload : List UInt8} {dags : List Text}

/-! ### Calls with an address -/

inductive AddressCall where
  | bind (sdag : Text)
  | connect (ddag : Text)
  | sendto (ddag : Text) (payload : List UInt8)
  | requestChunk (payload : List UInt8) (dags : List Text)

def AddressCall.event (sport : UInt16) : AddressCall → Event
  | .bind sdag => .xbind sport sdag
  | .connect ddag => .xconnect sport ddag
  | .sendto ddag payload => .xsendto sport ddag payload
  | .requestChunk payload dags => .xrequestChunk sport payload dags

def Parses (w : Text) : Prop := (XiaPath.empty.parse w).1 = true

instance (w : Text) : Decidable (Parses w) := inferInstanceAs (Decidable (_ = _))

def AddressCall.Unparseable : AddressCall → Prop
  | .bind sdag => ¬ Parses sdag
  | .connect ddag | .sendto ddag _ => ¬ Parses (cStr ddag)
  | .requestChunk _ dags => ∃ dag ∈ dags, ¬ Parses (cStr dag)

/-- The sockets and all tables are as before. -/
structure Unaltered (s s' : XTransport) : Prop where
  sockets : ∀ q, s'.portToDagInfo.lookup q = s.portToDagInfo.lookup q
  others : { s' with portToDagInfo := s.portToDagInfo } = s

/-- The call returns; `Xbind` has reported the failure and changed nothing, and the others have sent
no packet for an address that cannot be read. -/
def RejectsCleanly (sha1 : Sha1) (env : Env) (s : XTransport) (sport : UInt16) (c : AddressCall) :
    Prop :=
  ∃ s' out, s.handle sha1 env (c.event sport) = .ok (s', out) ∧
    match c with
    | .bind _ => out = [.api sport (.result .xbind (-1) eaddrnotavail)] ∧ Unaltered s s'
    | .connect _ | .sendto _ _ => netPackets out = []
    | .requestChunk _ dags => (netPackets out).length ≤ dags.countP fun dag => Parses (cStr dag)

/-! ### Binding -/

/-- The source path of the socket survives the attempt to read the text. -/
def KeepsPath (d : DagInfo) (sdag : Text) : Prop :=
  ¬ XiaPath.Typed sdag ∨ d.srcPath = (XiaPath.empty.parse sdag).2

instance (d : DagInfo) (sdag : Text) : Decidable (KeepsPath d sdag) :=
  inferInstanceAs (Decidable (_ ∨ _))

theorem keepsPath_iff : KeepsPath d sdag ↔ (d.srcPath.parse sdag).2 = d.srcPath := by
  unfold KeepsPath
  by_cases h : XiaPath.Typed sdag
  · rw [XiaPath.parse_of_typed d.srcPath XiaPath.empty h]
    simp [h, eq_comm]
  · simp [h, XiaPath.parse_of_not_typed h]

theorem xbind_of_not_parses (hd : s.portToDagInfo.lookup q = some d) (h : ¬ Parses sdag) :
    s.xbind q sdag = .ok (s.setDagInfo q { d with srcPath := (d.srcPath.parse sdag).2 },
      [.api q (.result .xbind (-1) eaddrnotavail)]) := by
  have hfst : (d.srcPath.parse sdag).1 = false := by
    rw [XiaPath.parse_fst_congr d.srcPath XiaPath.empty]
    exact Bool.eq_false_of_not_eq_true h
  simp only [xbind, hd, deref_some, Result.ok_bind, bindSocket, hfst]
  rfl

theorem unaltered_setDagInfo_iff (hd : s.portToDagInfo.lookup q = some d) :
    Unaltered s (s.setDagInfo q d') ↔ d' = d := by
  constructor
  · intro h
    have hq := h.sockets q
    rw [lookup_setDagInfo, if_pos rfl, hd] at hq
    exact Option.some.inj hq
  · rintro rfl
    refine ⟨fun q' => ?_, rfl⟩
    rw [lookup_setDagInfo]
    split_ifs with heq
    · rw [heq, hd]
    · rfl

theorem rejectsCleanly_bind_iff (h : ¬ Parses sdag) : RejectsCleanly sha1 env s q (.bind sdag) ↔
      ∃ d, s.portToDagInfo.lookup q = some d ∧ KeepsPath d sdag := by
  constructor
  · rintro ⟨s', out, hs, -, hsame⟩
    obtain ⟨d, d', x, hd, -⟩ := xbind_eq_ok hs
    change s.xbind q sdag = _ at hs
    rw [xbind_of_not_parses hd h] at hs
    cases hs
    rw [unaltered_setDagInfo_iff hd] at hsame
    exact ⟨d, hd, keepsPath_iff.2 (congrArg DagInfo.srcPath hsame)⟩
  · rintro ⟨d, hd, hkeeps⟩
    refine ⟨_, _, xbind_of_not_parses hd h, rfl, (unaltered_setDagInfo_iff hd).2 ?_⟩
    rw [keepsPath_iff.1 hkeeps]

/-! ### Sending -/

/-- `Xconnect` looks the destination of the failed path up. -/
theorem not_rejectsCleanly_connect (h : ¬ Parses (cStr ddag)) :
    ¬ RejectsCleanly sha1 env s q (.connect ddag) := by
  rintro ⟨s', out, hs, -⟩
  change s.xconnect env q ddag = _ at hs
  simp only [xconnect, DagInfo.xconnect, Result.bind_eq_ok] at hs
  obtain ⟨d, ⟨addr, -, hd⟩, x, -, y, hy, -⟩ := hs
  obtain rfl := Except.ok.inj hd
  exact XiaPath.destXid_parse_ne_ok (Bool.eq_false_of_not_eq_true h) y hy

/-- `Xsendto` sends a packet to whatever is left of the address. -/
theorem not_rejectsCleanly_sendto : ¬ RejectsCleanly sha1 env s q (.sendto ddag payload) := by
  rintro ⟨s', out, hs, hnone⟩
  obtain ⟨d, d₁, d₂, d₃, s₁, p, -, -, -, -, -, -, -, rfl⟩ := xsendto_eq_ok hs
  exact absurd hnone (by simp [netPackets])

theorem requestOne_ne_ok {dag : Text} (h : ¬ Parses (cStr dag)) (r : XTransport × List Output) :
    s.requestOne env q payload dag ≠ .ok r := by
  intro hs
  simp only [requestOne, Result.bind_eq_ok] at hs
  obtain ⟨_, -, _, -, _, -, _, -, _, -, y, hy, -⟩ := hs
  exact XiaPath.destXid_parse_ne_ok (Bool.eq_false_of_not_eq_true h) y hy

/-- `XrequestChunk` goes through all addresses, and none of them may fail. -/
theorem parses_of_xrequestChunk {r : XTransport × List Output}
    (hs : s.xrequestChunk env q payload dags = .ok r) : ∀ dag ∈ dags, Parses (cStr dag) := by
  rw [xrequestChunk_eq_run] at hs
  intro dag hdag
  obtain ⟨before, after, rfl⟩ := List.append_of_mem hdag
  obtain ⟨s₁, _, _, -, hrest, -⟩ := Machine.run_append_eq_ok.1 hs
  obtain ⟨s₂, o₂, _, hone, -⟩ := Machine.run_cons_eq_ok.1 hrest
  exact not_not.1 fun h => requestOne_ne_ok h _ hone

/-- **Which calls with an address that cannot be read are rejected cleanly**: a bind of a socket
whose source path survives, and no other. -/
theorem rejectsCleanly_iff {c : AddressCall} (h : c.Unparseable) : RejectsCleanly sha1 env s q c ↔
      ∃ sdag d, c = .bind sdag ∧ s.portToDagInfo.lookup q = some d ∧ KeepsPath d sdag := by
  cases c with
  | bind sdag => simp [rejectsCleanly_bind_iff h]
  | connect ddag => simp [not_rejectsCleanly_connect h]
  | sendto ddag payload => simp [not_rejectsCleanly_sendto]
  | requestChunk payload dags =>
    obtain ⟨dag, hdag, hno⟩ := h
    refine iff_of_false ?_ (by simp)
    rintro ⟨s', out, hs, -⟩
    exact hno (parses_of_xrequestChunk hs dag hdag)

def bindCalls : List Input :=
  [⟨.zero 0, .xsocket 1 xsocketDgram⟩, ⟨.zero 0, .xbind 1 "RE AD:01 HID:02 SID:0a".toList⟩]

def boundHost : XTransport := Machine.last (step Sha1.zero) host bindCalls

theorem reachable_boundHost : Reachable Sha1.zero boundHost := by
  obtain ⟨out, hrun⟩ := Machine.run_last (step Sha1.zero) host bindCalls (by decide +kernel)
  exact ⟨_, _, _, out, hrun⟩

theorem rejectsCleanly_untyped : Reachable Sha1.zero boundHost ∧
    AddressCall.Unparseable (.bind "SID:0b".toList) ∧
    RejectsCleanly Sha1.zero (.zero 0) boundHost 1 (.bind "SID:0b".toList) := by
  have hun : AddressCall.Unparseable (.bind "SID:0b".toList) := by
    change ¬ Parses _
    decide +kernel
  obtain ⟨d, hd⟩ := Option.isSome_iff_exists.1
    (by decide +kernel : (boundHost.portToDagInfo.lookup 1).isSome)
  refine ⟨reachable_boundHost, hun, (rejectsCleanly_iff hun).2 ⟨_, d, rfl, hd, .inl ?_⟩⟩
  decide +kernel

/-- An address of which no node can be read: the bind loses the name of the socket, the packet goes
to no node, and the others look for a node that is not there. -/
theorem not_rejectsCleanly_typed : Reachable Sha1.zero boundHost ∧ ¬ Parses "RE x".toList ∧
    (boundHost.portToDagInfo.lookup 1).map (·.srcPath.nodes.length) = some 4 ∧
    (∃ r, boundHost.xbind 1 "RE x".toList = .ok r ∧
      r.2 = [.api 1 (.result .xbind (-1) eaddrnotavail)] ∧
      (r.1.portToDagInfo.lookup 1).map DagInfo.srcPath = some XiaPath.empty) ∧
    boundHost.xconnect (.zero 0) 1 "RE x".toList = .error .outOfBounds ∧
    (∃ r, boundHost.xsendto (.zero 0) 1 "RE x".toList [7] = .ok r ∧
      (netPackets r.2).map Packet.dnode = [[]]) ∧
    boundHost.xrequestChunk (.zero 0) 1 [7] ["RE x".toList] = .error .outOfBounds := by
  refine ⟨reachable_boundHost, ?_⟩
  decide +kernel

end XTransport

end Xia
