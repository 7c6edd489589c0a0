import Xia.Nameserver.Packet

/-!
# Packets of the name service, in bounds

`make_ns_packet` does not compare the strings with the size of the buffer, and `get_ns_packet` does
not look for the ends of the strings in the bytes that were received.  `nsPackets_inside_iff` says
for which packets and which bytes nothing goes wrong.

A packet that has space in the buffer is read back (`getNsPacket_makeNsPacket`).
-/

namespace Xia

open List Option

namespace Nameserver

variable {ss : List CBytes} {buf : List UInt8}

/-! ### What is written -/

def NsPkt.bytes (np : NsPkt) : List UInt8 :=
  np.type :: np.flags :: ((np.strings.getD []).map terminated).flatten

theorem makeNsPacket_copies (np : NsPkt) {pktSz : Int} (h : pktSz ≠ 0) : (makeNsPacket np pktSz).1 =
      [(0, List.replicate (pktSz % 2 ^ 64).toNat 0), (0, [np.type]), (1, [np.flags])] ++
        Blit.chain ((np.strings.getD []).map terminated) 2 := by
  rw [makeNsPacket, if_neg h]
  cases np.strings with
  | none => rfl
  | some ss => rfl

/-- `make_ns_packet` stays in the buffer if and only if the whole packet has space in it. -/
theorem fits_makeNsPacket_iff (np : NsPkt) (pktSz : Int) :
    Blit.Fits (makeNsPacket np pktSz).1 pktSz.toNat ↔
      pktSz = 0 ∨ (np.bytes.length : Int) ≤ pktSz := by
  by_cases h : pktSz = 0
  · rw [makeNsPacket, if_pos h]
    exact iff_of_true (forall_mem_nil _) (Or.inl h)
  · rw [makeNsPacket_copies np h, Blit.Fits, forall_mem_append]
    simp only [forall_mem_cons, length_replicate, length_singleton]
    have hsize : np.bytes.length = 2 + ((np.strings.getD []).map terminated).flatten.length := by
      rw [NsPkt.bytes, length_cons, length_cons]
      omega
    constructor
    · rintro ⟨⟨-, -, hflags, -⟩, hstrings⟩
      have hrest := (Blit.fits_chain_iff _ hflags).1 hstrings
      omega
    · intro hle
      have hle' := hle.resolve_left h
      refine ⟨⟨?_, ?_, ?_, forall_mem_nil _⟩, (Blit.fits_chain_iff _ ?_).2 ?_⟩ <;> omega

/-! ### What is received -/

/-- The strings at the positions end inside the bytes. -/
def NsFields.Inside (f : NsFields) (bytes : List UInt8) : Prop :=
  (∀ p ∈ f.name, 0 ∈ bytes.drop p) ∧ ∀ p ∈ f.dag, 0 ∈ bytes.drop p

/-- `get_ns_packet` sets only pointers to strings in the bytes that were received, whatever is
behind them. -/
def SetsInside (bytes behind : List UInt8) : Prop :=
  ∃ v, getNsPacket (bytes ++ behind) bytes.length = .ok v ∧ ∀ f ∈ v.fields, f.Inside bytes

def stringCount (type : UInt8) : Nat :=
  if type = nsTypeRegister then 2
  else if type = nsTypeQuery ∨ type = nsTypeResponseQuery then 1
  else 0

/-- The bytes have an end for each string of the packet. -/
def HasStrings : List UInt8 → Prop
  | type :: _ :: text => stringCount type ≤ text.count 0
  | _ => True

theorem two_le_count_iff (l : List UInt8) : 2 ≤ l.count 0 ↔ 0 ∈ l ∧ 0 ∈ l.drop (l.idxOf 0 + 1) := by
  induction l with
  | nil => simp
  | cons b l ih =>
    by_cases hb : b = 0
    · subst hb
      rw [count_cons_self, idxOf_cons_self, drop_succ_cons, drop_zero, ← one_le_count_iff]
      simp
    · rw [count_cons_of_ne hb, idxOf_cons_ne _ hb, drop_succ_cons, ih,
        mem_cons, or_iff_right (Ne.symm hb)]

theorem strlen_two {type flags : UInt8} {text behind : List UInt8} (h : 0 ∈ text) :
    strlen (type :: flags :: (text ++ behind)) 2 = .ok (text.idxOf 0) := by
  rw [strlen, drop_succ_cons, drop_succ_cons, drop_zero,
    if_pos (mem_append_left _ h), idxOf_append_of_mem h]

theorem drop_name (type flags : UInt8) (text : List UInt8) (n : Nat) :
    (type :: flags :: text).drop (2 + n + 1) = text.drop (n + 1) := by
  rw [show 2 + n + 1 = n + 1 + 1 + 1 by omega, drop_succ_cons, drop_succ_cons]

theorem exists_ok_iff {w : NsView} {P : NsView → Prop} :
    (∃ v, (.ok w : Result NsView) = .ok v ∧ P v) ↔ P w := by
  simp

theorem getNsPacket_cons (type flags : UInt8) (mem : List UInt8) {sz : Int} (h : 2 ≤ sz) :
    getNsPacket (type :: flags :: mem) sz =
      if type = nsTypeQuery then .ok ⟨type, some ⟨flags, some 2, none⟩⟩
      else if type = nsTypeRegister then do
        let n ← strlen (type :: flags :: mem) 2
        return ⟨type, some ⟨flags, some 2, some (2 + n + 1)⟩⟩
      else if type = nsTypeResponseQuery then .ok ⟨type, some ⟨flags, none, some 2⟩⟩
      else .ok ⟨type, some ⟨flags, none, none⟩⟩ := by
  rw [getNsPacket, if_neg (not_lt.2 h)]
  rfl

theorem setsInside_cons_iff (type flags : UInt8) (text behind : List UInt8) :
    SetsInside (type :: flags :: text) behind ↔ stringCount type ≤ text.count 0 := by
  have hsz : (2 : Int) ≤ (type :: flags :: text).length := by
    rw [length_cons, length_cons]
    omega
  rw [SetsInside, cons_append, cons_append, getNsPacket_cons _ _ _ hsz]
  by_cases hquery : type = nsTypeQuery
  · subst hquery
    rw [if_pos rfl, exists_ok_iff]
    simp [NsFields.Inside, stringCount, nsTypeQuery, nsTypeRegister]
  rw [if_neg hquery]
  by_cases hregister : type = nsTypeRegister
  · subst hregister
    rw [if_pos rfl, show stringCount nsTypeRegister = 2 from rfl, two_le_count_iff]
    constructor
    · rintro ⟨v, hv, hinside⟩
      obtain ⟨n, hn, hret⟩ := Result.bind_eq_ok.1 hv
      cases hret
      obtain ⟨hname, hdag⟩ := hinside _ rfl
      have htext : 0 ∈ text := hname 2 rfl
      -- the name ends in the bytes, so `strlen` has not looked behind them
      rw [strlen_two htext] at hn
      obtain rfl := Except.ok.inj hn
      refine ⟨htext, ?_⟩
      have hdrop := hdag _ rfl
      rwa [drop_name] at hdrop
    · rintro ⟨htext, hdrop⟩
      rw [strlen_two htext, Result.ok_bind]
      refine exists_ok_iff.2 ?_
      rintro f ⟨⟩
      refine ⟨?_, ?_⟩
      · rintro p ⟨⟩
        exact htext
      · rintro p ⟨⟩
        rwa [drop_name]
  rw [if_neg hregister]
  by_cases hresponse : type = nsTypeResponseQuery
  · subst hresponse
    rw [if_pos rfl, exists_ok_iff]
    simp [NsFields.Inside, stringCount, nsTypeResponseQuery, nsTypeRegister]
  · rw [if_neg hresponse, exists_ok_iff]
    simp [NsFields.Inside, stringCount, hquery, hregister, hresponse]

theorem setsInside_iff (bytes behind : List UInt8) :
    SetsInside bytes behind ↔ HasStrings bytes := by
  cases bytes with
  | nil => exact iff_of_true ⟨_, rfl, nofun⟩ trivial
  | cons type rest =>
    cases rest with
    | nil => exact iff_of_true ⟨_, rfl, nofun⟩ trivial
    | cons flags text => exact setsInside_cons_iff type flags text behind

/-- **A packet is made inside the buffer if and only if it has space there, and the pointers to a
packet are inside the bytes that were received if and only if all its strings end there.** -/
theorem nsPackets_inside_iff (np : NsPkt) (pktSz : Int) (bytes behind : List UInt8) :
    (Blit.Fits (makeNsPacket np pktSz).1 pktSz.toNat ↔
      pktSz = 0 ∨ (np.bytes.length : Int) ≤ pktSz) ∧
    (SetsInside bytes behind ↔ HasStrings bytes) :=
  ⟨fits_makeNsPacket_iff np pktSz, setsInside_iff bytes behind⟩

/-- A query for a name of 1022 bytes, whose zero is behind a buffer of 1024 bytes. -/
def longQuery : NsPkt := ⟨nsTypeQuery, 0, some (List.replicate 1022 ⟨97, by decide⟩), none⟩

/-- The long query, and a query of three bytes without a zero that is followed by one. -/
theorem not_nsPackets_inside :
    ¬ Blit.Fits (makeNsPacket longQuery 1024).1 1024 ∧ ¬ SetsInside [2, 0, 97] [0] := by
  constructor
  · intro h
    rcases (fits_makeNsPacket_iff longQuery 1024).1 h with h0 | hle
    · exact absurd h0 (by decide)
    · exact absurd hle (by decide +kernel)
  · rw [setsInside_iff]
    exact fun h => absurd (show 1 ≤ [97].count (0 : UInt8) from h) (by decide)

/-! ### Packets that arrive -/

def stringAt (mem : List UInt8) (off : Nat) : List UInt8 := (mem.drop off).takeWhile (· ≠ 0)

theorem not_mem_val (s : CBytes) : 0 ∉ s.map Subtype.val := by
  intro h
  obtain ⟨b, -, hb⟩ := List.mem_map.1 h
  exact b.2 hb

theorem takeWhile_terminated (s : CBytes) (l : List UInt8) :
    (terminated s ++ l).takeWhile (· ≠ 0) = s.map Subtype.val := by
  rw [terminated, append_assoc, takeWhile_append_of_pos]
  · simp
  · intro b hb
    exact decide_eq_true fun h0 => not_mem_val s (h0 ▸ hb)

theorem length_terminated (s : CBytes) : (terminated s).length = s.length + 1 := by
  rw [terminated, length_append, length_map, length_singleton]

theorem zero_mem_terminated (s : CBytes) : 0 ∈ terminated s :=
  mem_append_right _ mem_cons_self

theorem idxOf_terminated (s : CBytes) (rest : List UInt8) :
    (terminated s ++ rest).idxOf 0 = s.length := by
  rw [idxOf_append_of_mem (zero_mem_terminated s), terminated,
    idxOf_append_of_notMem (not_mem_val s), length_map]
  simp

theorem strlen_terminated (type flags : UInt8) (s : CBytes) (l : List UInt8) :
    strlen (type :: flags :: (terminated s ++ l)) 2 = .ok s.length := by
  have hidx := idxOf_terminated s []
  rw [append_nil] at hidx
  rw [strlen_two (zero_mem_terminated s), hidx]

theorem stringAt_two (type flags : UInt8) (s : CBytes) (l : List UInt8) :
    stringAt (type :: flags :: (terminated s ++ l)) 2 = s.map Subtype.val :=
  takeWhile_terminated s l

theorem stringAt_behind (type flags : UInt8) (s t : CBytes) (l : List UInt8) :
    stringAt (type :: flags :: (terminated s ++ (terminated t ++ l))) (2 + s.length + 1) =
      t.map Subtype.val := by
  rw [stringAt, drop_name, drop_left' (length_terminated s), takeWhile_terminated]

/-- The name that the packet carries: that of a request. -/
def NsPkt.sentName (np : NsPkt) : Option CBytes :=
  if np.type = nsTypeRegister ∨ np.type = nsTypeQuery then np.name else none

/-- The DAG that the packet carries: the one to register, or the answer. -/
def NsPkt.sentDag (np : NsPkt) : Option CBytes :=
  if np.type = nsTypeRegister ∨ np.type = nsTypeResponseQuery then np.dag else none

/-- The pointers of the fields lead to the name and to the DAG of the packet, and one that it does
not carry is `NULL`. -/
structure ReadBack (np : NsPkt) (pkt : List UInt8) (f : NsFields) : Prop where
  flags : f.flags = np.flags
  name : f.name.map (stringAt pkt) = np.sentName.map (List.map Subtype.val)
  dag : f.dag.map (stringAt pkt) = np.sentDag.map (List.map Subtype.val)

/-- **The pointers lead to the strings of the packet.** -/
theorem getNsPacket_bytes {np : NsPkt} (hss : np.strings = some ss) (behind : List UInt8) : ∃ f,
      getNsPacket (np.bytes ++ behind) np.bytes.length = .ok ⟨np.type, some f⟩ ∧
      ReadBack np (np.bytes ++ behind) f := by
  have hsz : (2 : Int) ≤ np.bytes.length := by
    rw [NsPkt.bytes, length_cons, length_cons]
    omega
  rw [NsPkt.bytes, hss, getD_some] at hsz ⊢
  rw [cons_append, cons_append, getNsPacket_cons _ _ _ hsz]
  rw [NsPkt.strings] at hss
  split_ifs at hss with hregister hquery hresponse
  · obtain ⟨name, hname, hss⟩ := bind_eq_some_iff.1 hss
    obtain ⟨dag, hdag, hss⟩ := bind_eq_some_iff.1 hss
    obtain rfl := Option.some.inj hss
    have htext : ([name, dag].map terminated).flatten ++ behind =
        terminated name ++ (terminated dag ++ behind) := by simp
    rw [hregister, if_neg (by decide), if_pos rfl, htext, strlen_terminated]
    refine ⟨_, rfl, rfl, ?_, ?_⟩
    · rw [map_some, stringAt_two, NsPkt.sentName, if_pos (.inl hregister), hname, map_some]
    · rw [map_some, stringAt_behind, NsPkt.sentDag, if_pos (.inl hregister), hdag, map_some]
  · obtain ⟨name, hname, hss⟩ := bind_eq_some_iff.1 hss
    obtain rfl := Option.some.inj hss
    rw [if_pos hquery]
    refine ⟨_, rfl, rfl, ?_, ?_⟩
    · rw [map_some, NsPkt.sentName, if_pos (.inr hquery), hname, map_some]
      simp [stringAt_two]
    · rw [NsPkt.sentDag, hquery, if_neg (by decide)]
      rfl
  · obtain ⟨dag, hdag, hss⟩ := bind_eq_some_iff.1 hss
    obtain rfl := Option.some.inj hss
    rw [if_neg hquery, if_neg hregister, if_pos hresponse]
    refine ⟨_, rfl, rfl, ?_, ?_⟩
    · rw [NsPkt.sentName, hresponse, if_neg (by decide)]
      rfl
    · rw [map_some, NsPkt.sentDag, if_pos (.inr hresponse), hdag, map_some]
      simp [stringAt_two]
  · obtain rfl := Option.some.inj hss
    rw [if_neg hquery, if_neg hregister, if_neg hresponse]
    refine ⟨_, rfl, rfl, ?_, ?_⟩
    · rw [NsPkt.sentName, if_neg (by simp [hregister, hquery])]
      rfl
    · rw [NsPkt.sentDag, if_neg (by simp [hregister, hresponse])]
      rfl

theorem fill_start (np : NsPkt) (hpos : 2 ≤ buf.length) (hsize : buf.length < 2 ^ 31) :
    Blit.fill [(0, List.replicate ((buf.length : Int) % 2 ^ 64).toNat 0), (0, [np.type]),
        (1, [np.flags])] buf =
      [np.type, np.flags] ++ List.replicate (buf.length - 2) 0 := by
  have hmod : ((buf.length : Int) % 2 ^ 64).toNat = buf.length := by omega
  obtain ⟨m, hm⟩ := Nat.exists_eq_add_of_le' hpos
  change Blit.blit 1 _ (Blit.blit 0 _ (Blit.blit 0 _ buf)) = _
  rw [hmod, Blit.blit_all length_replicate, hm]
  rfl

/-- `make_ns_packet` leaves the packet at the beginning of the buffer, and returns its size. -/
theorem take_fill_makeNsPacket {np : NsPkt} (hss : np.strings = some ss)
    (hlen : np.bytes.length ≤ buf.length) (hsize : buf.length < 2 ^ 31) :
    (Blit.fill (makeNsPacket np buf.length).1 buf).take (makeNsPacket np buf.length).2 =
      np.bytes := by
  have hbytes : np.bytes = [np.type, np.flags] ++ (ss.map terminated).flatten := by
    rw [NsPkt.bytes, hss]
    rfl
  have hpos : 2 ≤ buf.length := by
    rw [hbytes, length_append, length_cons, length_singleton] at hlen
    omega
  have hne : (buf.length : Int) ≠ 0 := by omega
  have hret : (makeNsPacket np buf.length).2 = np.bytes.length := by
    rw [makeNsPacket, if_neg hne, hss, hbytes, length_append]
    rfl
  rw [hret, makeNsPacket_copies np hne, hss, getD_some, Blit.fill_append, fill_start np hpos hsize]
  change ((Blit.fill (Blit.chain _ [np.type, np.flags].length) _).take _) = _
  rw [Blit.fill_chain, ← hbytes, take_left]

/-- **A packet for which there is space is read back.** -/
theorem getNsPacket_makeNsPacket {np : NsPkt} (hss : np.strings = some ss)
    (hlen : np.bytes.length ≤ buf.length) (hsize : buf.length < 2 ^ 31) (behind : List UInt8) :
    ∃ pkt f,
      pkt = (Blit.fill (makeNsPacket np buf.length).1 buf).take (makeNsPacket np buf.length).2 ∧
      getNsPacket (pkt ++ behind) pkt.length = .ok ⟨np.type, some f⟩ ∧
      ReadBack np (pkt ++ behind) f := by
  obtain ⟨f, hf⟩ := getNsPacket_bytes hss behind
  exact ⟨np.bytes, f, (take_fill_makeNsPacket hss hlen hsize).symm, hf⟩

/-- A query for the name `a`, in a buffer of four bytes. -/
theorem getNsPacket_makeNsPacket_query :
    let np : NsPkt := ⟨nsTypeQuery, 0, some [⟨97, by decide⟩], none⟩
    ∃ pkt f, pkt = (Blit.fill (makeNsPacket np 4).1 [0, 0, 0, 0]).take (makeNsPacket np 4).2 ∧
      getNsPacket (pkt ++ [9]) pkt.length = .ok ⟨nsTypeQuery, some f⟩ ∧
      ReadBack np (pkt ++ [9]) f := by
  intro np
  exact @getNsPacket_makeNsPacket _ [0, 0, 0, 0] np rfl (by decide) (by decide) [9]

end Nameserver

end Xia
