import Xia.Equiv.Words
import Xia.Router.Handlers

/-!
# The texts of route commands

A call of a write handler asks for a `Command`, and that is said twice.  `Call.command` reads the
text as the handlers do.  `Says` goes the other way, from the command to its texts: the arguments of
`add4` and `set4` stand between commas, those of `add` and `set` are two words, and `updateRoute`
makes the text of a request.  `Says.command_eq`: the handlers read these texts as they are meant.
-/

namespace Xia

open List Option

/-- What a call asks for.  A route without a destination is the default route. -/
inductive Command
  | ignore
  | put (addMode : Bool) (dest : Option Xid) (data : RouteData)
  | remove (dest : Option Xid)

namespace RouteTable

variable {query : Text → Option Xid}

/-! ### The reader -/

def dest (query : Text → Option Xid) (xidStr : Text) : Option (Option Xid) :=
  if xidStr = ['-'] then some none else (cpXid query xidStr).map some

def command4 (query : Text → Option Xid) (addMode : Bool) (conf : Text) : Option Command :=
  match parseRoute query conf with
  | .error _ => none
  | .ok (xidStr, data) => (dest query xidStr).map fun x => .put addMode x data

def command2 (query : Text → Option Xid) (addMode : Bool) (conf : Text) : Option Command :=
  let (xidStr, strCopy) := cpShiftSpacevec conf
  if xidStr = [] then some .ignore
  else (cpInteger true strCopy).bind fun port =>
    command4 query addMode (oldStyleRoute xidStr port)

def Call.command (query : Text → Option Xid) : Call → Option Command
  | .add conf => command2 query true conf
  | .set conf => command2 query false conf
  | .add4 conf => command4 query true conf
  | .set4 conf => command4 query false conf
  | .remove xidStr => if xidStr = [] then some .ignore else (dest query xidStr).map .remove

/-! ### What the texts say -/

/-- The text names a destination: the default route, an XID, or an XID by a name that `query`
knows. -/
inductive Names (query : Text → Option Xid) : Text → Option Xid → Prop
  | default : Names query ['-'] none
  | xid {x : Xid} (htype : Xid.Named x.type) (hquery : query x.unparse = none) :
      Names query x.unparse (some x)
  | name {w : Text} {x : Xid} (hw : IsArg w) (hne : w ≠ []) (hdash : w ≠ ['-'])
      (hquery : query w = some x) : Names query w (some x)

/-- The text names a next hop, or is empty. -/
inductive NamesHop (query : Text → Option Xid) : Text → Option Xid → Prop
  | none : NamesHop query [] none
  | some {w : Text} {y : Xid} (hw : Names query w (some y)) (hvalid : y.valid = true) :
      NamesHop query w (some y)

/-- The arguments behind the port: the next hop and the flags can be left out. -/
inductive Options (query : Text → Option Xid) : List Text → UInt32 → Option Xid → Prop
  | none : Options query [] 0 none
  | hop {w : Text} {y : Xid} (hw : NamesHop query w (some y)) : Options query [w] 0 (some y)
  | flags {w : Text} {hop : Option Xid} (hw : NamesHop query w hop) (flags : UInt32) :
      Options query [w, XiaPath.decimal flags.toNat] flags hop

def IsInt (n : Int) : Prop := -2 ^ 31 ≤ n ∧ n < 2 ^ 31

/-- The text with which the client names a destination; the default route is that of a type. -/
inductive Addresses : Text → Option Xid → Prop
  | xid {x : Xid} (htype : Xid.Named x.type) : Addresses x.unparse (some x)
  | default {type : Text} (htype : ':' ∉ type) (rest : Text) :
      Addresses (type ++ ':' :: '-' :: rest) none

def asked (dest : Option Xid) (data : RouteData) : XiaRouter.Cmd → Command
  | .add4 => .put true dest data
  | .set4 => .put false dest data
  | .remove => .remove dest

def Call.put4 (addMode : Bool) : Text → Call := if addMode then .add4 else .set4

def Call.put2 (addMode : Bool) : Text → Call := if addMode then .add else .set

inductive Says (query : Text → Option Xid) : Call → Command → Prop
  | arguments (addMode : Bool) {w : Text} {dest : Option Xid} {data : RouteData} {more : List Text}
      (hw : Names query w dest) (hport : IsInt data.port)
      (hmore : Options query more data.flags data.nexthop) :
      Says query (.put4 addMode (withCommas w (itoa data.port :: more))) (.put addMode dest data)
  | words (addMode : Bool) {w : Text} {dest : Option Xid} {port : Int} (hw : Names query w dest)
      (hport : IsInt port) :
      Says query (.put2 addMode (w ++ [' '] ++ itoa port)) (.put addMode dest ⟨port, 0, none⟩)
  | remove {w : Text} {dest : Option Xid} (hw : Names query w dest) :
      Says query (.remove w) (.remove dest)
  | client {cmd : XiaRouter.Cmd} {xid next type : Text} {dest : Option Xid} {data : RouteData}
      {flags : UInt64} {c : Call} (hxid : Addresses xid dest)
      (hquery : ∀ x ∈ dest, query x.unparse = none) (hnext : NamesHop query next data.nexthop)
      (hport : IsInt data.port) (hflags : flags.toNat = data.flags.toNat)
      (hlt : flags.toNat < 2 ^ 31)
      (h : XiaRouter.updateRoute cmd xid data.port next flags = some (type, c)) :
      Says query c (asked dest data cmd)

/-! ### Numbers -/

theorem not_mem_itoa {c : Char} (hdigit : c.isDigit = false) (hsign : c ≠ '-') (n : Int) :
    c ∉ itoa n := by
  intro hmem
  rw [itoa, mem_append] at hmem
  rcases hmem with hmem | hmem
  · split at hmem
    · exact hsign (mem_singleton.1 hmem)
    · cases hmem
  · exact XiaPath.not_mem_decimal hdigit _ hmem

theorem itoa_of_nonneg {n : Int} (hn : 0 ≤ n) : itoa n = XiaPath.decimal n.toNat := by
  rw [itoa, if_neg (by omega), nil_append, show n.natAbs = n.toNat by omega]

theorem isArg_decimal (n : Nat) : IsArg (XiaPath.decimal n) := fun c hc =>
  ⟨all_eq_true.1 (XiaPath.isWord_decimal n).plain c hc,
    fun h => XiaPath.not_mem_decimal (c := ',') rfl n (h ▸ hc)⟩

theorem isArg_itoa (n : Int) : IsArg (itoa n) := by
  intro c hc
  rw [itoa, mem_append] at hc
  rcases hc with hc | hc
  · split_ifs at hc
    · rw [mem_singleton.1 hc]
      decide
    · cases hc
  · exact isArg_decimal _ c hc

theorem itoa_ne_nil (n : Int) : itoa n ≠ [] := by
  simp [itoa, (XiaPath.isWord_decimal n.natAbs).ne]

theorem cpInteger_itoa {n : Int} (hn : IsInt n) : cpInteger true (itoa n) = some n := by
  obtain ⟨hlow, hhigh⟩ := hn
  by_cases hneg : n < 0
  · obtain ⟨b, hbase, hspan⟩ := XiaPath.exists_digitSpan_decimal n.natAbs
    have hlength := length_pos_iff.2 (XiaPath.isWord_decimal n.natAbs).ne
    rw [itoa, if_pos hneg, singleton_append]
    simp only [cpInteger, head?_cons, tail_cons, decide_true, Bool.and_self, Bool.true_or, if_true,
      hbase, hspan]
    rw [if_neg (by omega), Option.some.injEq]
    omega
  · rw [itoa_of_nonneg (by omega), XiaPath.cpInteger_decimal (by omega), Int.toNat_of_nonneg]
    omega

theorem cpInteger_flags (n : UInt32) :
    cpInteger false (XiaPath.decimal n.toNat) = some (n.toNat : Int) := by
  obtain ⟨b, hbase, hspan⟩ := XiaPath.exists_digitSpan_decimal n.toNat
  have hlength := length_pos_iff.2 (XiaPath.isWord_decimal n.toNat).ne
  have hlt := n.toNat_lt
  simp only [cpInteger, Bool.false_and, Bool.false_or,
    XiaPath.head?_decimal_ne n.toNat (show '+'.isDigit = false from rfl), decide_false,
    Bool.false_eq_true, if_false, hbase, hspan]
  rw [if_neg (by omega), Nat.min_eq_left (by omega)]

/-! ### The texts are read -/

theorem isArg_unparse (x : Xid) : IsArg x.unparse := fun c hc =>
  ⟨all_eq_true.1 x.isWord_unparse.plain c hc,
    fun h => absurd (Xid.mem_unparse (h ▸ hc)) (by decide)⟩

namespace Names

variable {w : Text} {dest : Option Xid}

theorem isArg (h : Names query w dest) : IsArg w := by
  cases h with
  | default => exact fun c hc => by rw [mem_singleton.1 hc]; decide
  | xid => exact isArg_unparse _
  | name hw => exact hw

theorem ne_nil (h : Names query w dest) : w ≠ [] := by
  cases h with
  | default => decide
  | xid => exact (Xid.isWord_unparse _).ne
  | name _ hne => exact hne

theorem cpXid_eq {x : Xid} (h : Names query w (some x)) : cpXid query w = some x := by
  cases h with
  | xid htype hquery => rw [cpXid, hquery, none_or, Xid.parse_unparse htype]
  | name _ _ _ hquery => rw [cpXid, hquery, some_or]

theorem dest_eq (h : Names query w dest) : RouteTable.dest query w = some dest := by
  cases dest with
  | none =>
    cases h
    rfl
  | some x =>
    have hdash : w ≠ ['-'] := by
      cases h with
      | xid => exact fun heq => absurd (heq ▸ Xid.colon_mem_unparse x) (by decide)
      | name _ _ hdash => exact hdash
    rw [RouteTable.dest, if_neg hdash, h.cpXid_eq, map_some]

end Names

namespace NamesHop

variable {w : Text} {hop : Option Xid}

theorem isArg (h : NamesHop query w hop) : IsArg w := by
  cases h with
  | none => exact nofun
  | some hw => exact hw.isArg

theorem ne_nil {y : Xid} (h : NamesHop query w (Option.some y)) : w ≠ [] := by
  cases h with
  | some hw => exact hw.ne_nil

theorem parseNexthop_eq (h : NamesHop query w hop) : parseNexthop query w = .ok hop := by
  cases h with
  | none => rfl
  | some hw hvalid =>
    rw [parseNexthop, if_neg hw.ne_nil, hw.cpXid_eq, Option.filter_some_pos hvalid]

end NamesHop

theorem parseRoute_withCommas {w : Text} {more : List Text} {data : RouteData} (hw : IsArg w)
    (hport : IsInt data.port) (hmore : Options query more data.flags data.nexthop) :
    parseRoute query (withCommas w (itoa data.port :: more)) = .ok (w, data) := by
  obtain ⟨port, flags, nexthop⟩ := data
  have hargs (hlast : (w :: itoa port :: more).getLast? ≠ some []) (hargs : ∀ v ∈ more, IsArg v) :
      cpArgvec (withCommas w (itoa port :: more)) = w :: itoa port :: more :=
    cpArgvec_withCommas hw (forall_mem_cons.2 ⟨isArg_itoa port, hargs⟩) hlast
  cases hmore with
  | none =>
    rw [parseRoute, hargs (by simp [itoa_ne_nil]) nofun]
    simp only [length_cons, length_nil, getD_cons_zero, getD_cons_succ, getD_nil, parseFlags,
      getElem?_cons_succ, getElem?_nil, cpInteger_itoa hport]
    rfl
  | hop hhop =>
    have hne := hhop.ne_nil
    rw [parseRoute, hargs (by simpa using hne) (by simpa using hhop.isArg)]
    simp only [length_cons, length_nil, getD_cons_zero, getD_cons_succ, parseFlags,
      getElem?_cons_succ, getElem?_nil, cpInteger_itoa hport, hhop.parseNexthop_eq]
    rfl
  | flags hhop flags =>
    have hne := (XiaPath.isWord_decimal flags.toNat).ne
    rw [parseRoute, hargs (by simpa using hne) (by simpa using ⟨hhop.isArg, isArg_decimal _⟩)]
    simp only [length_cons, length_nil, getD_cons_zero, getD_cons_succ, parseFlags,
      getElem?_cons_succ, getElem?_cons_zero, cpInteger_itoa hport, cpInteger_flags,
      hhop.parseNexthop_eq, Int.toNat_natCast, UInt32.ofNat_toNat]
    rfl

theorem command4_withCommas {w : Text} {dest : Option Xid} {more : List Text} {d : RouteData}
    (hw : Names query w dest) (hport : IsInt d.port) (hmore : Options query more d.flags d.nexthop)
    (addMode : Bool) :
    command4 query addMode (withCommas w (itoa d.port :: more)) = some (.put addMode dest d) := by
  rw [command4, parseRoute_withCommas hw.isArg hport hmore]
  simp only [hw.dest_eq, map_some]

theorem command2_words {w : Text} {dest : Option Xid} {port : Int} (hw : Names query w dest)
    (hport : IsInt port) (addMode : Bool) :
    command2 query addMode (w ++ [' '] ++ itoa port) =
      some (.put addMode dest ⟨port, 0, none⟩) := by
  have hword : IsWord w := ⟨hw.ne_nil, all_eq_true.2 fun c hc => (hw.isArg c hc).1⟩
  have hnumber : IsWord (itoa port) :=
    ⟨itoa_ne_nil port, all_eq_true.2 fun c hc => (isArg_itoa port c hc).1⟩
  have hskip : cpSkipCommentSpace (' ' :: itoa port) = itoa port := by
    simpa using cpSkipCommentSpace_append (g := [' ']) rfl hnumber []
  have hshift : cpShiftSpacevec (w ++ [' '] ++ itoa port) = (w, itoa port) := by
    rw [append_assoc, singleton_append, cpShiftSpacevec_append hword (by simp [Stops, isSpace]),
      hskip]
  -- `set_handler` passes the two words on with an empty next hop and the flags 0
  have hold : oldStyleRoute w port = withCommas w (itoa port :: [[], XiaPath.decimal 0]) := by
    simp [oldStyleRoute, withCommas, XiaPath.decimal]
  rw [command2, hshift]
  dsimp only
  rw [if_neg hw.ne_nil, cpInteger_itoa hport, bind_some, hold]
  exact command4_withCommas (d := ⟨port, 0, none⟩) hw hport (.flags .none 0) addMode

theorem command_remove {w : Text} {dest : Option Xid} (hw : Names query w dest) :
    (Call.remove w).command query = some (.remove dest) := by
  rw [Call.command, if_neg hw.ne_nil, hw.dest_eq, map_some]

/-- The call that the client makes, by the name of the destination and the arguments. -/
def clientCall (w : Text) (args : List Text) : XiaRouter.Cmd → Call
  | .add4 => .add4 (withCommas w args)
  | .set4 => .set4 (withCommas w args)
  | .remove => .remove w

theorem updateRoute_eq_some {cmd : XiaRouter.Cmd} {xid next type : Text} {port : Int}
    {flags : UInt64} {c : Call} {dest : Option Xid} (hxid : Addresses xid dest)
    (hquery : ∀ x ∈ dest, query x.unparse = none) (hlt : flags.toNat < 2 ^ 31)
    (h : XiaRouter.updateRoute cmd xid port next flags = some (type, c)) :
    ∃ w, Names query w dest ∧
      c = clientCall w [itoa port, next, XiaPath.decimal flags.toNat] cmd := by
  have hflags : itoa ((flags.toNat : Int).bmod (2 ^ 32)) = XiaPath.decimal flags.toNat := by
    rw [Int.bmod_eq_of_le (by omega) (by omega), itoa_of_nonneg (by omega), Int.toNat_natCast]
  -- the name of the destination is its text, unless that has the sign of the default route
  have hcall (w : Text) (hw : (if xid[(xid.takeWhile (· ≠ ':')).length + 1]? = some '-' then ['-']
      else xid) = w) : c = clientCall w [itoa port, next, XiaPath.decimal flags.toNat] cmd := by
    simp only [XiaRouter.updateRoute, hflags, hw] at h
    split at h
    · cases h
    · cases cmd <;> cases h <;> simp [clientCall, withCommas]
  cases hxid with
  | @xid x htype =>
    refine ⟨x.unparse, .xid htype (hquery x rfl), hcall _ (if_neg fun hdash => ?_)⟩
    exact absurd (Xid.mem_unparse (mem_of_getElem? hdash)) (by decide)
  | default htype rest =>
    refine ⟨['-'], .default, hcall _ (if_pos ?_)⟩
    have hall : ∀ c ∈ _, decide (c ≠ ':') = true := fun c hc =>
      decide_eq_true fun heq => htype (heq ▸ hc)
    rw [takeWhile_append_of_pos hall]
    simp

/-- **The handlers read a text as it is meant.** -/
theorem Says.command_eq {c : Call} {cmd : Command} (h : Says query c cmd) :
    c.command query = some cmd := by
  cases h with
  | arguments addMode hw hport hmore =>
    have hcommand := command4_withCommas hw hport hmore addMode
    cases addMode <;> exact hcommand
  | words addMode hw hport =>
    have hcommand := command2_words hw hport addMode
    cases addMode <;> exact hcommand
  | remove hw => exact command_remove hw
  | @client cmd _ _ _ _ data _ _ hxid hquery hnext hport hflags hlt h =>
    obtain ⟨w, hw, rfl⟩ := updateRoute_eq_some hxid hquery hlt h
    rw [hflags]
    cases cmd with
    | add4 => exact command4_withCommas hw hport (.flags hnext data.flags) true
    | set4 => exact command4_withCommas hw hport (.flags hnext data.flags) false
    | remove => exact command_remove hw

end RouteTable

end Xia
