import Xia.Dagaddr.Equiv.Text
import Xia.Router.Equiv.Commands

/-!
# The route table is a finite map

A `RouteMap` is what the handlers are for: a finite map from XIDs to routes and a default route, on
which a `Command` is an update, or is refused.  `performs_handle` says that every call of a write
handler, with whatever text, performs the command that is read from the text, and leaves the table
alone if it returns an error.  A text that says a command is read as that command (`Says`).

`getRoutes` reads the list of the table back, apart from the ports: an entry of `XIARouter` has an
unsigned port of 16 bits, so that the negative ports, which have a meaning, become others.
`refines_iff` is the result for a whole sequence of calls.
-/

namespace Xia

open List Option AList Function

/-! ### The finite map -/

/-- The routes, and the default route. -/
structure RouteMap where
  routes : Finmap fun _ : Xid => RouteData
  default : RouteData

/-- The update that a command is, or `none` if it is refused. -/
def Command.exec (m : RouteMap) : Command → Option RouteMap
  | ignore => some m
  | put addMode none data =>
    if addMode ∧ m.default.port ≠ -1 then none else some { m with default := data }
  | put addMode (some xid) data =>
    if addMode ∧ xid ∈ m.routes then none
    else some { m with routes := m.routes.insert xid data }
  | remove none => some { m with default := RouteTable.noRoute }
  | remove (some xid) =>
    if xid ∈ m.routes then some { m with routes := m.routes.erase xid } else none

namespace RouteTable

variable {query : Text → Option Xid}

def toMap (t : RouteTable) : RouteMap := ⟨t.rts.toFinmap, t.rtdata⟩

def Call.update (query : Text → Option Xid) (c : Call) (m : RouteMap) : Option RouteMap :=
  (c.command query).bind (Command.exec m)

/-! ### Calls -/

/-- The result `r` of a call on the table `t` is that of the update `u` of its map. -/
structure Performs (t : RouteTable) (u : Option RouteMap) (r : Option String × RouteTable) :
    Prop where
  update : u = if r.1 = none then some r.2.toMap else none
  unchanged : r.1 ≠ none → r.2 = t

theorem performs_error {t : RouteTable} {e : String} : Performs t none (some e, t) :=
  ⟨rfl, fun _ => rfl⟩

theorem performs_ok {t t' : RouteTable} {m : RouteMap} (h : t'.toMap = m) :
    Performs t (some m) (none, t') :=
  ⟨by rw [if_pos rfl, h], fun h => absurd rfl h⟩

theorem performs_setHandler4 (addMode : Bool) (conf : Text) (t : RouteTable) :
    Performs t ((command4 query addMode conf).bind (Command.exec t.toMap))
      (setHandler4 query addMode conf t) := by
  unfold command4 setHandler4
  cases parseRoute query conf with
  | error e => exact performs_error
  | ok route =>
    obtain ⟨xidStr, data⟩ := route
    dsimp only [dest]
    by_cases hdefault : xidStr = ['-']
    · rw [if_pos hdefault, if_pos hdefault]
      simp only [map_some, bind_some, Command.exec, toMap]
      split
      · exact performs_error
      · exact performs_ok rfl
    · rw [if_neg hdefault, if_neg hdefault]
      cases cpXid query xidStr with
      | none => exact performs_error
      | some xid =>
        simp only [map_some, bind_some, Command.exec, toMap, Finmap.mem_toFinmap,
          Finmap.insert_toFinmap]
        split
        · exact performs_error
        · exact performs_ok rfl

theorem performs_setHandler (addMode : Bool) (conf : Text) (t : RouteTable) :
    Performs t ((command2 query addMode conf).bind (Command.exec t.toMap))
      (setHandler query addMode conf t) := by
  unfold command2 setHandler
  dsimp only
  split
  · exact performs_ok rfl
  · cases cpInteger true (cpShiftSpacevec conf).2 with
    | none => exact performs_error
    | some port => exact performs_setHandler4 addMode _ t

theorem performs_removeHandler (xidStr : Text) (t : RouteTable) :
    Performs t ((Call.remove xidStr).update query t.toMap) (removeHandler query xidStr t) := by
  dsimp only [Call.update, Call.command, removeHandler, dest]
  by_cases hempty : xidStr = []
  · rw [if_pos hempty, if_pos hempty]
    exact performs_ok rfl
  · rw [if_neg hempty, if_neg hempty]
    by_cases hdefault : xidStr = ['-']
    · rw [if_pos hdefault, if_pos hdefault]
      exact performs_ok rfl
    · rw [if_neg hdefault, if_neg hdefault]
      cases cpXid query xidStr with
      | none => exact performs_error
      | some xid =>
        simp only [map_some, bind_some, Command.exec, toMap, Finmap.mem_toFinmap,
          Finmap.erase_toFinmap]
        split
        · exact performs_ok rfl
        · exact performs_error

/-- **Every call performs the update that its text stands for.** -/
theorem performs_handle (c : Call) (t : RouteTable) :
    Performs t (c.update query t.toMap) (handle query c t) := by
  cases c with
  | add conf => exact performs_setHandler true conf t
  | set conf => exact performs_setHandler false conf t
  | add4 conf => exact performs_setHandler4 true conf t
  | set4 conf => exact performs_setHandler4 false conf t
  | remove xidStr => exact performs_removeHandler xidStr t

/-! ### The list -/

def nexthopText (xrd : RouteData) : Text := (xrd.nexthop.map Xid.unparse).getD []

theorem not_mem_nexthopText {c : Char} (hc : c ∉ "0123456789abcdef:ACDEFHINPSU".toList)
    (xrd : RouteData) : c ∉ nexthopText xrd := by
  rw [nexthopText]
  cases xrd.nexthop with
  | none => exact not_mem_nil
  | some x => exact fun hmem => hc (Xid.mem_unparse hmem)

def lineText (xid : Text) (xrd : RouteData) : Text :=
  xid ++ ',' :: (itoa xrd.port ++ ',' :: (nexthopText xrd ++ ',' ::
    XiaPath.decimal xrd.flags.toNat))

theorem routeLine_eq (xid : Text) (xrd : RouteData) :
    routeLine xid xrd = lineText xid xrd ++ ['\n'] := by
  simp [routeLine, lineText, nexthopText]

theorem newline_not_mem_lineText {xid : Text} (hxid : '\n' ∉ xid) (xrd : RouteData) :
    '\n' ∉ lineText xid xrd := by
  have hport := not_mem_itoa (show '\n'.isDigit = false from rfl) (by decide) xrd.port
  have hnext := not_mem_nexthopText (show '\n' ∉ _ by decide) xrd
  have hflags : '\n' ∉ XiaPath.decimal xrd.flags.toNat := (XiaPath.isWord_decimal _).not_mem rfl
  simp [lineText, hxid, hport, hnext, hflags]

theorem nextField_append {line a b : Text} (ha : ',' ∉ a) :
    XiaRouter.nextField line (a ++ ',' :: b) = (a, b) := by
  have hall : ∀ c ∈ a, decide (c ≠ ',') = true := fun c hc =>
    decide_eq_true fun h => ha (h ▸ hc)
  rw [XiaRouter.nextField, if_pos (by simp), takeWhile_append_of_pos hall,
    dropWhile_append_of_pos hall]
  simp

theorem parseEntry_lineText {xid : Text} (hxid : ',' ∉ xid) (xrd : RouteData) :
    XiaRouter.parseEntry (lineText xid xrd) =
      ⟨xid, nexthopText xrd, UInt16.ofInt (atoi (itoa xrd.port)),
        UInt64.ofInt (atoi (XiaPath.decimal xrd.flags.toNat))⟩ := by
  have hport := not_mem_itoa (show ','.isDigit = false from rfl) (by decide) xrd.port
  have hnext := not_mem_nexthopText (show ',' ∉ _ by decide) xrd
  rw [XiaRouter.parseEntry, lineText, nextField_append hxid]
  dsimp only
  rw [nextField_append hport]
  dsimp only
  rw [nextField_append hnext]

theorem getRoutes_listRoutesHandler (t : RouteTable) :
    XiaRouter.getRoutes t.listRoutesHandler = XiaRouter.parseEntry (lineText ['-'] t.rtdata) ::
      t.rts.entries.map fun e => XiaRouter.parseEntry (lineText e.1.unparse e.2) := by
  have hlines : ∀ es : List (Sigma fun _ : Xid => RouteData),
      Dagaddr.split '\n' (es.flatMap fun e => routeLine e.1.unparse e.2) =
        es.map fun e => lineText e.1.unparse e.2 := by
    intro es
    induction es with
    | nil => rfl
    | cons e es ih =>
      have hxid : '\n' ∉ e.1.unparse := (Xid.isWord_unparse e.1).not_mem rfl
      rw [flatMap_cons, routeLine_eq, append_assoc, singleton_append,
        Dagaddr.split_append (newline_not_mem_lineText hxid e.2), ih, map_cons]
  rw [XiaRouter.getRoutes, listRoutesHandler, routeLine_eq, append_assoc,
    singleton_append, Dagaddr.split_append (newline_not_mem_lineText (by decide) _), hlines,
    map_cons, List.map_map]
  rfl

/-! ### What the client gets -/

end RouteTable

/-- An entry of the client has the data of a route. -/
structure RouteEntry.Shows (e : RouteEntry) (xrd : RouteData) : Prop where
  port : (e.port.toNat : Int) = xrd.port
  flags : e.flags.toNat = xrd.flags.toNat
  nexthop : (if e.nextHop = [] then some none else (Xid.parse e.nextHop).map some) =
    some xrd.nexthop

theorem RouteEntry.Shows.unique {e : RouteEntry} {xrd xrd' : RouteData} (h : e.Shows xrd)
    (h' : e.Shows xrd') : xrd = xrd' := by
  obtain ⟨port, flags, nexthop⟩ := xrd
  obtain ⟨port', flags', nexthop'⟩ := xrd'
  have hport := h.port.symm.trans h'.port
  have hflags := UInt32.toNat_inj.1 (h.flags.symm.trans h'.flags)
  have hnexthop := Option.some.inj (h.nexthop.symm.trans h'.nexthop)
  dsimp only at hport hflags hnexthop
  rw [hport, hflags, hnexthop]

/-- The texts of a route can be read: the next hop has a known type, and the flags are a positive
`int`. -/
structure RouteData.Readable (xrd : RouteData) : Prop where
  nexthop : ∀ x ∈ xrd.nexthop, Xid.Named x.type
  flags : xrd.flags.toNat < 2 ^ 31

/-- The port is one that an entry of the client can have. -/
def RouteData.PortFits (xrd : RouteData) : Prop := 0 ≤ xrd.port ∧ xrd.port < 2 ^ 16

namespace RouteMap

/-- All XIDs have known types, and the flags are positive. -/
structure Readable (m : RouteMap) : Prop where
  default : m.default.Readable
  routes : ∀ x xrd, m.routes.lookup x = some xrd → Xid.Named x.type ∧ xrd.Readable

/-- All ports are ones that the client can have. -/
structure PortsFit (m : RouteMap) : Prop where
  default : m.default.PortFits
  routes : ∀ x xrd, m.routes.lookup x = some xrd → xrd.PortFits

/-- The entries are the default route and then the routes of the map, each of them once. -/
structure Lists (es : List RouteEntry) (m : RouteMap) : Prop where
  default : ∃ e, es.head? = some e ∧ e.xid = ['-'] ∧ e.Shows m.default
  routes : ∀ x xrd, m.routes.lookup x = some xrd ↔
    ∃ e ∈ es.tail, Xid.parse e.xid = some x ∧ e.Shows xrd
  once : (es.tail.map RouteEntry.xid).Nodup

theorem Lists.portsFit {es : List RouteEntry} {m : RouteMap} (h : Lists es m) : m.PortsFit := by
  have hfits {e : RouteEntry} {xrd : RouteData} (hshows : e.Shows xrd) : xrd.PortFits := by
    have hlt := e.port.toNat_lt
    exact ⟨by rw [← hshows.port]; omega, by rw [← hshows.port]; omega⟩
  constructor
  · obtain ⟨e, -, -, hshows⟩ := h.default
    exact hfits hshows
  · intro x xrd hlookup
    obtain ⟨e, -, -, hshows⟩ := (h.routes x xrd).1 hlookup
    exact hfits hshows

end RouteMap

namespace RouteTable

variable {query : Text → Option Xid}

theorem atoi_decimal {n : Nat} (hn : n < 2 ^ 31) : atoi (XiaPath.decimal n) = n := by
  rw [atoi, Dagaddr.sscanfInt_decimal hn, getD_some]

theorem shows_lineText {xid : Text} (hxid : ',' ∉ xid) {xrd : RouteData} (hread : xrd.Readable)
    (hport : xrd.PortFits) : (XiaRouter.parseEntry (lineText xid xrd)).Shows xrd := by
  rw [parseEntry_lineText hxid]
  obtain ⟨hlow, hhigh⟩ := hport
  refine ⟨?_, ?_, ?_⟩
  · dsimp only
    rw [itoa_of_nonneg hlow, atoi_decimal (by omega), UInt16.ofInt, UInt16.toNat_ofNat']
    omega
  · dsimp only
    rw [atoi_decimal hread.flags, UInt64.ofInt, UInt64.toNat_ofNat']
    have := xrd.flags.toNat_lt
    omega
  · obtain ⟨port, flags, nexthop⟩ := xrd
    cases nexthop with
    | none => rfl
    | some x =>
      change (if x.unparse = [] then some none else (Xid.parse x.unparse).map some) = some (some x)
      rw [if_neg (Xid.isWord_unparse x).ne, Xid.parse_unparse (hread.nexthop x rfl), map_some]

/-- **The client gets the routes exactly if their ports are ones that it can have.** -/
theorem lists_getRoutes_iff {t : RouteTable} (hread : t.toMap.Readable) :
    RouteMap.Lists (XiaRouter.getRoutes t.listRoutesHandler) t.toMap ↔ t.toMap.PortsFit := by
  refine ⟨RouteMap.Lists.portsFit, fun hports => ?_⟩
  have hcomma (x : Xid) : ',' ∉ x.unparse := fun hmem =>
    absurd (Xid.mem_unparse hmem) (by decide)
  have hlookup (x : Xid) (xrd : RouteData) :
      t.toMap.routes.lookup x = some xrd ↔ ⟨x, xrd⟩ ∈ t.rts.entries := by
    rw [toMap, Finmap.lookup_toFinmap]
    exact mem_lookup_iff
  have hshows {x : Xid} {xrd : RouteData} (hmem : ⟨x, xrd⟩ ∈ t.rts.entries) :
      (XiaRouter.parseEntry (lineText x.unparse xrd)).Shows xrd := by
    have hin := (hlookup x xrd).2 hmem
    exact shows_lineText (hcomma x) (hread.routes x xrd hin).2 (hports.routes x xrd hin)
  rw [getRoutes_listRoutesHandler]
  refine ⟨⟨_, rfl, ?_, shows_lineText (by decide) hread.default hports.default⟩,
    fun x xrd => ⟨fun hin => ?_, ?_⟩, ?_⟩
  · rw [parseEntry_lineText (by decide)]
  · have hmem := (hlookup x xrd).1 hin
    refine ⟨_, List.mem_map_of_mem hmem, ?_, hshows hmem⟩
    rw [parseEntry_lineText (hcomma x)]
    exact Xid.parse_unparse (hread.routes x xrd hin).1
  · rintro ⟨e, he, hxid, hshow⟩
    obtain ⟨⟨y, yrd⟩, hmem, rfl⟩ := List.mem_map.1 he
    have hin := (hlookup y yrd).2 hmem
    rw [parseEntry_lineText (hcomma y), Xid.parse_unparse (hread.routes y yrd hin).1,
      some_inj] at hxid
    rw [← hxid, hshow.unique (hshows hmem)]
    exact hin
  · have hnames : (t.rts.entries.map fun e => XiaRouter.parseEntry (lineText e.1.unparse e.2)).map
        RouteEntry.xid = t.rts.keys.map Xid.unparse := by
      rw [List.map_map, AList.keys, List.keys, List.map_map]
      refine map_congr_left fun e _ => ?_
      rw [comp_apply, parseEntry_lineText (hcomma e.1), comp_apply]
    have hnamed {x : Xid} (hx : x ∈ t.rts.keys) : Xid.parse x.unparse = some x := by
      obtain ⟨xrd, hxrd⟩ := HashTable.mem_keys_iff.1 hx
      exact Xid.parse_unparse (hread.routes x xrd (by rw [toMap, Finmap.lookup_toFinmap, hxrd])).1
    rw [tail_cons, hnames]
    refine List.Nodup.map_on (fun x hx y hy hxy => ?_) t.rts.keys_nodup
    have hread := hnamed hx
    rw [hxy, hnamed hy] at hread
    exact (Option.some.inj hread).symm

/-! ### Sequences of calls -/

def afterCalls (query : Text → Option Xid) (t : RouteTable) (calls : List Call) : RouteTable :=
  calls.foldl (fun t c => (handle query c t).2) t

/-- The map after the same calls: one that is refused changes nothing. -/
def mapAfterCalls (query : Text → Option Xid) (m : RouteMap) (calls : List Call) : RouteMap :=
  calls.foldl (fun m c => (c.update query m).getD m) m

/-- In a sequence of calls, each of them performs its update or leaves the table alone, and the
update is the one that its text says, be it from the client or not.  The map is then the result of
the updates, and the client gets what is in it as far as it can be read. -/
structure Refines (query : Text → Option Xid) (t : RouteTable) (calls : List Call) : Prop where
  means : ∀ c ∈ calls, ∀ cmd, Says query c cmd → ∀ m, c.update query m = cmd.exec m
  performs : ∀ pre c post, calls = pre ++ c :: post →
    Performs (afterCalls query t pre) (c.update query (afterCalls query t pre).toMap)
      (handle query c (afterCalls query t pre))
  map : (afterCalls query t calls).toMap = mapAfterCalls query t.toMap calls
  list : (afterCalls query t calls).toMap.Readable →
    RouteMap.Lists (XiaRouter.getRoutes (afterCalls query t calls).listRoutesHandler)
      (afterCalls query t calls).toMap

theorem toMap_handle (c : Call) (t : RouteTable) :
    (handle query c t).2.toMap = (c.update query t.toMap).getD t.toMap := by
  have hperforms : Performs t (c.update query t.toMap) (handle query c t) := performs_handle c t
  rw [hperforms.update]
  split
  · rfl
  · rename_i herror
    rw [hperforms.unchanged herror]
    rfl

theorem toMap_afterCalls (t : RouteTable) (calls : List Call) :
    (afterCalls query t calls).toMap = mapAfterCalls query t.toMap calls := by
  induction calls generalizing t with
  | nil => rfl
  | cons c calls ih =>
    change (afterCalls query (handle query c t).2 calls).toMap =
      mapAfterCalls query ((c.update query t.toMap).getD t.toMap) calls
    rw [ih, toMap_handle]

/-- **The table refines the finite map exactly if the ports of the routes at the end are ones that
the client can have.** -/
theorem refines_iff (query : Text → Option Xid) (t : RouteTable) (calls : List Call) :
    Refines query t calls ↔ ((mapAfterCalls query t.toMap calls).Readable →
        (mapAfterCalls query t.toMap calls).PortsFit) := by
  rw [← toMap_afterCalls]
  constructor
  · exact fun h hread => (h.list hread).portsFit
  · exact fun hports => ⟨fun c _ cmd hsays m => by rw [Call.update, hsays.command_eq, bind_some],
      fun pre c post _ => performs_handle c _, toMap_afterCalls t calls,
      fun hread => (lists_getRoutes_iff hread).2 (hports hread)⟩

/-- A default route to the host itself has the port -2, which the client takes for 65534. -/
theorem not_refines_localhost :
    ¬ Refines (fun _ => none) (configure .empty .zero 4) [.set ['-', ' ', '-', '2']] := by
  intro h
  have hafter : afterCalls (fun _ => none) (configure .empty .zero 4) [.set ['-', ' ', '-', '2']] =
      { configure .empty .zero 4 with rtdata := ⟨-2, 0, none⟩ } := by rfl
  have hread := h.list
  rw [hafter] at hread
  obtain ⟨e, he, -, hshows⟩ := (hread ⟨⟨nofun, by decide⟩, fun x xrd hin => by cases hin⟩).default
  have hport := hshows.port
  rw [← Option.some.inj he] at hport
  revert hport
  decide

end RouteTable

end Xia
