import Xia.Click.Basic
import Xia.StdMap

/-!
# The state of the routing daemon

`xrouted` tells its neighbours about itself, floods what it knows about its own links, and computes
routes to the other ADs from what the others have flooded.  `RouteState` is what it keeps, as far as
the functions that are modelled here use it.

All texts of the daemon come from C strings, and so have no NUL in them.  What `operator[]` creates
in a table is initialised with zeros and empty texts.
-/

namespace Xia

namespace Xrouted

/-- What goes wrong in the daemon. -/
inductive Fault
  /-- an iterator is used after its entry has been erased -/
  | erasedIterator
  /-- a loop does not end -/
  | endless
  /-- a difference of two `int`s is none -/
  | overflow
  /-- a text is longer than the buffer it is copied to -/
  | overrun
deriving DecidableEq, Repr

theorem bind_eq_ok {α β : Type} {x : Except Fault α} {f : α → Except Fault β} {b : β} :
    (x >>= f) = .ok b ↔ ∃ a, x = .ok a ∧ f a = .ok b := by
  cases x with
  | error e => simp [bind, Except.bind]
  | ok a => simp [bind, Except.bind]

theorem bind_eq_error {α β : Type} {x : Except Fault α} {f : α → Except Fault β} {g : Fault} :
    (x >>= f) = .error g ↔ x = .error g ∨ ∃ a, x = .ok a ∧ f a = .error g := by
  cases x with
  | error e => simp [bind, Except.bind]
  | ok a => simp [bind, Except.bind]

instance {α : Type} (x : Except Fault α) (P : α → Prop) [DecidablePred P] :
    Decidable (∃ a, x = .ok a ∧ P a) :=
  match x with
  | .error _ => isFalse (by simp)
  | .ok a => decidable_of_iff (P a) (by simp)

instance {α : Type} (x : Except Fault α) (f : Fault) : Decidable (x = .error f) :=
  match x with
  | .error g => decidable_of_iff (g = f) (by simp)
  | .ok _ => isFalse (by simp)

/-- A text that has no NUL in it. -/
abbrev CString := List {c : Char // c ≠ '\x00'}

structure RouteEntry where
  dest : CString
  nextHop : CString
  port : Int
  flags : UInt32
deriving DecidableEq, Inhabited

structure NeighborEntry where
  ad : CString
  hid : CString
  cost : Int
  port : Int
deriving DecidableEq, Inhabited

/-- `NodeStateEntry`.  The cost is never negative when it is read. -/
structure NodeStateEntry where
  dest : CString
  seq : Int
  numNeighbors : Int
  neighborList : List CString
  checked : Bool
  cost : Nat
  prevNode : CString
deriving DecidableEq, Inhabited

abbrev NetworkTable := StdMap CString NodeStateEntry

structure RouteState where
  myAd : CString
  myHid : CString
  dualRouter : Int
  dualRouterAd : CString
  numNeighbors : Int
  lsaSeq : Int
  helloSeq : Int
  helloLsaRatio : Int
  calcDijkstraTicks : Nat
  adRouteTable : StdMap CString RouteEntry
  neighborTable : StdMap CString NeighborEntry
  networkTable : NetworkTable
deriving DecidableEq

end Xrouted

end Xia
