import Xia.Click.ConfParse

/-!
# Checking the text of a DAG

`checkDag` looks at a text in the RE form, character by character, and `checkXid` at the text of an
XID in it.
-/

namespace Xia

namespace Xsocket

/-- `isxdigit` in the C locale. -/
def isXdigit (c : Char) : Bool := (digitValue 16 c).isSome

/-- `isalnum` in the C locale. -/
def isAlnum (c : Char) : Bool := (digitValue 36 c).isSome

def xidChars : Nat := 40

/-- The loop of `checkXid`, from the position `p` on: the position of the colon, if there is one,
and where the loop stops. -/
def checkXidLoop : Text → Nat → Option Nat → Option Nat × Nat
  | [], p, colon => (colon, p)
  | c :: s, p, colon =>
    if c = ':' then
      if colon.isSome then (colon, p)
      else if p = 0 then (colon, p)
      else checkXidLoop s (p + 1) (some p)
    else if colon.isSome then
      if ¬ isXdigit c then (colon, p) else checkXidLoop s (p + 1) colon
    else if ¬ isAlnum c then (colon, p)
    else checkXidLoop s (p + 1) colon

/-- `checkXid`; `type` is `none` for `NULL`. -/
def checkXid (xid : Text) (type : Option Text) : Bool :=
  if xid.take (type.getD []).length ≠ type.getD [] then false
  else
    let (colon, p) := checkXidLoop xid 0 none
    colon.any fun colon => p - colon - 1 = xidChars

/-- The loop of `checkDag`: `valid`, `fallback` and, if there is one, the text from `xid` on.
`prev` is the character before `p`, which may have been overwritten. -/
def checkDagLoop : Text → Char → Int → Option Text → Bool × Int × Option Text
  | [], _, fallback, xid => (true, fallback, xid)
  | c :: s, prev, fallback, xid =>
    if c = ' ' then
      match xid with
      | none => checkDagLoop s c fallback none
      | some x =>
        let token := x.take (x.length - (c :: s).length)
        if checkXid token none then checkDagLoop s '\x00' fallback none
        else (false, fallback, some token)
    else if c = '(' ∨ c = ')' then
      if prev ≠ ' ' ∧ prev ≠ '\x00' ∨ s.headD '\x00' ≠ ' ' ∧ s.headD '\x00' ≠ '\x00' then
        (false, fallback, xid)
      else checkDagLoop s c (if c = '(' then fallback + 1 else fallback - 1) xid
    else checkDagLoop s c fallback (xid.or (some (c :: s)))

/-- The end of `checkDag`.  The last XID is checked also if the loop was left early. -/
def checkDagResult (r : Bool × Int × Option Text) : Bool :=
  if r.2.1 ≠ 0 then false
  else match r.2.2 with
  | some xid => checkXid xid none
  | none => r.1

def checkDag (dag : Text) : Bool :=
  let buf := cStr dag
  if buf.take 3 ≠ ['R', 'E', ' '] then false
  else checkDagResult (checkDagLoop (buf.drop 3) ' ' 0 none)

end Xsocket

end Xia
