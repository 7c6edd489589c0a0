import Mathlib

/-!
# The part of Click's configuration parser that XIA addresses use

A Click `String` is modelled as the list of its characters.  The scanners of `confparse.cc` walk
a pair of pointers `[s, end)`; here they take the characters that are left and return those left
after the skipped part, so a pointer at or past `end` is `[]`.

`cpSpacevec` splits a text at unquoted white space.  It is what repeated calls of
`cp_shift_spacevec` return, up to the first empty word.  `cpInteger` is `cp_integer` with base 0:
the base is read off the prefix and a value out of range saturates.
-/

namespace Xia

/-- A Click `String`. -/
abbrev Text := List Char

/-- The text a `const char *` designates: everything before the first zero byte. -/
def cStr (s : Text) : Text := s.takeWhile (· ≠ '\x00')

/-! ### Spaces, comments and quotes -/

/-- `isspace` in the C locale. -/
def isSpace (c : Char) : Bool :=
  c = ' ' || c = '\x0c' || c = '\n' || c = '\r' || c = '\t' || c = '\x0b'

/-- The rest of a `//` comment, after the two slashes.  The newline belongs to the comment. -/
def skipLineComment : Text → Text
  | a :: b :: s =>
    if a ≠ '\n' ∧ a ≠ '\r' then skipLineComment (b :: s)
    else if a = '\r' ∧ b = '\n' then s
    else b :: s
  | _ => []

/-- The rest of a block comment, after its opening. -/
def skipBlockComment : Text → Text
  | a :: b :: c :: s =>
    if a = '*' ∧ b = '/' then c :: s else skipBlockComment (b :: c :: s)
  | _ => []

def startsComment : Text → Bool
  | a :: b :: _ => a = '/' && (b = '/' || b = '*')
  | _ => false

/-- `skip_comment`, on a text with `startsComment`. -/
def skipComment : Text → Text
  | _ :: b :: s => if b = '/' then skipLineComment s else skipBlockComment s
  | _ => []

/-- The loop of `cp_skip_comment_space`; the fuel bounds the number of characters. -/
def cpSkipCommentSpaceAux : Nat → Text → Text
  | 0, s => s
  | _, [] => []
  | fuel + 1, c :: s =>
    if isSpace c then cpSkipCommentSpaceAux fuel s
    else if startsComment (c :: s) then cpSkipCommentSpaceAux fuel (skipComment (c :: s))
    else c :: s

def cpSkipCommentSpace (s : Text) : Text := cpSkipCommentSpaceAux s.length s

/-- The inside of `\<...>`, up to and including the `>`. -/
def skipAngle : Nat → Text → Text
  | 0, s => s
  | _, [] => []
  | fuel + 1, c :: s =>
    if c = '>' then s
    else if startsComment (c :: s) then skipAngle fuel (skipComment (c :: s))
    else skipAngle fuel s

/-- `skip_backslash`, on a text that starts with a backslash. -/
def skipBackslash : Text → Text
  | _ :: b :: s =>
    if b = '<' then skipAngle s.length s
    else if b = '\r' ∧ s.head? = some '\n' then s.tail
    else s
  | _ => []

/-- The inside of a double-quoted string, up to and including the closing quote. -/
def skipDoubleQuoteAux : Nat → Text → Text
  | 0, s => s
  | _, [] => []
  | fuel + 1, c :: s =>
    if c = '\\' then skipDoubleQuoteAux fuel (skipBackslash (c :: s))
    else if c = '\"' then s
    else skipDoubleQuoteAux fuel s

/-- `cp_skip_double_quote`, on a text that starts with a double quote. -/
def cpSkipDoubleQuote (s : Text) : Text := skipDoubleQuoteAux s.length s.tail

/-- `skip_single_quote`, on a text that starts with a single quote. -/
def skipSingleQuote (s : Text) : Text := (s.tail.dropWhile (· ≠ '\'')).tail

/-- The loop of `skip_spacevec_item`: a word ends at a space or at a comment. -/
def skipSpacevecItemAux : Nat → Text → Text
  | 0, s => s
  | _, [] => []
  | fuel + 1, c :: s =>
    if startsComment (c :: s) then c :: s
    else if c = '\"' then skipSpacevecItemAux fuel (cpSkipDoubleQuote (c :: s))
    else if c = '\'' then skipSpacevecItemAux fuel (skipSingleQuote (c :: s))
    else if c = '\\' ∧ s.head? = some '<' then skipSpacevecItemAux fuel (skipBackslash (c :: s))
    else if isSpace c then c :: s
    else skipSpacevecItemAux fuel s

def skipSpacevecItem (s : Text) : Text := skipSpacevecItemAux s.length s

/-- `cp_shift_spacevec`: the first word and the text after it. -/
def cpShiftSpacevec (s : Text) : Text × Text :=
  let item := cpSkipCommentSpace s
  let itemEnd := skipSpacevecItem item
  (item.take (item.length - itemEnd.length), cpSkipCommentSpace itemEnd)

def cpSpacevecAux : Nat → Text → List Text
  | 0, _ => []
  | fuel + 1, s =>
    let (word, rest) := cpShiftSpacevec s
    if word = [] then [] else word :: cpSpacevecAux fuel rest

/-- `cp_spacevec`: the words that successive calls of `cp_shift_spacevec` return. -/
def cpSpacevec (s : Text) : List Text := cpSpacevecAux s.length s

/-! ### Arguments -/

/-- The loop of `partial_uncomment`, up to a comma.  `seg` is the text between the pointers `left`
and `right`, `gap` the white space behind it, and `sa` what was accumulated before the last
comment; `closed` says that a comment follows `seg`. -/
def partialUncommentAux : Nat → Text → Text → Text → Text → Bool → Text × Text
  | 0, s, sa, seg, _, _ => (sa ++ seg, s)
  | _, [], sa, seg, _, _ => (sa ++ seg, [])
  | fuel + 1, c :: s, sa, seg, gap, closed =>
    if isSpace c then partialUncommentAux fuel s sa seg (gap ++ [c]) closed
    else if startsComment (c :: s) then
      partialUncommentAux fuel (skipComment (c :: s)) sa seg gap true
    else if c = ',' then (sa ++ seg, c :: s)
    else
      let rest :=
        if c = '\'' then skipSingleQuote (c :: s)
        else if c = '\"' then cpSkipDoubleQuote (c :: s)
        else if c = '\\' ∧ s.head? = some '<' then skipBackslash (c :: s)
        else s
      let item := (c :: s).take ((c :: s).length - rest.length)
      if closed then partialUncommentAux fuel rest (sa ++ seg ++ [' ']) item [] false
      else partialUncommentAux fuel rest sa (seg ++ gap ++ item) [] false

/-- `partial_uncomment` up to a comma: the argument, and the text from the comma on. -/
def partialUncomment (s : Text) : Text × Text :=
  let s := cpSkipCommentSpace s
  partialUncommentAux s.length s [] [] [] false

def cpArgvecAux : Nat → Text → List Text
  | 0, _ => []
  | _, [] => []
  | fuel + 1, s =>
    match partialUncomment s with
    | (arg, []) => if arg = [] then [] else [arg]
    | (arg, _ :: rest) => arg :: cpArgvecAux fuel rest

/-- `cp_argvec`: the arguments between unquoted commas.  A last one that is empty is left out. -/
def cpArgvec (s : Text) : List Text := cpArgvecAux s.length s

/-! ### Integers -/

/-- The value of a digit of a number in base `b`, letters included. -/
def digitValue (b : Nat) (c : Char) : Option Nat :=
  let n := c.toNat
  let v :=
    if 48 ≤ n ∧ n ≤ 57 then n - 48
    else if 65 ≤ n ∧ n ≤ 90 then n - 55
    else if 97 ≤ n ∧ n ≤ 122 then n - 87
    else 36
  if v < b then some v else none

/-- The characters of a number in base `b` at the front of a text, in the form of the length that
`IntArg::span` accepts and the value.  An underscore may stand between two digits; `accepted` is
the length up to the last digit, `scanned` the length read so far. -/
def digitSpan (b : Nat) : Text → Nat → Nat → Nat → Nat × Nat
  | [], _, accepted, value => (accepted, value)
  | c :: s, scanned, accepted, value =>
    if c = '_' ∧ accepted = scanned ∧ 0 < scanned then digitSpan b s (scanned + 1) accepted value
    else
      match digitValue b c with
      | some d => digitSpan b s (scanned + 1) (scanned + 1) (value * b + d)
      | none => (accepted, value)

/-- Drop the base prefix of a number read with base 0.  The second component is what is left. -/
def basePrefix : Text → Nat × Text
  | '0' :: 'x' :: c :: s => (16, c :: s)
  | '0' :: 'X' :: c :: s => (16, c :: s)
  | '0' :: 'b' :: c :: s => (2, c :: s)
  | '0' :: 'B' :: c :: s => (2, c :: s)
  | '0' :: s => (8, '0' :: s)
  | s => (10, s)

/-- `cp_integer(str, &result)`: the whole text is one number, and a number out of range gives the
nearest bound.  `signed` selects `int`, otherwise the result is a `uint32_t`. -/
def cpInteger (signed : Bool) (s : Text) : Option Int :=
  let negative := signed && s.head? = some '-'
  let unsignedPart := if negative || s.head? = some '+' then s.tail else s
  let (b, digits) := basePrefix unsignedPart
  let (accepted, value) := digitSpan b digits 0 0 0
  if accepted = 0 ∨ accepted ≠ digits.length then none
  else if signed then
    if negative then some (-(min value (2 ^ 31) : Nat))
    else some (min value (2 ^ 31 - 1) : Nat)
  else some (min value (2 ^ 32 - 1) : Nat)

/-! ### Dotted-quad addresses -/

/-- One decimal field of a dotted quad, at most 255. -/
def ipField (s : Text) : Option (UInt8 × Text) :=
  let digits := s.takeWhile Char.isDigit
  let value := digits.foldl (fun v c => v * 10 + (c.toNat - 48)) 0
  if digits = [] ∨ 255 < value then none
  else some (UInt8.ofNat value, s.dropWhile Char.isDigit)

/-- `IPAddressArg::parse` on a dotted quad.  Names are not looked up: no address name is
configured for the texts XIA parses. -/
def ipAddressParse (s : Text) : Option (UInt8 × UInt8 × UInt8 × UInt8) := do
  let (a, s) ← ipField s
  guard (s.head? = some '.')
  let (b, s) ← ipField s.tail
  guard (s.head? = some '.')
  let (c, s) ← ipField s.tail
  guard (s.head? = some '.')
  let (d, s) ← ipField s.tail
  guard (s = [])
  return (a, b, c, d)

end Xia
