import Xia.Xsocket.CheckDag

/-!
# What `checkDag` accepts

`checkXid` stops at the first character that does not belong to an XID and counts the digits before
it, so that anything may follow the 40 digits.  `checkDag` counts the parentheses, but not in their
order, and if it meets a parenthesis inside a word it forgets that this is an error and looks at the
XID before it.  `checkDag_iff` is the language that it accepts, and `checkDag_exact_iff` says which
words it misreads.
-/

namespace Xia

open List Option

namespace Xsocket

variable {s w : Text} {prev c : Char} {ws : List Text}

/-! ### XIDs -/

structure XidParts (type hash : Text) : Prop where
  ne_nil : type ≠ []
  alnum : ∀ c ∈ type, isAlnum c = true
  length : hash.length = xidChars
  xdigit : ∀ c ∈ hash, isXdigit c = true

def IsXid (t : Text) : Prop := ∃ type hash, XidParts type hash ∧ t = type ++ ':' :: hash

/-- The text of an XID that may be followed by something, but not by a digit. -/
def BeginsXid (t : Text) : Prop :=
  ∃ type hash junk, XidParts type hash ∧ (∀ c ∈ junk.head?, isXdigit c = false) ∧
    t = type ++ ':' :: (hash ++ junk)

theorem checkXidLoop_hash (s : Text) (p colon : Nat) :
    checkXidLoop s p (some colon) = (some colon, p + (s.takeWhile isXdigit).length) := by
  induction s generalizing p with
  | nil => rfl
  | cons c s ih =>
    rw [checkXidLoop]
    by_cases hcolon : c = ':'
    · rw [if_pos hcolon, hcolon]
      rfl
    · rw [if_neg hcolon, if_pos isSome_some, ih]
      by_cases hc : isXdigit c = true
      · rw [if_neg (not_not.2 hc), takeWhile_cons_of_pos hc, length_cons]
        congr 1
        omega
      · rw [if_pos hc, takeWhile_cons_of_neg hc]
        rfl

theorem checkXidLoop_type {type : Text} (htype : ∀ c ∈ type, isAlnum c = true) (s : Text)
    (p : Nat) : checkXidLoop (type ++ s) p none = checkXidLoop s (p + type.length) none := by
  induction type generalizing p with
  | nil => rfl
  | cons c type ih =>
    obtain ⟨hc, htype⟩ := forall_mem_cons.1 htype
    have hcolon : c ≠ ':' := by
      rintro rfl
      exact absurd hc (by decide)
    rw [cons_append, checkXidLoop, if_neg hcolon, if_neg (by decide), if_neg (not_not.2 hc),
      ih htype, length_cons]
    congr 1
    omega

theorem checkXid_none (t : Text) : checkXid t none = (checkXidLoop t 0 none).1.any fun colon =>
    (checkXidLoop t 0 none).2 - colon - 1 = xidChars := by
  rw [checkXid, if_neg (by simp)]

theorem checkXidLoop_stop (hs : ∀ c ∈ s.head?, isAlnum c = false) {p colon stop : Nat}
    (h : checkXidLoop s p none = (some colon, stop)) :
    ∃ rest, s = ':' :: rest ∧ p ≠ 0 ∧ colon = p ∧
      stop = p + 1 + (rest.takeWhile isXdigit).length := by
  cases s with
  | nil => simp [checkXidLoop] at h
  | cons c rest =>
    have hc : isAlnum c = false := hs c rfl
    rw [checkXidLoop] at h
    by_cases hcolon : c = ':'
    · rw [if_pos hcolon, if_neg (by simp)] at h
      by_cases hp : p = 0
      · rw [if_pos hp] at h
        simp at h
      · rw [if_neg hp, checkXidLoop_hash, Prod.mk.injEq, some_inj] at h
        exact ⟨rest, by rw [hcolon], hp, h.1.symm, h.2.symm⟩
    · rw [if_neg hcolon, if_neg (by simp), if_pos (by simp [hc])] at h
      simp at h

theorem head?_dropWhile_false {p : Char → Bool} : ∀ c ∈ (s.dropWhile p).head?, p c = false := by
  intro c hc
  have hnot := head?_dropWhile_not p s
  rwa [mem_def.1 hc] at hnot

/-- **`checkXid` does not look at what follows the digits.** -/
theorem checkXid_iff (t : Text) : checkXid t none = true ↔ BeginsXid t := by
  rw [checkXid_none, Option.any_eq_true]
  constructor
  · rintro ⟨colon, hcolon, hlength⟩
    have halnum : ∀ c ∈ t.takeWhile isAlnum, isAlnum c = true :=
      fun c hc => mem_takeWhile_imp hc
    have htype : checkXidLoop t 0 none
        = checkXidLoop (t.dropWhile isAlnum) (t.takeWhile isAlnum).length none := by
      conv_lhs => rw [← takeWhile_append_dropWhile (p := isAlnum) (l := t)]
      rw [checkXidLoop_type halnum, Nat.zero_add]
    obtain ⟨rest, hrest, hp, rfl, hstop⟩ := checkXidLoop_stop head?_dropWhile_false
      (show checkXidLoop (t.dropWhile isAlnum) (t.takeWhile isAlnum).length none
        = (some colon, (checkXidLoop t 0 none).2) by rw [← htype, ← hcolon])
    refine ⟨t.takeWhile isAlnum, rest.takeWhile isXdigit, rest.dropWhile isXdigit,
      ⟨length_pos_iff.1 (Nat.pos_of_ne_zero hp), halnum, ?_,
        fun c hc => mem_takeWhile_imp hc⟩, head?_dropWhile_false, ?_⟩
    · rw [hstop, decide_eq_true_iff] at hlength
      omega
    · rw [takeWhile_append_dropWhile, ← hrest, takeWhile_append_dropWhile]
  · rintro ⟨type, hash, junk, hparts, hjunk, rfl⟩
    have hne : type.length ≠ 0 := fun h => hparts.ne_nil (length_eq_zero_iff.1 h)
    have hdigits : (hash ++ junk).takeWhile isXdigit = hash := by
      rw [takeWhile_append_of_pos hparts.xdigit]
      cases junk with
      | nil => exact append_nil hash
      | cons c junk =>
        have hc : ¬ isXdigit c = true := by simp [hjunk c rfl]
        rw [takeWhile_cons_of_neg hc, append_nil]
    refine ⟨type.length, ?_, ?_⟩
    all_goals rw [checkXidLoop_type hparts.alnum, checkXidLoop, if_pos rfl, if_neg (by simp),
      if_neg (by omega), checkXidLoop_hash, hdigits]
    · rw [Nat.zero_add]
    · rw [decide_eq_true_iff, hparts.length]
      omega

theorem IsXid.beginsXid {t : Text} (h : IsXid t) : BeginsXid t := by
  obtain ⟨type, hash, hparts, rfl⟩ := h
  exact ⟨type, hash, [], hparts, by simp, by rw [append_nil]⟩

/-! ### Words -/

def HasParen (w : Text) : Prop := '(' ∈ w ∨ ')' ∈ w

instance (w : Text) : Decidable (HasParen w) := inferInstanceAs (Decidable (_ ∨ _))

/-- What `checkDag` makes of the word `w`, if `next` is its answer for the words that follow. -/
def acceptWord (w : Text) (next : Int → Bool) (fallback : Int) : Bool :=
  if w = [] then next fallback
  else if w = ['('] then next (fallback + 1)
  else if w = [')'] then next (fallback - 1)
  else if HasParen w then fallback = 0 && checkXid w none
  else checkXid w none && next fallback

/-- What `checkDag` makes of a list of words. -/
def acceptWords (ws : List Text) : Int → Bool := ws.foldr acceptWord fun fallback => fallback = 0

theorem checkDagResult_some (valid : Bool) (fallback : Int) (xid : Text) :
    checkDagResult (valid, fallback, some xid) = (fallback = 0 && checkXid xid none) := by
  by_cases h : fallback = 0 <;> simp [checkDagResult, h]

theorem checkDagResult_none (valid : Bool) (fallback : Int) :
    checkDagResult (valid, fallback, none) = (fallback = 0 && valid) := by
  by_cases h : fallback = 0 <;> simp [checkDagResult, h]

/-- `next` is the answer of `checkDag` for what follows a word. -/
structure Ends (tail : Text) (next : Int → Bool) : Prop where
  stop : ∀ c ∈ tail.head?, c = ' '
  idle (prev : Char) (fallback : Int) :
    checkDagResult (checkDagLoop tail prev fallback none) = next fallback
  xid (w : Text) (prev : Char) (fallback : Int) :
    checkDagResult (checkDagLoop tail prev fallback (some (w ++ tail)))
      = (checkXid w none && next fallback)

theorem ends_nil : Ends [] fun fallback => fallback = 0 := by
  refine ⟨by simp, fun prev fallback => ?_, fun w prev fallback => ?_⟩
  · rw [checkDagLoop, checkDagResult_none, Bool.and_true]
  · rw [checkDagLoop, checkDagResult_some, append_nil, Bool.and_comm]

theorem ends_space {more : Text} {next : Int → Bool}
    (h : ∀ prev fallback, prev = ' ' ∨ prev = '\x00' →
      checkDagResult (checkDagLoop more prev fallback none) = next fallback) :
    Ends (' ' :: more) next := by
  refine ⟨by simp, fun prev fallback => h ' ' fallback (.inl rfl), fun w prev fallback => ?_⟩
  have htoken : (w ++ ' ' :: more).take ((w ++ ' ' :: more).length - (' ' :: more).length) = w := by
    rw [length_append, Nat.add_sub_cancel, take_left]
  rw [checkDagLoop, if_pos rfl]
  simp only [htoken]
  by_cases hw : checkXid w none = true
  · rw [if_pos hw, h '\x00' fallback (.inr rfl), hw, Bool.true_and]
  · rw [if_neg hw, checkDagResult_some, Bool.eq_false_iff.2 hw, Bool.false_and, Bool.and_false]

theorem checkDagLoop_skip (hspace : ' ' ∉ w) (hparen : ¬ HasParen w) (tail : Text) (prev : Char)
    (fallback : Int) (x : Text) :
    ∃ prev', checkDagLoop (w ++ tail) prev fallback (some x)
      = checkDagLoop tail prev' fallback (some x) := by
  induction w generalizing prev with
  | nil => exact ⟨prev, rfl⟩
  | cons c w ih =>
    simp only [HasParen, mem_cons, not_or] at hspace hparen ih
    obtain ⟨prev', h⟩ := ih hspace.2 ⟨hparen.1.2, hparen.2.2⟩ c
    refine ⟨prev', ?_⟩
    rw [cons_append, checkDagLoop, if_neg (Ne.symm hspace.1),
      if_neg (by simp [Ne.symm hparen.1.1, Ne.symm hparen.2.1]), some_or, h]

theorem checkDagLoop_leave (hspace : ' ' ∉ w) (hnul : '\x00' ∉ w) (hparen : HasParen w)
    (tail : Text) (hprev : prev ≠ ' ' ∧ prev ≠ '\x00') (fallback : Int) (x : Text) :
    checkDagLoop (w ++ tail) prev fallback (some x) = (false, fallback, some x) := by
  induction w generalizing prev with
  | nil => simp [HasParen] at hparen
  | cons c w ih =>
    simp only [mem_cons, not_or] at hspace hnul
    rw [cons_append, checkDagLoop, if_neg (Ne.symm hspace.1)]
    by_cases hc : c = '(' ∨ c = ')'
    · rw [if_pos hc, if_pos (.inl hprev)]
    · rw [if_neg hc, some_or]
      apply ih hspace.2 hnul.2
      · simp only [HasParen, mem_cons] at hparen ⊢
        simp only [not_or] at hc
        simpa [Ne.symm hc.1, Ne.symm hc.2] using hparen
      · exact ⟨Ne.symm hspace.1, Ne.symm hnul.1⟩

theorem Ends.paren {tail : Text} {next : Int → Bool} (h : Ends tail next) (hc : c = '(' ∨ c = ')')
    (hprev : prev = ' ' ∨ prev = '\x00') (fallback : Int) :
    checkDagResult (checkDagLoop (c :: tail) prev fallback none)
      = next (if c = '(' then fallback + 1 else fallback - 1) := by
  have hspace : c ≠ ' ' := by
    rintro rfl
    exact absurd hc (by decide)
  have hnext : tail.headD '\x00' = ' ' ∨ tail.headD '\x00' = '\x00' := by
    cases tail with
    | nil => exact .inr rfl
    | cons d more => exact .inl (h.stop d rfl)
  rw [checkDagLoop, if_neg hspace, if_pos hc, if_neg (by tauto), h.idle]

theorem checkDagLoop_paren_cons {d : Char} (hc : c = '(' ∨ c = ')') (hd : d ≠ ' ' ∧ d ≠ '\x00')
    (s : Text) (prev : Char) (fallback : Int) :
    checkDagLoop (c :: d :: s) prev fallback none = (false, fallback, none) := by
  have hspace : c ≠ ' ' := by
    rintro rfl
    exact absurd hc (by decide)
  rw [checkDagLoop, if_neg hspace, if_pos hc, if_pos (.inr hd)]

theorem not_beginsXid_paren_cons (hc : c = '(' ∨ c = ')') (w : Text) : ¬ BeginsXid (c :: w) := by
  rintro ⟨type, hash, junk, hparts, -, h⟩
  cases type with
  | nil => exact hparts.ne_nil rfl
  | cons d type =>
    obtain rfl : c = d := (List.cons.inj h).1
    have halnum : isAlnum c = true := hparts.alnum c mem_cons_self
    obtain rfl | rfl := hc <;> exact absurd halnum (by decide)

/-- `checkXid` stops at a parenthesis, if not before. -/
theorem checkXidLoop_append (hparen : HasParen w) (tail : Text) (p : Nat) (colon : Option Nat) :
    checkXidLoop (w ++ tail) p colon = checkXidLoop w p colon := by
  induction w generalizing p colon with
  | nil => simp [HasParen] at hparen
  | cons c w ih =>
    rw [cons_append, checkXidLoop, checkXidLoop]
    by_cases hc : c = '(' ∨ c = ')'
    · have hcolon : c ≠ ':' := by
        rintro rfl
        exact absurd hc (by decide)
      have hxdigit : ¬ isXdigit c = true := by obtain rfl | rfl := hc <;> decide
      have halnum : ¬ isAlnum c = true := by obtain rfl | rfl := hc <;> decide
      rw [if_neg hcolon, if_neg hcolon, if_pos hxdigit, if_pos hxdigit, if_pos halnum,
        if_pos halnum]
    · have hw : HasParen w := by
        simp only [not_or] at hc
        simpa [HasParen, Ne.symm hc.1, Ne.symm hc.2] using hparen
      simp only [ih hw]

theorem checkXid_append (hparen : HasParen w) (tail : Text) :
    checkXid (w ++ tail) none = checkXid w none := by
  rw [checkXid_none, checkXid_none, checkXidLoop_append hparen]

theorem Ends.word {tail : Text} {next : Int → Bool} (h : Ends tail next) (hspace : ' ' ∉ w)
    (hnul : '\x00' ∉ w) (hprev : prev = ' ' ∨ prev = '\x00') (fallback : Int) :
    checkDagResult (checkDagLoop (w ++ tail) prev fallback none) = acceptWord w next fallback := by
  cases w with
  | nil => exact h.idle prev fallback
  | cons c w =>
    rw [acceptWord, if_neg (cons_ne_nil c w)]
    simp only [mem_cons, not_or] at hspace hnul
    by_cases hc : c = '(' ∨ c = ')'
    · cases w with
      | nil =>
        rw [singleton_append, h.paren hc hprev]
        obtain rfl | rfl := hc
        · rfl
        · rfl
      | cons d w =>
        have hd : d ≠ ' ' ∧ d ≠ '\x00' := by
          simp only [mem_cons, not_or] at hspace hnul
          exact ⟨Ne.symm hspace.2.1, Ne.symm hnul.2.1⟩
        have hparen : HasParen (c :: d :: w) := by
          obtain rfl | rfl := hc <;> simp [HasParen]
        have hxid : checkXid (c :: d :: w) none = false := by
          rw [Bool.eq_false_iff, Ne, checkXid_iff]
          exact not_beginsXid_paren_cons hc (d :: w)
        rw [cons_append, cons_append, checkDagLoop_paren_cons hc hd, checkDagResult_none,
          if_neg (by simp), if_neg (by simp), if_pos hparen, hxid]
    · have hopen : c :: w ≠ ['('] := fun h => hc (.inl (List.cons.inj h).1)
      have hclose : c :: w ≠ [')'] := fun h => hc (.inr (List.cons.inj h).1)
      rw [if_neg hopen, if_neg hclose]
      have hfirst : checkDagLoop (c :: w ++ tail) prev fallback none
          = checkDagLoop (w ++ tail) c fallback (some (c :: w ++ tail)) := by
        rw [cons_append, checkDagLoop, if_neg (Ne.symm hspace.1), if_neg hc, none_or]
      have hparen : HasParen (c :: w) ↔ HasParen w := by
        simp only [not_or] at hc
        simp [HasParen, Ne.symm hc.1, Ne.symm hc.2]
      rw [hfirst]
      by_cases hw : HasParen w
      · rw [if_pos (hparen.2 hw), checkDagLoop_leave hspace.2 hnul.2 hw tail
          ⟨Ne.symm hspace.1, Ne.symm hnul.1⟩, checkDagResult_some, checkXid_append (hparen.2 hw)]
      · obtain ⟨prev', hskip⟩ := checkDagLoop_skip hspace.2 hw tail c fallback (c :: w ++ tail)
        rw [if_neg (hparen.not.2 hw), hskip, h.xid]

theorem checkDagResult_intercalate (hne : ws ≠ []) (hspace : ∀ w ∈ ws, ' ' ∉ w)
    (hnul : ∀ w ∈ ws, '\x00' ∉ w) (hprev : prev = ' ' ∨ prev = '\x00') (fallback : Int) :
    checkDagResult (checkDagLoop ([' '].intercalate ws) prev fallback none)
      = acceptWords ws fallback := by
  induction ws generalizing prev fallback with
  | nil => exact absurd rfl hne
  | cons w ws ih =>
    obtain ⟨hspacew, hspace⟩ := forall_mem_cons.1 hspace
    obtain ⟨hnulw, hnul⟩ := forall_mem_cons.1 hnul
    cases ws with
    | nil =>
      rw [intercalate_singleton]
      have hword := ends_nil.word hspacew hnulw hprev fallback
      rwa [append_nil] at hword
    | cons v ws =>
      have hends : Ends (' ' :: [' '].intercalate (v :: ws)) (acceptWords (v :: ws)) :=
        ends_space fun prev fallback hprev =>
          ih (cons_ne_nil v ws) hspace hnul hprev fallback
      rw [intercalate_cons_cons, append_assoc, singleton_append, hends.word hspacew hnulw hprev]
      rfl

/-- The words of a text: what stands between its spaces. -/
def tokens (s : Text) : List Text := (s.splitOn ' ').filter (· ≠ [])

theorem acceptWords_filter (ws : List Text) :
    acceptWords (ws.filter (· ≠ [])) = acceptWords ws := by
  induction ws with
  | nil => rfl
  | cons w ws ih =>
    by_cases hw : w = []
    · rw [filter_cons_of_neg (by simp [hw]), ih, hw]
      rfl
    · rw [filter_cons_of_pos (by simp [hw])]
      exact congrArg (acceptWord w) ih

theorem mem_splitOn {d : Char} (hw : w ∈ s.splitOn c) (hd : d ∈ w) : d ≠ c ∧ d ∈ s := by
  induction s generalizing w with
  | nil =>
    rw [splitOn_nil, mem_singleton] at hw
    rw [hw] at hd
    exact absurd hd not_mem_nil
  | cons e s ih =>
    rw [splitOn_cons_eq_if_modifyHead] at hw
    by_cases he : (e == c) = true
    · rw [if_pos he] at hw
      obtain rfl | hw := mem_cons.1 hw
      · exact absurd hd not_mem_nil
      · exact ⟨(ih hw hd).1, mem_cons_of_mem e (ih hw hd).2⟩
    · rw [if_neg he] at hw
      obtain ⟨v, vs, hvs⟩ := exists_cons_of_ne_nil (splitOn_ne_nil c s)
      rw [hvs] at hw ih
      rw [modifyHead_cons] at hw
      obtain rfl | hw := mem_cons.1 hw
      · obtain rfl | hd := mem_cons.1 hd
        · exact ⟨by simpa using he, mem_cons_self⟩
        · have hv := ih mem_cons_self hd
          exact ⟨hv.1, mem_cons_of_mem e hv.2⟩
      · have hv := ih (mem_cons_of_mem v hw) hd
        exact ⟨hv.1, mem_cons_of_mem e hv.2⟩

theorem checkDag_eq (s : Text) : checkDag s =
    (decide ((cStr s).take 3 = ['R', 'E', ' ']) && acceptWords (tokens ((cStr s).drop 3)) 0) := by
  rw [checkDag, tokens, acceptWords_filter]
  by_cases hre : (cStr s).take 3 = ['R', 'E', ' ']
  · rw [if_neg (not_not.2 hre), decide_eq_true hre, Bool.true_and]
    have hnul : '\x00' ∉ cStr s := by
      intro h
      have hc := mem_takeWhile_imp h
      simp at hc
    rw [← checkDagResult_intercalate (splitOn_ne_nil _ _) (fun w hw hd => (mem_splitOn hw hd).1 rfl)
      (fun w hw hd => hnul (mem_of_mem_drop (mem_splitOn hw hd).2)) (.inl rfl),
      intercalate_splitOn]
  · rw [if_pos hre, decide_eq_false hre, Bool.false_and]

/-! ### The language of `checkDag` -/

/-- A word that `checkDag` goes past. -/
def IsPlain (w : Text) : Prop := w = ['('] ∨ w = [')'] ∨ BeginsXid w ∧ ¬ HasParen w

/-- The words that `checkDag` accepts: as many `(` as `)` among words it goes past, and then either
nothing more, or a word with a parenthesis after its XID and anything else. -/
def Loose (ws : List Text) (fallback : Int) : Prop :=
  ∃ pre post, ws = pre ++ post ∧ (∀ w ∈ pre, IsPlain w) ∧
    fallback + pre.count ['('] = pre.count [')'] ∧ ∀ w ∈ post.head?, BeginsXid w ∧ HasParen w

theorem IsPlain.not_broken (h : IsPlain w) : ¬ (BeginsXid w ∧ HasParen w) := by
  rintro ⟨hbegins, hparen⟩
  obtain rfl | rfl | h := h
  · exact not_beginsXid_paren_cons (.inl rfl) [] hbegins
  · exact not_beginsXid_paren_cons (.inr rfl) [] hbegins
  · exact h.2 hparen

theorem loose_nil (fallback : Int) : Loose [] fallback ↔ fallback = 0 := by
  constructor
  · rintro ⟨pre, post, hnil, -, hcount, -⟩
    obtain ⟨rfl, rfl⟩ := append_eq_nil_iff.1 hnil.symm
    simpa using hcount
  · rintro rfl
    exact ⟨[], [], rfl, by simp, by simp, by simp⟩

/-- The fallback counter after a word. -/
def countParen (w : Text) (fallback : Int) : Int :=
  fallback + [w].count ['('] - [w].count [')']

theorem count_word_cons (w v : Text) (ws : List Text) :
    (w :: ws).count v = [w].count v + ws.count v := by
  rw [count_cons, count_singleton, Nat.add_comm]

theorem loose_cons_of_isPlain (hw : IsPlain w) (ws : List Text) (fallback : Int) :
    Loose (w :: ws) fallback ↔ Loose ws (countParen w fallback) := by
  constructor
  · rintro ⟨pre, post, hws, hplain, hcount, hpost⟩
    cases pre with
    | nil =>
      rw [nil_append] at hws
      rw [← hws] at hpost
      exact absurd (hpost w rfl) hw.not_broken
    | cons v pre =>
      obtain ⟨rfl, rfl⟩ := List.cons.inj hws
      refine ⟨pre, post, rfl, (forall_mem_cons.1 hplain).2, ?_, hpost⟩
      rw [count_word_cons, count_word_cons w [')']] at hcount
      rw [countParen]
      push_cast at hcount
      omega
  · rintro ⟨pre, post, rfl, hplain, hcount, hpost⟩
    refine ⟨w :: pre, post, rfl, forall_mem_cons.2 ⟨hw, hplain⟩, ?_, hpost⟩
    rw [countParen] at hcount
    rw [count_word_cons, count_word_cons w [')']]
    push_cast
    omega

theorem loose_cons_of_not_isPlain (hw : ¬ IsPlain w) (ws : List Text) (fallback : Int) :
    Loose (w :: ws) fallback ↔ fallback = 0 ∧ BeginsXid w ∧ HasParen w := by
  constructor
  · rintro ⟨pre, post, hws, hplain, hcount, hpost⟩
    cases pre with
    | nil =>
      rw [nil_append] at hws
      rw [← hws] at hpost
      exact ⟨by simpa using hcount, hpost w rfl⟩
    | cons v pre =>
      obtain ⟨rfl, -⟩ := List.cons.inj hws
      exact absurd (hplain w mem_cons_self) hw
  · rintro ⟨rfl, hbroken⟩
    refine ⟨[], w :: ws, rfl, by simp, by simp, ?_⟩
    rintro v hv
    obtain rfl : w = v := some_inj.1 hv
    exact hbroken

/-- **What `checkDag` accepts, word by word.** -/
theorem acceptWords_iff (hne : ∀ w ∈ ws, w ≠ []) (fallback : Int) :
    acceptWords ws fallback = true ↔ Loose ws fallback := by
  induction ws generalizing fallback with
  | nil => rw [loose_nil, acceptWords, foldr_nil, decide_eq_true_iff]
  | cons w ws ih =>
    obtain ⟨hw, hne⟩ := forall_mem_cons.1 hne
    change acceptWord w (acceptWords ws) fallback = true ↔ _
    rw [acceptWord, if_neg hw]
    by_cases hopen : w = ['(']
    · rw [if_pos hopen, ih hne, loose_cons_of_isPlain (.inl hopen), hopen]
      simp [countParen]
    rw [if_neg hopen]
    by_cases hclose : w = [')']
    · rw [if_pos hclose, ih hne, loose_cons_of_isPlain (.inr (.inl hclose)), hclose]
      simp [countParen]
    rw [if_neg hclose]
    by_cases hparen : HasParen w
    · have hplain : ¬ IsPlain w := by simp [IsPlain, hopen, hclose, hparen]
      rw [if_pos hparen, loose_cons_of_not_isPlain hplain, Bool.and_eq_true, decide_eq_true_iff,
        checkXid_iff, and_iff_left hparen]
    · rw [if_neg hparen, Bool.and_eq_true, checkXid_iff, ih hne]
      by_cases hxid : BeginsXid w
      · rw [loose_cons_of_isPlain (.inr (.inr ⟨hxid, hparen⟩)), and_iff_right hxid, countParen]
        simp [hopen, hclose]
      · have hplain : ¬ IsPlain w := by simp [IsPlain, hopen, hclose, hxid]
        rw [loose_cons_of_not_isPlain hplain]
        simp [hxid]

/-- The words of a DAG: parentheses and XIDs. -/
structure IsDag (ws : List Text) : Prop where
  word : ∀ w ∈ ws, w = ['('] ∨ w = [')'] ∨ IsXid w
  balanced : ws.count ['('] = ws.count [')']
  opened (k : Nat) : (ws.take k).count [')'] ≤ (ws.take k).count ['(']

theorem IsXid.mem (h : IsXid w) (hc : c ∈ w) : isAlnum c = true ∨ c = ':' ∨ isXdigit c = true := by
  obtain ⟨type, hash, hparts, rfl⟩ := h
  obtain hc | hc := mem_append.1 hc
  · exact .inl (hparts.alnum c hc)
  obtain hc | hc := mem_cons.1 hc
  · exact .inr (.inl hc)
  · exact .inr (.inr (hparts.xdigit c hc))

theorem IsXid.not_hasParen (h : IsXid w) : ¬ HasParen w := by
  rintro (hc | hc)
  · exact absurd (h.mem hc) (by decide)
  · exact absurd (h.mem hc) (by decide)

theorem IsDag.loose (h : IsDag ws) : Loose ws 0 := by
  refine ⟨ws, [], (append_nil ws).symm, fun w hw => ?_, ?_, by simp⟩
  swap
  · rw [h.balanced, Int.zero_add]
  obtain hopen | hclose | hxid := h.word w hw
  · exact .inl hopen
  · exact .inr (.inl hclose)
  · exact .inr (.inr ⟨hxid.beginsXid, hxid.not_hasParen⟩)

/-- The words that `checkDag` accepts though they are not those of a DAG. -/
inductive Misread (ws : List Text) : Prop where
  /-- something follows the digits of an XID -/
  | junk (plain : ∀ w ∈ ws, IsPlain w) (balanced : ws.count ['('] = ws.count [')'])
      (w : Text) (mem : w ∈ ws) (begins : BeginsXid w) (more : ¬ IsXid w)
  /-- a parenthesis is closed before it is opened -/
  | unopened (plain : ∀ w ∈ ws, IsPlain w) (balanced : ws.count ['('] = ws.count [')']) (k : Nat)
      (closed : (ws.take k).count ['('] < (ws.take k).count [')'])
  /-- a parenthesis behind an XID, inside of its word, ends the scan -/
  | broken (pre post : List Text) (w : Text) (split : ws = pre ++ w :: post)
      (plain : ∀ v ∈ pre, IsPlain v) (balanced : pre.count ['('] = pre.count [')'])
      (begins : BeginsXid w) (paren : HasParen w)

theorem Misread.loose (h : Misread ws) : Loose ws 0 := by
  cases h with
  | junk hplain hcount | unopened hplain hcount =>
    exact ⟨ws, [], (append_nil ws).symm, hplain, by rw [hcount, Int.zero_add], by simp⟩
  | broken pre post w hsplit hplain hcount hbegins hparen =>
    refine ⟨pre, w :: post, hsplit, hplain, by rw [hcount, Int.zero_add], fun v hv => ?_⟩
    obtain rfl : w = v := some_inj.1 hv
    exact ⟨hbegins, hparen⟩

theorem Misread.not_isDag (h : Misread ws) : ¬ IsDag ws := by
  intro hdag
  have hxid {w : Text} (hw : w ∈ ws) (hbegins : BeginsXid w) : IsXid w := by
    obtain rfl | rfl | hxid := hdag.word w hw
    · exact absurd hbegins (not_beginsXid_paren_cons (.inl rfl) [])
    · exact absurd hbegins (not_beginsXid_paren_cons (.inr rfl) [])
    · exact hxid
  cases h with
  | junk _ _ w hw hbegins hmore => exact hmore (hxid hw hbegins)
  | unopened _ _ k hclosed => exact absurd (hdag.opened k) (not_le.2 hclosed)
  | broken pre post w hsplit _ _ hbegins hparen =>
    exact (hxid (by simp [hsplit]) hbegins).not_hasParen hparen

theorem Loose.isDag (h : Loose ws 0) (hread : ¬ Misread ws) : IsDag ws := by
  obtain ⟨pre, post, rfl, hplain, hcount, hpost⟩ := h
  have hbalanced : pre.count ['('] = pre.count [')'] := by omega
  have hnil : post = [] := by
    cases post with
    | nil => rfl
    | cons w post =>
      obtain ⟨hbegins, hparen⟩ := hpost w rfl
      exact absurd (.broken pre post w rfl hplain hbalanced hbegins hparen) hread
  rw [hnil, append_nil] at hread ⊢
  refine ⟨fun w hw => ?_, hbalanced, fun k => ?_⟩
  · obtain hopen | hclose | hbegins := hplain w hw
    · exact .inl hopen
    · exact .inr (.inl hclose)
    · by_contra hother
      simp only [not_or] at hother
      exact hread (.junk hplain hbalanced w hw hbegins.1 hother.2.2)
  · by_contra hclosed
    exact hread (.unopened hplain hbalanced k (not_le.1 hclosed))

def IsDagText (s : Text) : Prop := s.take 3 = ['R', 'E', ' '] ∧ IsDag (tokens (s.drop 3))

/-- `checkDag` gives the right answer. -/
def CheckDagExact (s : Text) : Prop := checkDag s = true ↔ IsDagText (cStr s)

theorem ne_nil_of_mem_tokens (hw : w ∈ tokens s) : w ≠ [] := by
  simpa using (mem_filter.1 hw).2

/-- **What `checkDag` accepts.** -/
theorem checkDag_iff (s : Text) : checkDag s = true ↔
    (cStr s).take 3 = ['R', 'E', ' '] ∧ Loose (tokens ((cStr s).drop 3)) 0 := by
  rw [checkDag_eq, Bool.and_eq_true, decide_eq_true_iff,
    acceptWords_iff (fun w hw => ne_nil_of_mem_tokens hw)]

/-- **`checkDag` is exact on all texts but those that it misreads.** -/
theorem checkDag_exact_iff (s : Text) : CheckDagExact s ↔
    ¬ ((cStr s).take 3 = ['R', 'E', ' '] ∧ Misread (tokens ((cStr s).drop 3))) := by
  rw [CheckDagExact, checkDag_iff, IsDagText]
  constructor
  · rintro h ⟨hre, hmisread⟩
    exact hmisread.not_isDag (h.1 ⟨hre, hmisread.loose⟩).2
  · intro h
    constructor
    · rintro ⟨hre, hloose⟩
      exact ⟨hre, hloose.isDag fun hmisread => h ⟨hre, hmisread⟩⟩
    · rintro ⟨hre, hdag⟩
      exact ⟨hre, hdag.loose⟩

/-- A parenthesis that is closed before it is opened, an XID with something after it, and an XID
with a parenthesis after it and a word that is none. -/
theorem not_checkDag_exact : ¬ CheckDagExact "RE ) (".toList ∧
    ¬ CheckDagExact "RE AD:0000000000000000000000000000000000000000!".toList ∧
    ¬ CheckDagExact "RE AD:0000000000000000000000000000000000000000( x".toList := by
  refine ⟨fun h => ?_, fun h => ?_, fun h => ?_⟩
  · have hdag := (h.1 (by decide +kernel)).2
    exact absurd (hdag.opened 1) (by decide +kernel)
  · have hdag := (h.1 (by decide +kernel)).2
    obtain hopen | hclose | hxid := hdag.word
      "AD:0000000000000000000000000000000000000000!".toList (by decide +kernel)
    · exact absurd hopen (by decide)
    · exact absurd hclose (by decide)
    · exact absurd (hxid.mem (by decide : '!' ∈ _)) (by decide)
  · have hdag := (h.1 (by decide +kernel)).2
    obtain hopen | hclose | ⟨type, hash, hparts, hx⟩ := hdag.word ['x'] (by decide +kernel)
    · exact absurd hopen (by decide)
    · exact absurd hclose (by decide)
    · have hlen := congrArg length hx
      rw [length_singleton, length_append, length_cons, hparts.length, xidChars] at hlen
      omega

end Xsocket

end Xia
