import Xia.Dagaddr.Equiv.Text

/-!
# Reading the form with fallbacks

`construct_from_re_string` keeps the indices of the last main node and of the fallback nodes that
lead past it.  An index that was never set is used as one by a text that closes a parenthesis with
no XID inside any; `constructFromReString_eq_ok` says when the loop does not fail and gives its
state as that of a loop that cannot fail (`ReState.after`).
-/

namespace Xia

open List hiding after
open Result

namespace Dagaddr

namespace Graph

variable {libc : Libc} {st st' : ReState} {c : Text}

namespace ReState

/-! ### One component -/

/-- What holds before every iteration. -/
structure Inv (libc : Libc) (st : ReState) : Prop where
  proper : st.graph.Proper
  ptr : ∀ n ∈ st.graph.nodes, n.ptr = 0 ∨ ∃ k < st.made, n.ptr = libc.new k
  intent : st.lastIntentIdx < st.graph.nodes.length
  first : ∀ i ∈ st.firstFallbackIdx, i < st.graph.nodes.length
  last : ∀ i ∈ st.lastFallbackIdx, i < st.graph.nodes.length
  both : st.firstFallbackIdx.isSome = st.lastFallbackIdx.isSome
  started : st.processingFallback = true → st.justStartedFallback = false →
    st.lastFallbackIdx.isSome = true

def newLinks (st : ReState) : List (Nat × Nat) :=
  let cur := st.graph.nodes.length
  let first := st.firstFallbackIdx.getD 0
  let last := st.lastFallbackIdx.getD 0
  if st.processingFallback then
    if st.justStartedFallback then [] else [(last, cur)]
  else if st.justProcessedFallback then
    [(st.lastIntentIdx, cur), (st.lastIntentIdx, first), (last, cur)]
  else [(st.lastIntentIdx, cur)]

/-- The state after an XID, if the indices that are used are set. -/
def enter (libc : Libc) (st : ReState) (c : Text) : ReState :=
  let cur := st.graph.nodes.length
  let st' := { st with
    graph := (st.graph.push (Node.read libc (libc.new st.made) c)).links st.newLinks
    made := st.made + 1 }
  if st.processingFallback then
    { st' with
      firstFallbackIdx := if st.justStartedFallback then some cur else st.firstFallbackIdx
      lastFallbackIdx := some cur
      justStartedFallback := false }
  else { st' with lastIntentIdx := cur, justProcessedFallback := false }

/-- The indices that an XID uses are set. -/
def Ready (st : ReState) : Prop :=
  st.processingFallback = false → st.justProcessedFallback = true →
    st.firstFallbackIdx.isSome = true

theorem Inv.addNode (h : st.Inv libc) (c : Text) :
    st.graph.addNode (Node.read libc (libc.new st.made) c) false =
      (st.graph.nodes.length, st.graph.push (Node.read libc (libc.new st.made) c)) := by
  refine addNode_fresh h.proper.toWellFormed fun n hn heq => ?_
  rcases h.ptr n hn with hzero | ⟨k, hk, hptr⟩
  · exact libc.new_ne_zero st.made (heq.symm.trans hzero)
  · have := libc.new_injective (heq.symm.trans hptr)
    omega

theorem Inv.inside (h : st.Inv libc) (n : Node) : (st.graph.push n).Inside st.newLinks := by
  have hlength : (st.graph.push n).nodes.length = st.graph.nodes.length + 1 := by simp [push]
  have hintent := h.intent
  have hindex {o : Option Nat} (ho : ∀ i ∈ o, i < st.graph.nodes.length) :
      o.getD 0 < st.graph.nodes.length + 1 := by
    cases o with
    | none => exact Nat.succ_pos _
    | some i => exact Nat.lt_succ_of_lt (ho i rfl)
  have hfirst := hindex h.first
  have hlast := hindex h.last
  intro e he
  rw [hlength]
  unfold newLinks at he
  dsimp only at he
  split_ifs at he <;>
    simp only [mem_cons, not_mem_nil, or_false] at he
  · rw [he]
    exact ⟨hlast, Nat.lt_succ_self _⟩
  · rcases he with rfl | rfl | rfl
    · exact ⟨Nat.lt_succ_of_lt hintent, Nat.lt_succ_self _⟩
    · exact ⟨Nat.lt_succ_of_lt hintent, hfirst⟩
    · exact ⟨hlast, Nat.lt_succ_self _⟩
  · rw [he]
    exact ⟨Nat.lt_succ_of_lt hintent, Nat.lt_succ_self _⟩

theorem addXid_of_ready (h : st.Inv libc) (hsplit : 2 ≤ (split ':' c).length) (hready : st.Ready) :
    st.addXid libc c = .ok (st.enter libc c) := by
  have hread : Node.ofString libc (libc.new st.made) c =
      .ok (Node.read libc (libc.new st.made) c) := Node.ofString_eq_ok.2 ⟨hsplit, rfl⟩
  have hg := h.proper.toWellFormed.push (Node.read libc (libc.new st.made) c)
  have hinside := h.inside (Node.read libc (libc.new st.made) c)
  rw [addXid, hread, ok_bind, h.addNode]
  unfold ReState.enter
  unfold newLinks at hinside ⊢
  dsimp only at hinside ⊢
  by_cases hproc : st.processingFallback = true
  · rw [if_pos hproc] at hinside
    rw [if_pos hproc, if_pos hproc, if_pos hproc]
    by_cases hjust : st.justStartedFallback = true
    · rw [if_pos hjust, if_pos hjust, if_pos hjust]
      rfl
    · -- there is a last fallback node
      obtain ⟨j, hj⟩ := Option.isSome_iff_exists.1 (h.started hproc (by simpa using hjust))
      rw [if_neg hjust, hj] at hinside
      rw [if_neg hjust, if_neg hjust, if_neg hjust, hj]
      obtain ⟨hlast, hcur⟩ := hinside (j, st.graph.nodes.length) (mem_singleton_self _)
      have hlink := addEdge_eq hg hlast hcur
      simp only [inBounds, ok_bind, hlink]
      simp [links, hjust]
  · rw [if_neg hproc] at hinside
    rw [if_neg hproc, if_neg hproc, if_neg hproc]
    by_cases hdone : st.justProcessedFallback = true
    · obtain ⟨i, hi⟩ := Option.isSome_iff_exists.1 (hready (by simpa using hproc) hdone)
      obtain ⟨j, hj⟩ := Option.isSome_iff_exists.1 (h.both.symm.trans (by rw [hi]; rfl))
      rw [if_pos hdone, hi, hj] at hinside
      rw [if_pos hdone, hi, hj]
      obtain ⟨hintent, hcur⟩ := hinside (st.lastIntentIdx, st.graph.nodes.length) (by simp)
      obtain ⟨-, hfirst⟩ := hinside (st.lastIntentIdx, i) (by simp)
      obtain ⟨hlast, -⟩ := hinside (j, st.graph.nodes.length) (by simp)
      have hlift {k : Graph} {x a b : Nat} (hx : x < k.nodes.length) :
          x < (k.link a b).nodes.length := by rwa [nodes_link]
      have hlink₁ := addEdge_eq hg hintent hcur
      have hg₁ := hg.link hintent hcur
      have hlink₂ := addEdge_eq hg₁ (hlift hintent) (hlift hfirst)
      have hg₂ := hg₁.link (hlift hintent) (hlift hfirst)
      have hlink₃ := addEdge_eq hg₂ (hlift (hlift hlast)) (hlift (hlift hcur))
      simp only [inBounds, ok_bind, hlink₁, hlink₂, hlink₃, hdone, if_true]
      rfl
    · rw [if_neg hdone] at hinside
      rw [if_neg hdone]
      obtain ⟨hintent, hcur⟩ := hinside (st.lastIntentIdx, st.graph.nodes.length)
        (mem_singleton_self _)
      have hlink := addEdge_eq hg hintent hcur
      simp only [ok_bind, hlink]
      simp [links, hdone]

theorem ready_of_addXid (h : st.addXid libc c = .ok st') : 2 ≤ (split ':' c).length ∧ st.Ready := by
  obtain ⟨n, hn, hrest⟩ := bind_eq_ok.1 h
  refine ⟨(Node.ofString_eq_ok.1 hn).1, fun hproc hdone => ?_⟩
  dsimp only at hrest
  rw [if_neg (by simp [hproc])] at hrest
  obtain ⟨g, -, hrest⟩ := bind_eq_ok.1 hrest
  rw [if_pos hdone] at hrest
  obtain ⟨i, hi, -⟩ := bind_eq_ok.1 hrest
  rw [inBounds_eq_ok.1 hi]
  rfl

theorem Inv.enter (h : st.Inv libc) (c : Text) : (st.enter libc c).Inv libc := by
  have hnodes : (st.enter libc c).graph.nodes =
      st.graph.nodes ++ [Node.read libc (libc.new st.made) c] := by
    unfold ReState.enter
    split <;> exact nodes_links
  have hmade : (st.enter libc c).made = st.made + 1 := by
    unfold ReState.enter
    split <;> rfl
  have hlength : (st.enter libc c).graph.nodes.length = st.graph.nodes.length + 1 := by
    simp [hnodes]
  refine ⟨?_, ?_, ?_, ?_, ?_, ?_, ?_⟩
  · unfold ReState.enter
    split <;> exact (h.proper.push _).links (h.inside _)
  · intro n hn
    rw [hmade]
    rw [hnodes] at hn
    rcases mem_append.1 hn with hn | hn
    · rcases h.ptr n hn with hzero | ⟨k, hk, hptr⟩
      · exact .inl hzero
      · exact .inr ⟨k, by omega, hptr⟩
    · rw [mem_singleton.1 hn]
      exact .inr ⟨st.made, by omega, rfl⟩
  all_goals have hintent := h.intent
  all_goals have hfirst := h.first
  all_goals have hlast := h.last
  all_goals have hboth := h.both
  all_goals try rw [hlength]
  all_goals unfold ReState.enter
  · split <;> dsimp only <;> omega
  · intro i hi
    split at hi
    · dsimp only at hi
      split at hi
      · simp only [Option.mem_some_iff] at hi
        omega
      · exact Nat.lt_succ_of_lt (hfirst i hi)
    · exact Nat.lt_succ_of_lt (hfirst i hi)
  · intro i hi
    split at hi
    · simp only [Option.mem_some_iff] at hi
      omega
    · exact Nat.lt_succ_of_lt (hlast i hi)
  · split
    · rename_i hproc
      dsimp only
      split
      · rfl
      · rename_i hjust
        rw [hboth, h.started hproc (by simpa using hjust)]
        rfl
    · exact hboth
  · split
    · exact fun _ _ => rfl
    · rename_i hproc
      exact fun hproc' => absurd hproc' hproc

/-- The state after a component, if the indices that are used are set. -/
def after (libc : Libc) (st : ReState) (c : Text) : ReState :=
  if c = ['('] then { st with processingFallback := true, justStartedFallback := true }
  else if c = [')'] then { st with processingFallback := false, justProcessedFallback := true }
  else st.enter libc c

def IsParen (c : Text) : Prop := c = ['('] ∨ c = [')']

instance (c : Text) : Decidable (IsParen c) := inferInstanceAs (Decidable (_ ∨ _))

theorem step_eq_ok (h : st.Inv libc) : st.step libc c = .ok st' ↔
    (¬ IsParen c → 2 ≤ (split ':' c).length ∧ st.Ready) ∧ st' = st.after libc c := by
  unfold step after IsParen
  split_ifs with hopen hclose
  · rw [pure_eq_ok]
    simp [hopen, eq_comm]
  · rw [pure_eq_ok]
    simp [hclose, eq_comm]
  · simp only [hopen, hclose, or_self, not_false_eq_true, forall_const]
    constructor
    · intro hok
      obtain ⟨hsplit, hready⟩ := ready_of_addXid hok
      rw [addXid_of_ready h hsplit hready, Except.ok.injEq] at hok
      exact ⟨⟨hsplit, hready⟩, hok.symm⟩
    · rintro ⟨⟨hsplit, hready⟩, rfl⟩
      exact addXid_of_ready h hsplit hready

theorem Inv.after (h : st.Inv libc) (c : Text) : (st.after libc c).Inv libc := by
  unfold ReState.after
  split
  · exact { h with started := fun _ hjust => by cases hjust }
  · split
    · exact { h with started := fun hproc => by cases hproc }
    · exact h.enter c

theorem inv_init : init.Inv libc where
  proper := proper_empty.addNode Node.dummySource false
  ptr := fun n hn => .inl (by rw [mem_singleton.1 hn]; rfl)
  intent := by decide
  first := nofun
  last := nofun
  both := rfl
  started := nofun

end ReState

/-! ### All components -/

open ReState

def InParens (cs : List Text) : Prop := (cs.filter (IsParen ·)).getLast? = some ['(']

def HasFallback (cs : List Text) : Prop :=
  ∃ pre x post, cs = pre ++ x :: post ∧ ¬ IsParen x ∧ InParens pre

/-- The components can be read: all but the parentheses have two parts, and before an XID that
stands outside of parentheses and behind a closing one there is an XID in parentheses. -/
structure ReadableRe (cs : List Text) : Prop where
  xids : ∀ c ∈ cs, ¬ IsParen c → 2 ≤ (split ':' c).length
  fallbacks : ∀ pre c post, cs = pre ++ c :: post → ¬ IsParen c → ¬ InParens pre → [')'] ∈ pre →
    HasFallback pre

theorem concat_eq_append_cons {α : Type} {cs pre post : List α} {c x : α} :
    cs ++ [c] = pre ++ x :: post ↔
      (post = [] ∧ pre = cs ∧ x = c) ∨ ∃ post', post = post' ++ [c] ∧ cs = pre ++ x :: post' := by
  constructor
  · intro h
    rcases eq_nil_or_concat' post with rfl | ⟨post', d, rfl⟩
    · obtain ⟨hcs, hc⟩ := append_inj' h rfl
      exact .inl ⟨rfl, hcs.symm, (List.cons.inj hc).1.symm⟩
    · rw [← cons_append, ← append_assoc] at h
      obtain ⟨hcs, hc⟩ := append_inj' h rfl
      exact .inr ⟨post', by rw [hc], hcs⟩
  · rintro (⟨rfl, rfl, rfl⟩ | ⟨post', rfl, rfl⟩)
    · rfl
    · simp

variable {cs : List Text}

theorem inParens_concat : InParens (cs ++ [c]) ↔ c = ['('] ∨ (¬ IsParen c ∧ InParens cs) := by
  unfold InParens
  rw [filter_append, filter_singleton]
  by_cases hc : IsParen c
  · simp [hc]
  · have hne : c ≠ ['('] := fun heq => hc (.inl heq)
    simp [hc, hne]

theorem hasFallback_concat :
    HasFallback (cs ++ [c]) ↔ HasFallback cs ∨ (¬ IsParen c ∧ InParens cs) := by
  simp only [HasFallback, concat_eq_append_cons]
  constructor
  · rintro ⟨pre, x, post, ⟨rfl, rfl, rfl⟩ | ⟨post', rfl, rfl⟩, hx, hpre⟩
    · exact .inr ⟨hx, hpre⟩
    · exact .inl ⟨pre, x, post', rfl, hx, hpre⟩
  · rintro (⟨pre, x, post, rfl, hx, hpre⟩ | ⟨hc, hcs⟩)
    · exact ⟨pre, x, post ++ [c], .inr ⟨post, rfl, rfl⟩, hx, hpre⟩
    · exact ⟨cs, c, [], .inl ⟨rfl, rfl, rfl⟩, hc, hcs⟩

theorem readableRe_concat : ReadableRe (cs ++ [c]) ↔ ReadableRe cs ∧ (¬ IsParen c →
    2 ≤ (split ':' c).length ∧ (¬ InParens cs → [')'] ∈ cs → HasFallback cs)) := by
  constructor
  · rintro ⟨hxids, hfallbacks⟩
    refine ⟨⟨fun d hd => hxids d (mem_append_left _ hd), fun pre d post heq => ?_⟩,
      fun hc => ⟨hxids c (by simp) hc, hfallbacks cs c [] rfl hc⟩⟩
    exact hfallbacks pre d (post ++ [c]) (by simp [heq])
  · rintro ⟨⟨hxids, hfallbacks⟩, hlast⟩
    refine ⟨fun d hd hparen => ?_, fun pre d post heq hparen => ?_⟩
    · rcases mem_append.1 hd with hd | hd
      · exact hxids d hd hparen
      · rw [mem_singleton] at hd
        subst hd
        exact (hlast hparen).1
    · rcases concat_eq_append_cons.1 heq with ⟨rfl, rfl, rfl⟩ | ⟨post', rfl, rfl⟩
      · exact (hlast hparen).2
      · exact hfallbacks pre d post' rfl hparen

/-- The state after the components, if the indices that are used are set. -/
def ReState.run (libc : Libc) (cs : List Text) : ReState := cs.foldl (after libc) init

theorem run_concat (cs : List Text) (c : Text) :
    run libc (cs ++ [c]) = (run libc cs).after libc c := foldl_append

theorem inv_run (libc : Libc) (cs : List Text) : (run libc cs).Inv libc := by
  induction cs using List.reverseRecOn with
  | nil => exact inv_init
  | append_singleton cs c ih =>
    rw [run_concat]
    exact ih.after c

/-! The flags say where in the text the loop is. -/

theorem processing_run (libc : Libc) : (run libc cs).processingFallback = true ↔ InParens cs := by
  induction cs using List.reverseRecOn with
  | nil => simp [run, ReState.init, InParens]
  | append_singleton cs c ih =>
    rw [run_concat, inParens_concat, ← ih, after]
    by_cases hopen : c = ['(']
    · simp [hopen]
    · by_cases hclose : c = [')']
      · simp [hclose, IsParen]
      · rw [if_neg hopen, if_neg hclose]
        simp only [IsParen, hopen, hclose, or_self, not_false_eq_true, true_and, false_or]
        unfold ReState.enter
        split <;> rfl

theorem first_run (libc : Libc) :
    (run libc cs).firstFallbackIdx.isSome = true ↔ HasFallback cs := by
  induction cs using List.reverseRecOn with
  | nil => simp [run, ReState.init, HasFallback]
  | append_singleton cs c ih =>
    rw [run_concat, hasFallback_concat, ← ih, ← processing_run libc, after]
    by_cases hopen : c = ['(']
    · simp [hopen, IsParen]
    · by_cases hclose : c = [')']
      · simp [hclose, IsParen]
      · rw [if_neg hopen, if_neg hclose]
        simp only [IsParen, hopen, hclose, or_self, not_false_eq_true, true_and]
        have hinv := inv_run libc cs
        have hstarted := hinv.started
        rw [← hinv.both] at hstarted
        unfold ReState.enter
        cases hproc : (run libc cs).processingFallback with
        | true =>
          cases hjust : (run libc cs).justStartedFallback with
          | true => simp
          | false => simp [hstarted hproc hjust]
        | false => simp

theorem closed_of_processed (h : (run libc cs).justProcessedFallback = true) : [')'] ∈ cs := by
  induction cs using List.reverseRecOn with
  | nil => cases h
  | append_singleton cs c ih =>
    rw [run_concat, after] at h
    split_ifs at h with hopen hclose
    · exact mem_append_left _ (ih h)
    · simp [hclose]
    · unfold ReState.enter at h
      split at h
      · exact mem_append_left _ (ih h)
      · cases h

theorem processed_or_hasFallback (libc : Libc) (h : ReadableRe cs) (hclosed : [')'] ∈ cs) :
    (run libc cs).justProcessedFallback = true ∨ HasFallback cs := by
  induction cs using List.reverseRecOn with
  | nil => cases hclosed
  | append_singleton cs c ih =>
    obtain ⟨hcs, hc⟩ := readableRe_concat.1 h
    rw [run_concat, hasFallback_concat, after]
    by_cases hopen : c = ['(']
    · have hmem : [')'] ∈ cs := by simpa [hopen] using hclosed
      rw [if_pos hopen]
      exact (ih hcs hmem).imp_right .inl
    · by_cases hclose : c = [')']
      · rw [if_neg hopen, if_pos hclose]
        exact .inl rfl
      · have hparen : ¬ IsParen c := not_or.2 ⟨hopen, hclose⟩
        have hmem : [')'] ∈ cs := by simpa [Ne.symm hclose] using hclosed
        by_cases hin : InParens cs
        · exact .inr (.inr ⟨hparen, hin⟩)
        · exact .inr (.inl ((hc hparen).2 hin hmem))

theorem ready_run (h : ReadableRe cs) : (run libc cs).Ready ↔
    (¬ InParens cs → [')'] ∈ cs → HasFallback cs) := by
  unfold ReState.Ready
  rw [← processing_run libc, ← first_run libc, Bool.not_eq_true]
  constructor
  · intro hready hout hclosed
    rcases processed_or_hasFallback libc h hclosed with hdone | hfallback
    · exact hready hout hdone
    · exact (first_run libc).2 hfallback
  · exact fun hready hout hdone => hready hout (closed_of_processed hdone)

/-- **The loop does not fail exactly if the components can be read.** -/
theorem foldlM_step_eq_ok :
    cs.foldlM (ReState.step libc) init = .ok st ↔ ReadableRe cs ∧ st = run libc cs := by
  induction cs using List.reverseRecOn generalizing st with
  | nil =>
    rw [foldlM_nil, pure_eq_ok]
    exact ⟨fun h => ⟨⟨by simp, by simp⟩, h.symm⟩, fun h => h.2.symm⟩
  | append_singleton cs c ih =>
    rw [foldlM_append, bind_eq_ok]
    simp only [ih, foldlM_cons, foldlM_nil, bind_pure]
    rw [readableRe_concat, run_concat]
    constructor
    · rintro ⟨k, ⟨hcs, rfl⟩, hstep⟩
      obtain ⟨hc, rfl⟩ := (step_eq_ok (inv_run libc cs)).1 hstep
      rw [ready_run hcs] at hc
      exact ⟨⟨hcs, hc⟩, rfl⟩
    · rintro ⟨⟨hcs, hc⟩, rfl⟩
      refine ⟨_, ⟨hcs, rfl⟩, (step_eq_ok (inv_run libc cs)).2 ⟨?_, rfl⟩⟩
      rw [ready_run hcs]
      exact hc

/-- **The graph that is read from the form with fallbacks.** -/
theorem constructFromReString_eq_ok {g : Graph} {s : Text} : constructFromReString libc s = .ok g ↔
      ReadableRe (split ' ' s).tail ∧ g = (run libc (split ' ' s).tail).graph := by
  unfold constructFromReString
  rw [bind_eq_ok]
  simp only [foldlM_step_eq_ok, pure_eq_ok]
  constructor
  · rintro ⟨st, ⟨hcs, rfl⟩, rfl⟩
    exact ⟨hcs, rfl⟩
  · rintro ⟨hcs, rfl⟩
    exact ⟨_, ⟨hcs, rfl⟩, rfl⟩

end Graph

end Dagaddr

end Xia
