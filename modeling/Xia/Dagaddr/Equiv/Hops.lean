import Xia.Dagaddr.Equiv.DagString
import Xia.Dagaddr.Equiv.Fallbacks
import Xia.Equiv.ReText

/-!
# The RE form of the router, read by the API

Both libraries have an RE form, and they read it differently: the router gives every fallback node
an edge to the main node, the API only the last one.  `reLinks` is what the API reads from a list of
hops; it is what the router had exactly if no fallback has two nodes (`chain_targets`,
`fallbacks_of_degrees`).
-/

namespace Xia

open List hiding after

namespace Dagaddr

def IsAddressXid (x : Xid) : Prop := htonl x.type ∈ Graph.addressTypes

theorem unparse_eq_toText {x : Xid} (hx : IsAddressXid x) (ptr : Nat) :
    x.unparse = (⟨ptr, htonl x.type, x.id⟩ : Node).toText := by
  have htype := Graph.typeString_eq (n := ⟨ptr, htonl x.type, x.id⟩) hx
  rw [Node.toText, htype, htonl_htonl]
  rfl

theorem ofString_unparse (libc : Libc) (ptr : Nat) {x : Xid} (hx : IsAddressXid x) :
    Node.ofString libc ptr x.unparse = .ok ⟨ptr, htonl x.type, x.id⟩ := by
  rw [unparse_eq_toText hx ptr]
  exact Node.ofString_toText libc ptr hx

theorem upperG_not_mem_unparse (x : Xid) : 'G' ∉ x.unparse :=
  fun hmem => absurd (Xid.mem_unparse hmem) (by decide)

theorem two_le_split_unparse {x : Xid} (hx : IsAddressXid x) : 2 ≤ (split ':' x.unparse).length :=
  (Node.ofString_eq_ok.1 (ofString_unparse default 0 hx)).1

theorem xid_read (libc : Libc) (ptr : Nat) {x : Xid} (hx : IsAddressXid x) :
    (Node.read libc ptr x.unparse).xid = x := by
  rw [← (Node.ofString_eq_ok.1 (ofString_unparse libc ptr hx)).2, Node.xid, htonl_htonl]

namespace Graph

open ReState

variable {libc : Libc} {st : ReState} {xs : List Xid} {es : List (Nat × Nat)}
variable {prev : Nat} {cs : List Text} {ks : List Nat}

/-! ### What is read from hops -/

/-- The graph that is being built has the XIDs and the edges of the components that were read. -/
structure Tracks (libc : Libc) (cs : List Text) (st : ReState) (xs : List Xid)
    (es : List (Nat × Nat)) : Prop where
  read : cs.foldlM (ReState.step libc) init = .ok st
  inv : st.Inv libc
  nodes : st.graph.nodes.map Node.xid = Node.dummySource.xid :: xs
  out : ∀ i, st.graph.outOf i = pushAll [] (targets es i)

theorem Tracks.length (h : Tracks libc cs st xs es) : st.graph.nodes.length = xs.length + 1 := by
  rw [← length_map Node.xid, h.nodes, length_cons]

theorem Tracks.step (h : Tracks libc cs st xs es) {c : Text}
    (hc : ¬ IsParen c → 2 ≤ (split ':' c).length ∧ st.Ready) :
    (cs ++ [c]).foldlM (ReState.step libc) init = .ok (st.after libc c) := by
  rw [foldlM_append, h.read, Result.ok_bind, foldlM_cons, (step_eq_ok h.inv).2 ⟨hc, rfl⟩]
  rfl

theorem Tracks.paren (h : Tracks libc cs st xs es) {c : Text} (hc : IsParen c) :
    Tracks libc (cs ++ [c]) (st.after libc c) xs es := by
  have hgraph : (st.after libc c).graph = st.graph := by
    rcases hc with rfl | rfl <;> rfl
  exact ⟨h.step fun hno => absurd hc hno, h.inv.after c, hgraph ▸ h.nodes, hgraph ▸ h.out⟩

theorem graph_enter (libc : Libc) (st : ReState) (c : Text) : (st.enter libc c).graph =
    (st.graph.push (Node.read libc (libc.new st.made) c)).links st.newLinks := by
  unfold ReState.enter
  split <;> rfl

theorem after_unparse (libc : Libc) (st : ReState) (x : Xid) :
    st.after libc x.unparse = st.enter libc x.unparse := by
  rw [after, if_neg (x.unparse_ne_singleton (by decide)),
    if_neg (x.unparse_ne_singleton (by decide))]

theorem Tracks.xid (h : Tracks libc cs st xs es) {x : Xid} (hx : IsAddressXid x)
    (hready : st.Ready) : Tracks libc (cs ++ [x.unparse]) (st.enter libc x.unparse) (xs ++ [x])
      (es ++ st.newLinks) := by
  rw [← after_unparse]
  refine ⟨h.step fun _ => ⟨two_le_split_unparse hx, hready⟩, h.inv.after _, ?_, fun i => ?_⟩
  · rw [after_unparse, graph_enter, nodes_links, push, map_append, h.nodes, map_singleton,
      xid_read libc _ hx]
    rfl
  · rw [after_unparse, graph_enter, outOf_links (h.inv.proper.toWellFormed.push _) (h.inv.inside _),
      outOf_push, h.out, ← pushAll_append, targets_append]

/-- The edges that the API reads from a hop with `k` fallback nodes. -/
def hopLinks (prev next k : Nat) : List (Nat × Nat) :=
  if k = 0 then [(prev, next)]
  else (List.range' next (k - 1)).map (fun j => (j, j + 1)) ++
    [(prev, next + k), (prev, next), (next + k - 1, next + k)]

/-- The edges that the API reads from hops with these numbers of fallback nodes. -/
def reLinks : Nat → Nat → List Nat → List (Nat × Nat)
  | _, _, [] => []
  | prev, next, k :: ks => hopLinks prev next k ++ reLinks (next + k) (next + k + 1) ks

theorem Tracks.fallback {last : Nat} (h : Tracks libc cs st xs es)
    (hproc : st.processingFallback = true) (hjust : st.justStartedFallback = false)
    (hlast : st.lastFallbackIdx = some last)
    (hcur : last = xs.length) {ys : List Xid} (hys : ∀ y ∈ ys, IsAddressXid y) :
    ∃ st', Tracks libc (cs ++ ys.map Xid.unparse) st' (xs ++ ys)
        (es ++ (List.range' last ys.length).map fun j => (j, j + 1)) ∧
      st'.lastFallbackIdx = some (last + ys.length) ∧ st'.firstFallbackIdx = st.firstFallbackIdx ∧
      st'.lastIntentIdx = st.lastIntentIdx := by
  induction ys generalizing cs st xs es last with
  | nil => exact ⟨st, by simpa using h, hlast, rfl, rfl⟩
  | cons y ys ih =>
    obtain ⟨hy, hys⟩ := forall_mem_cons.1 hys
    have hnew : st.newLinks = [(last, last + 1)] := by
      simp [newLinks, hproc, hjust, hlast, h.length, hcur]
    have hstep := h.xid hy fun hout => by simp [hproc] at hout
    have henter : st.enter libc y.unparse = { st with
        graph := (st.enter libc y.unparse).graph
        made := st.made + 1
        lastFallbackIdx := some (last + 1) } := by
      simp [ReState.enter, hproc, hjust, h.length, hcur]
    rw [hnew, henter] at hstep
    obtain ⟨st', htracks, hlast', hfirst', hintent'⟩ :=
      ih hstep hproc hjust rfl (by simp [hcur]) hys
    refine ⟨st', by simpa [range'_succ] using htracks, ?_, hfirst', hintent'⟩
    rw [hlast', length_cons]
    congr 1
    omega

/-- The state between two hops. -/
structure AtHop (libc : Libc) (cs : List Text) (st : ReState) (xs : List Xid)
    (es : List (Nat × Nat)) (prev : Nat) : Prop extends Tracks libc cs st xs es where
  outside : st.processingFallback = false
  entered : st.justProcessedFallback = false
  intent : st.lastIntentIdx = prev

theorem atHop_init : AtHop libc [] init [] [] 0 where
  read := rfl
  inv := inv_init
  nodes := rfl
  out := by
    intro i
    match i with
    | 0 => rfl
    | i + 1 => rfl
  outside := rfl
  entered := rfl
  intent := rfl

theorem Tracks.main (h : Tracks libc cs st xs es) {x : Xid} (hx : IsAddressXid x)
    (hready : st.Ready) (hout : st.processingFallback = false) :
    AtHop libc (cs ++ [x.unparse]) (st.enter libc x.unparse) (xs ++ [x]) (es ++ st.newLinks)
      (xs.length + 1) := by
  have hstep := h.xid hx hready
  refine ⟨hstep, ?_, ?_, ?_⟩ <;> simp [ReState.enter, hout, h.length]

/-- **One hop.** -/
theorem AtHop.hop (h : AtHop libc cs st xs es prev) {hop : Hop}
    (hhop : ∀ x ∈ hop.fallback ++ [hop.main], IsAddressXid x) :
    ∃ st', AtHop libc (cs ++ hop.words) st' (xs ++ (hop.fallback ++ [hop.main]))
      (es ++ hopLinks prev (xs.length + 1) hop.fallback.length)
      (xs.length + 1 + hop.fallback.length) := by
  have hmain : IsAddressXid hop.main := hhop _ (by simp)
  obtain ⟨fallback, main⟩ := hop
  cases fallback with
  | nil =>
    have hnew : st.newLinks = [(prev, xs.length + 1)] := by
      simp [newLinks, h.outside, h.entered, h.intent, h.length]
    have hstep := h.main hmain (fun _ hdone => by simp [h.entered] at hdone) h.outside
    rw [hnew] at hstep
    exact ⟨_, hstep⟩
  | cons y ys =>
    obtain ⟨hy, hrest⟩ := forall_mem_cons.1 hhop
    -- the parenthesis and the first fallback node
    have hstep₁ := (h.paren (.inl rfl : IsParen ['('])).xid hy nofun
    rw [show newLinks (st.after libc ['(']) = [] from rfl, append_nil] at hstep₁
    obtain ⟨st₃, htracks, hlast, hfirst, hintent⟩ := hstep₁.fallback rfl rfl
      (show _ = some (xs.length + 1) from congrArg some h.length) (by simp)
      fun y hy => hrest y (mem_append_left _ hy)
    have hfirst₃ : st₃.firstFallbackIdx = some (xs.length + 1) :=
      hfirst.trans (congrArg some h.length)
    have hintent₃ : st₃.lastIntentIdx = prev := hintent.trans h.intent
    -- the end of the parenthesis and the main node
    have htracks₄ := htracks.paren (.inr rfl : IsParen [')'])
    have hlength := htracks₄.length
    have hstep₅ := htracks₄.main hmain (fun _ _ => by
      change st₃.firstFallbackIdx.isSome = true
      rw [hfirst₃]
      rfl) rfl
    have hnew : newLinks (st₃.after libc [')']) = [(prev, st₃.graph.nodes.length),
        (prev, xs.length + 1), (xs.length + 1 + ys.length, st₃.graph.nodes.length)] := by
      simp [newLinks, after, hintent₃, hfirst₃, hlast]
    have hcur : st₃.graph.nodes.length = xs.length + 1 + (ys.length + 1) := by
      refine hlength.trans ?_
      simp
      omega
    rw [hnew, hcur] at hstep₅
    refine ⟨(st₃.after libc [')']).enter libc main.unparse, ?_⟩
    rw [← hlength] at hstep₅
    simpa [hopLinks, Hop.words, after, hcur] using hstep₅

def hopXids (hops : List Hop) : List Xid := hops.flatMap fun h => h.fallback ++ [h.main]

def hopSizes (hops : List Hop) : List Nat := hops.map fun h => h.fallback.length

variable {hops : List Hop}

theorem AtHop.tracks_hops (h : AtHop libc cs st xs es prev)
    (hx : ∀ x ∈ hopXids hops, IsAddressXid x) :
    ∃ st', Tracks libc (cs ++ hops.flatMap Hop.words) st' (xs ++ hopXids hops)
      (es ++ reLinks prev (xs.length + 1) (hopSizes hops)) := by
  induction hops generalizing cs st xs es prev with
  | nil => exact ⟨st, by simpa [hopXids, hopSizes, reLinks] using h.toTracks⟩
  | cons hop hops ih =>
    simp only [hopXids, flatMap_cons, mem_append] at hx
    obtain ⟨st₁, h₁⟩ := h.hop fun x hmem => hx x (.inl (mem_append.1 hmem))
    obtain ⟨st', htracks⟩ := ih h₁ fun x hmem => hx x (.inr hmem)
    have hlength : (xs ++ (hop.fallback ++ [hop.main])).length + 1 =
        xs.length + 1 + hop.fallback.length + 1 := by
      simp
      omega
    rw [hlength] at htracks
    exact ⟨st', by simpa [hopXids, hopSizes, reLinks] using htracks⟩

/-- **The graph that the API reads from the RE form of the router.** -/
theorem ofString_reText (libc : Libc) (hne : hops ≠ []) (hx : ∀ x ∈ hopXids hops, IsAddressXid x) :
    ∃ st, ofString libc (['R', 'E', ' '] ++ XiaPath.reText hops) = .ok st.graph ∧
      Tracks libc (hops.flatMap Hop.words) st (hopXids hops) (reLinks 0 1 (hopSizes hops)) := by
  have hwords : hops.flatMap Hop.words ≠ [] := by
    obtain ⟨hop, hops, rfl⟩ := exists_cons_of_ne_nil hne
    simp [Hop.words]
  have htext : ['R', 'E', ' '] ++ XiaPath.reText hops =
      unwords ([['R', 'E']] ++ hops.flatMap Hop.words) := by
    rw [unwords_append (by simp) hwords, unwords_singleton]
    rfl
  have hword : ∀ w ∈ [['R', 'E']] ++ hops.flatMap Hop.words, IsWord w := by
    intro w hw
    rcases mem_append.1 hw with hw | hw
    · rw [mem_singleton.1 hw]
      exact ⟨by decide, by decide⟩
    · obtain ⟨hop, -, hw⟩ := mem_flatMap.1 hw
      exact Hop.isWord_of_mem_words hw
  have hdag : ¬ ['D', 'A', 'G'] <:+: ['R', 'E', ' '] ++ XiaPath.reText hops := by
    intro hdag
    rw [htext] at hdag
    rcases mem_unwords (hdag.subset (by simp : 'G' ∈ _)) with heq | ⟨w, hw, hG⟩
    · cases heq
    · rcases mem_append.1 hw with hw | hw
      · rw [mem_singleton.1 hw] at hG
        simp at hG
      · obtain ⟨hop, -, hw⟩ := mem_flatMap.1 hw
        rcases Hop.mem_words hw with rfl | rfl | ⟨x, -, rfl⟩
        · simp at hG
        · simp at hG
        · exact upperG_not_mem_unparse x hG
  have hre : ['R', 'E'] <:+: ['R', 'E', ' '] ++ XiaPath.reText hops :=
    (prefix_append ['R', 'E'] (' ' :: XiaPath.reText hops)).isInfix
  obtain ⟨st, htracks⟩ := (@atHop_init libc).tracks_hops hx
  refine ⟨st, ?_, htracks⟩
  rw [ofString, if_neg hdag, if_pos hre, constructFromReString, htext, split_unwords hword]
  exact Result.bind_eq_ok.2 ⟨st, htracks.read, rfl⟩

/-! ### What the router had -/

theorem mem_hopLinks {next k : Nat} {e : Nat × Nat} (he : e ∈ hopLinks prev next k) :
    e.1 = prev ∨ (next ≤ e.1 ∧ e.1 < next + k) := by
  unfold hopLinks at he
  split at he
  · rw [mem_singleton.1 he]
    exact .inl rfl
  · simp only [mem_append, mem_map, mem_range'_1, mem_cons, not_mem_nil, or_false] at he
    rcases he with ⟨j, hj, rfl⟩ | rfl | rfl | rfl
    · exact .inr ⟨hj.1, by dsimp only; omega⟩
    · exact .inl rfl
    · exact .inl rfl
    · refine .inr ⟨?_, ?_⟩ <;> dsimp only <;> omega

theorem mem_reLinks {next : Nat} {e : Nat × Nat} (he : e ∈ reLinks prev next ks) :
    e.1 = prev ∨ next ≤ e.1 := by
  induction ks generalizing prev next with
  | nil => cases he
  | cons k ks ih =>
    rcases mem_append.1 he with he | he
    · exact (mem_hopLinks he).imp_right And.left
    · rcases ih he with h | h <;> omega

theorem targets_reLinks_eq_nil {next c : Nat} (hprev : c ≠ prev) (hnext : c < next) :
    targets (reLinks prev next ks) c = [] := by
  refine eq_nil_iff_forall_not_mem.2 fun j hj => ?_
  rcases mem_reLinks (mem_targets.1 hj).1 with h | h
  · exact hprev h
  · exact absurd hnext (not_lt.2 h)

theorem targets_hopLinks_eq_nil {next k c : Nat} (hprev : prev < next) (hc : next + k ≤ c) :
    targets (hopLinks prev next k) c = [] := by
  refine eq_nil_iff_forall_not_mem.2 fun j hj => ?_
  rcases mem_hopLinks (mem_targets.1 hj).1 with h | h
  · dsimp only at h
    omega
  · dsimp only at h
    omega

open XiaPath

variable {p : XiaPath} {i : Nat} {chain : List (List Nat × Nat)}

/-- **The edges are the same** if no fallback has two nodes, and they are different. -/
theorem chain_targets (h : Chain p i chain) (hsmall : ∀ h ∈ chain, h.1.length ≤ 1) {f : Nat → Nat}
    {next : Nat} (hlt : prev < next) (hi : f i = prev)
    (hf : ∀ j x, (trace chain)[j]? = some x → f x = next + j) :
    ∀ x ∈ i :: trace chain,
      targets (reLinks prev next (chain.map fun h => h.1.length)) (f x) = (p.edgesOf x).map f ∧
        ((p.edgesOf x).map f).Nodup := by
  induction h generalizing prev next with
  | nil h =>
    intro x hx
    rw [trace, flatMap_nil, mem_singleton] at hx
    rw [hx, h]
    exact ⟨rfl, nodup_nil⟩
  | @main i m hops h _ ih =>
    obtain ⟨-, hsmall⟩ := forall_mem_cons.1 hsmall
    have htrace : trace (([], m) :: hops) = m :: trace hops := by simp [trace]
    rw [htrace] at hf ⊢
    have hm : f m = next := hf 0 m rfl
    have hrest := ih hsmall (Nat.lt_succ_self next) hm fun j x hx => by
      rw [hf (j + 1) x hx]
      omega
    have hlinks : reLinks prev next ((([], m) :: hops).map fun h => h.1.length) =
        hopLinks prev next 0 ++ reLinks next (next + 1) (hops.map fun h => h.1.length) := rfl
    intro x hx
    rw [hlinks, targets_append]
    rcases mem_cons.1 hx with rfl | hx
    · rw [hi, targets_reLinks_eq_nil hlt.ne (by omega), h]
      simp [targets, hopLinks, hm, hlt.ne']
    · have hge : next ≤ f x := by
        obtain ⟨j, hj⟩ := getElem?_of_mem hx
        rw [hf j x hj]
        omega
      rw [targets_hopLinks_eq_nil hlt hge, nil_append]
      exact hrest x hx
  | @fallback i m j is hops h hfall _ ih =>
    obtain ⟨hone, hothers⟩ := forall_mem_cons.1 hsmall
    -- the fallback is a single node
    cases hfall with
    | next _ hrest =>
      have := length_pos_iff.2 hrest.ne_nil
      simp only [length_cons] at hone
      omega
    | last hj =>
      have htrace : trace (([j], m) :: hops) = j :: m :: trace hops := by simp [trace]
      rw [htrace] at hf ⊢
      have hfj : f j = next := hf 0 j rfl
      have hfm : f m = next + 1 := hf 1 m rfl
      have hrest := ih hothers (Nat.lt_succ_self (next + 1)) hfm fun k x hx => by
        rw [hf (k + 2) x hx]
        omega
      have hlinks : reLinks prev next ((([j], m) :: hops).map fun h => h.1.length) =
          hopLinks prev next 1 ++
            reLinks (next + 1) (next + 1 + 1) (hops.map fun h => h.1.length) := rfl
      have hhop : hopLinks prev next 1 = [(prev, next + 1), (prev, next), (next, next + 1)] := rfl
      intro x hx
      rw [hlinks, targets_append]
      rcases mem_cons.1 hx with rfl | hx
      · rw [hi, targets_reLinks_eq_nil (by omega) (by omega), h, hhop]
        have hne : next ≠ prev := hlt.ne'
        have hne' : next + 1 ≠ prev := by omega
        simp [targets, hfj, hfm, hne, hne']
      · rcases mem_cons.1 hx with rfl | hx
        · rw [hfj, targets_reLinks_eq_nil (by omega) (by omega), hj, hhop]
          have hne : prev ≠ next := hlt.ne
          simp [targets, hfm, hne]
        · have hge : next + 1 ≤ f x := by
            rcases mem_cons.1 hx with rfl | hx
            · exact hfm.ge
            · obtain ⟨k, hk⟩ := getElem?_of_mem hx
              rw [hf (k + 2) x hk]
              omega
          rw [targets_hopLinks_eq_nil hlt hge, nil_append]
          exact hrest x hx

/-! ### Degrees -/

/-- The number of edges of fallback nodes: all but the last have two. -/
theorem degrees_fallback {main : Nat} {is : List Nat} (h : FallbackFrom p main i is) :
    (is.map fun x => (p.edgesOf x).length).sum + 1 = 2 * is.length := by
  induction h with
  | last h => simp [h]
  | next h _ ih =>
    simp only [map_cons, sum_cons, length_cons, h, length_nil]
    omega

theorem degrees_chain (h : Chain p i chain) :
    ((i :: trace chain).map fun x => (p.edgesOf x).length).sum =
      (chain.map fun h => 2 * h.1.length + 1).sum := by
  induction h with
  | nil h => simp [trace, h]
  | @main i m hops h _ ih =>
    have htrace : trace (([], m) :: hops) = m :: trace hops := by simp [trace]
    rw [htrace, map_cons, sum_cons, ih, h]
    simp
  | @fallback i m j is hops h hf _ ih =>
    have htrace : trace ((is, m) :: hops) = is ++ m :: trace hops := by simp [trace]
    have hdegrees := degrees_fallback hf
    rw [htrace, map_cons, sum_cons, map_append, sum_append, ih, h]
    simp only [map_cons, sum_cons, length_cons, length_nil]
    omega

theorem length_reLinks (prev next : Nat) (ks : List Nat) :
    (reLinks prev next ks).length = (ks.map fun k => if k = 0 then 1 else k + 2).sum := by
  induction ks generalizing prev next with
  | nil => rfl
  | cons k ks ih =>
    rw [reLinks, length_append, ih, map_cons, sum_cons, hopLinks]
    congr 1
    split
    · rfl
    · simp
      omega

theorem sum_length_targets_le (es : List (Nat × Nat)) (n : Nat) :
    ∑ i ∈ Finset.range n, (targets es i).length ≤ es.length := by
  induction es with
  | nil => simp [targets]
  | cons e es ih =>
    have hcons (i : Nat) : (targets (e :: es) i).length ≤
        (if e.1 = i then 1 else 0) + (targets es i).length := by
      unfold targets
      rw [filter_cons]
      split
      · rename_i hi
        simp only [decide_eq_true_eq] at hi
        rw [if_pos hi.1, map_cons, length_cons]
        omega
      · omega
    calc ∑ i ∈ Finset.range n, (targets (e :: es) i).length
        ≤ ∑ i ∈ Finset.range n, ((if e.1 = i then 1 else 0) + (targets es i).length) :=
          Finset.sum_le_sum fun i _ => hcons i
      _ = (∑ i ∈ Finset.range n, if e.1 = i then 1 else 0) +
          ∑ i ∈ Finset.range n, (targets es i).length := Finset.sum_add_distrib
      _ ≤ 1 + es.length := by
          refine Nat.add_le_add ?_ ih
          rw [Finset.sum_ite_eq]
          split <;> omega
      _ = (e :: es).length := by rw [length_cons]; omega

theorem fallbacks_of_degrees
    (h : (ks.map fun k => 2 * k + 1).sum ≤ (ks.map fun k => if k = 0 then 1 else k + 2).sum) :
    ∀ k ∈ ks, k ≤ 1 := by
  have hle (ks : List Nat) :
      (ks.map fun k => if k = 0 then 1 else k + 2).sum ≤ (ks.map fun k => 2 * k + 1).sum := by
    refine sum_le_sum fun k _ => ?_
    split <;> omega
  induction ks with
  | nil => simp
  | cons k ks ih =>
    rw [map_cons, map_cons, sum_cons, sum_cons] at h
    have hks := hle ks
    refine forall_mem_cons.2 ⟨?_, ih ?_⟩
    · split at h <;> omega
    · split at h <;> omega

end Graph

end Dagaddr

end Xia
