import RcControl.Lib.Links
import RcControl.Vcos.BlockPool
import Mathlib.Algebra.BigOperators.Group.Finset.Basic

/-!
# What a block pool lends

Each run of the block pool is one that `Plain` allows, and if it faults, what was called may not be
(`blockPool_refines`): the free list of an open subpool goes through those of its blocks that are not lent
(`Kept`). A handle that was made of a block leads to it as long as it is lent (`handle_lasts`).
-/

namespace RcControl.Vcos

open Lib.Run Lib.Links

namespace BlockPool

/-! ### The free lists -/

/-- The links of the blocks that are available. -/
def nextOf (owner : Block → Owner) (b : Block) : Option Block :=
  match owner b with
  | .next c => c
  | .subpool _ => none

/-- The free list goes through `l`. -/
structure Free (owner : Block → Owner) (freeList : Option Block) (l : List Block) : Prop where
  linked : Linked (nextOf owner) freeList l
  next : ∀ b ∈ l, ∃ c, owner b = .next c

section Free

variable {owner : Block → Owner} {f : Option Block} {l : List Block} {b : Block} {k n : ℕ}

lemma nextOf_update (owner : Block → Owner) (b : Block) (f : Option Block) :
    nextOf (Function.update owner b (.next f)) = Function.update (nextOf owner) b f := by
  funext c
  unfold nextOf
  rcases eq_or_ne c b with rfl | hcb
  · rw [Function.update_self, Function.update_self]
  · rw [Function.update_of_ne hcb, Function.update_of_ne hcb]

/-- Only the headers of the blocks in the list matter. -/
lemma free_congr {owner' : Block → Owner} (heq : ∀ c ∈ l, owner' c = owner c) (h : Free owner f l) :
    Free owner' f l := by
  refine ⟨linked_congr (fun c hc => ?_) h.linked, fun c hc => ?_⟩
  · unfold nextOf
    rw [heq c hc]
  · obtain ⟨d, hd⟩ := h.next c hc
    exact ⟨d, (heq c hc).trans hd⟩

lemma free_push (h : Free owner f l) (hb : b ∉ l) :
    Free (Function.update owner b (.next f)) (some b) (b :: l) := by
  constructor
  · rw [nextOf_update]
    exact linked_front h.linked hb
  · intro c hc
    rcases eq_or_ne c b with rfl | hcb
    · exact ⟨f, Function.update_self _ _ _⟩
    · rw [Function.update_of_ne hcb]
      exact h.next c ((List.mem_cons.1 hc).resolve_left hcb)

lemma free_pop (h : Free owner f (b :: l)) (o : Owner) :
    ∃ c, owner b = .next c ∧ Free (Function.update owner b o) c l := by
  obtain ⟨c, hc⟩ := h.next b List.mem_cons_self
  have hlink := h.linked.2
  unfold nextOf at hlink
  rw [hc] at hlink
  have hb := (List.nodup_cons.1 (linked_nodup h.linked)).1
  refine ⟨c, hc, free_congr (fun d hd => ?_) ⟨hlink, fun d hd => h.next d (List.mem_cons_of_mem b hd)⟩⟩
  exact Function.update_of_ne (fun hdb : d = b => hb (hdb ▸ hd)) _ _

lemma mem_blocks : b ∈ (List.range n).reverse.map (Block.mk k) ↔ b.subpool = k ∧ b.index < n := by
  simp only [List.mem_map, List.mem_reverse, List.mem_range]
  constructor
  · rintro ⟨i, hi, rfl⟩
    exact ⟨rfl, hi⟩
  · rintro ⟨rfl, hi⟩
    exact ⟨b.index, hi, rfl⟩

/-- The free list of a new subpool goes through its blocks, the last one first. -/
lemma free_link (k : ℕ) (owner : Block → Owner) (n : ℕ) :
    Free (link k owner n).1 (link k owner n).2 ((List.range n).reverse.map (Block.mk k)) := by
  induction n with
  | zero => exact ⟨rfl, fun b hb => nomatch hb⟩
  | succ n ih =>
    rw [List.range_succ, List.reverse_append, List.reverse_singleton, List.singleton_append, List.map_cons]
    exact free_push ih fun hmem => Nat.lt_irrefl n (mem_blocks.1 hmem).2

lemma link_of_ne (h : b.subpool ≠ k) : (link k owner n).1 b = owner b := by
  induction n with
  | zero => rfl
  | succ n ih =>
    have hb : b ≠ ⟨k, n⟩ := fun hb => h (by rw [hb])
    exact (Function.update_of_ne hb _ _).trans ih

end Free

/-! ### The invariant -/

/-- The subpool `k` is as it should be when it is to be opened or not, and these blocks are lent. -/
structure Orderly (u : Plain) (owner : Block → Owner) (k : ℕ) (p : Subpool) : Prop where
  extension : p.extension = false
  ownsMem : p.ownsMem = (decide (k = 0) && u.onHeap)
  start : p.start = decide (k ∈ u.opened)
  mem : p.mem = p.start
  numBlocks : k ∈ u.opened → p.numBlocks = u.size k
  free : k ∈ u.opened → ∃ l, Free owner p.freeList l ∧ p.availableBlocks = l.length ∧
    ∀ b, b ∈ l ↔ b.subpool = k ∧ b.index < u.size k ∧ b ∉ u.lent

structure Kept (s : BlockPool) (u : Plain) : Prop where
  length : s.subpools.length = u.numExtensions + 1
  numExtensionBlocks : s.numExtensionBlocks = u.numExtensionBlocks
  few : u.numExtensions ≤ 7
  notEmpty : 1 ≤ u.numExtensions → 1 ≤ u.numExtensionBlocks
  main : 0 ∈ u.opened
  opened : ∀ k ∈ u.opened, k ≤ u.numExtensions
  lent : ∀ b ∈ u.lent, u.Has b ∧ s.owner b = .subpool b.subpool
  subpools : ∀ k p, s.subpools[k]? = some p → Orderly u s.owner k p

structure Refines (s : BlockPool) (u : Plain) : Prop where
  deleted : s.deleted = u.deleted
  kept : u.deleted = false → Kept s u
  gone : u.deleted = true → ∀ p ∈ s.subpools, p.mem = false

section Kept

variable {s : BlockPool} {u u' : Plain} {owner owner' : Block → Owner} {k : ℕ} {p : Subpool} {b : Block}

/-- Of the headers and the blocks that are lent only those of the subpool matter. -/
lemma orderly_congr (howner : ∀ c : Block, c.subpool = k → owner' c = owner c)
    (hlent : ∀ c : Block, c.subpool = k → (c ∈ u'.lent ↔ c ∈ u.lent)) (hsize : u'.size k = u.size k)
    (hopened : k ∈ u'.opened ↔ k ∈ u.opened) (hheap : u'.onHeap = u.onHeap) (h : Orderly u owner k p) :
    Orderly u' owner' k p := by
  refine ⟨h.extension, by rw [h.ownsMem, hheap], by rw [h.start, decide_eq_decide, hopened], h.mem,
    fun hk => by rw [h.numBlocks (hopened.1 hk), hsize], fun hk => ?_⟩
  obtain ⟨l, hfree, hlength, hl⟩ := h.free (hopened.1 hk)
  refine ⟨l, free_congr (fun c hc => howner c ((hl c).1 hc).1) hfree, hlength, fun c => ?_⟩
  rw [hl c, hsize]
  exact and_congr_right fun hc => and_congr_right fun _ => not_congr (hlent c hc).symm

/-- The blocks of a subpool are available or lent. -/
lemma card_lent (h : Kept s u) (hp : s.subpools[k]? = some p) (hk : k ∈ u.opened) :
    p.availableBlocks + (u.lent.filter fun b => b.subpool = k).card = u.size k := by
  obtain ⟨l, hfree, hlength, hl⟩ := (h.subpools k p hp).free hk
  have hall : (Finset.range (u.size k)).image (Block.mk k) =
      l.toFinset ∪ u.lent.filter fun b => b.subpool = k := by
    ext ⟨j, i⟩
    simp only [Finset.mem_image, Finset.mem_range, Block.mk.injEq, Finset.mem_union, List.mem_toFinset,
      hl, Finset.mem_filter]
    constructor
    · rintro ⟨i, hi, rfl, rfl⟩
      by_cases hlent : Block.mk k i ∈ u.lent
      · exact .inr ⟨hlent, rfl⟩
      · exact .inl ⟨rfl, hi, hlent⟩
    · rintro (⟨rfl, hi, -⟩ | ⟨hlent, rfl⟩)
      · exact ⟨i, hi, rfl, rfl⟩
      · exact ⟨i, (h.lent _ hlent).1.2, rfl, rfl⟩
  have hdisjoint : Disjoint l.toFinset (u.lent.filter fun b => b.subpool = k) := by
    rw [Finset.disjoint_left]
    intro c hc hlent
    exact ((hl c).1 (List.mem_toFinset.1 hc)).2.2 (Finset.mem_filter.1 hlent).1
  have hcard := congrArg Finset.card hall
  rw [Finset.card_image_of_injective _ (fun _ _ heq => (Block.mk.inj heq).2), Finset.card_range,
    Finset.card_union_of_disjoint hdisjoint, List.toFinset_card_of_nodup (linked_nodup hfree.linked)] at hcard
  omega

lemma subpool_of_opened (h : Kept s u) (hk : k ∈ u.opened) : ∃ p, s.subpools[k]? = some p := by
  have hle := h.opened k hk
  exact ⟨_, List.getElem?_eq_getElem (by rw [h.length]; omega)⟩

/-- What has to be checked when one subpool changes. -/
lemma kept_set (h : Kept s u) {l : Finset Block} {o : Finset ℕ} (hopened : ∀ j ∈ o, j ≤ u.numExtensions)
    (hsub : ∀ j, j ≠ k → (j ∈ o ↔ j ∈ u.opened)) (hmain : 0 ∈ o)
    (howner : ∀ c : Block, c.subpool ≠ k → owner' c = s.owner c)
    (hlent : ∀ c : Block, c.subpool ≠ k → (c ∈ l ↔ c ∈ u.lent))
    (hown : ∀ c ∈ l, c.subpool = k → (k ∈ o ∧ c.index < u.size k) ∧ owner' c = .subpool k)
    (hp : Orderly { u with lent := l, opened := o } owner' k p) :
    Kept { s with owner := owner', subpools := s.subpools.set k p } { u with lent := l, opened := o } := by
  refine ⟨by rw [List.length_set, h.length], h.numExtensionBlocks, h.few, h.notEmpty, hmain, hopened, ?_, ?_⟩
  · intro c hc
    rcases eq_or_ne c.subpool k with rfl | hck
    · exact hown c hc rfl
    · obtain ⟨⟨hin, hsize⟩, hc'⟩ := h.lent c ((hlent c hck).1 hc)
      exact ⟨⟨(hsub _ hck).2 hin, hsize⟩, (howner c hck).trans hc'⟩
  · intro j q hq
    rw [List.getElem?_set] at hq
    split at hq
    · subst j
      split at hq
      · obtain rfl := Option.some.inj hq
        exact hp
      · cases hq
    · rename_i hjk
      have hjk : ∀ c : Block, c.subpool = j → c.subpool ≠ k := fun c hc hck => hjk (hck.symm.trans hc)
      exact orderly_congr (fun c hc => howner c (hjk c hc)) (fun c hc => hlent c (hjk c hc)) rfl
        (hsub j fun hj => ‹¬ k = j› hj.symm) rfl (h.subpools j q hq)

/-! ### What the calls do -/

lemma kept_take (h : Kept s u) (hk : k ∈ u.opened) (hb : ∃ b, u.Has b ∧ b.subpool = k ∧ b ∉ u.lent) :
    ∃ b s', s.take k = .ok (.block (some b), s') ∧ u.Has b ∧ b ∉ u.lent ∧ b.subpool = k ∧
      s'.deleted = s.deleted ∧ Kept s' { u with lent := insert b u.lent } := by
  obtain ⟨p, hp⟩ := subpool_of_opened h hk
  have hord := h.subpools k p hp
  obtain ⟨l, hfree, hlength, hl⟩ := hord.free hk
  obtain ⟨c, hhas, hck, hc⟩ := hb
  have hmem : c ∈ l := (hl c).2 ⟨hck, hck ▸ hhas.2, hc⟩
  obtain ⟨b, l, rfl⟩ := List.exists_cons_of_ne_nil (List.ne_nil_of_mem hmem)
  obtain ⟨d, hd, hrest⟩ := free_pop hfree (.subpool k)
  obtain ⟨hbk, hsize, hlent⟩ := (hl b).1 List.mem_cons_self
  have hnodup := List.nodup_cons.1 (linked_nodup hfree.linked)
  refine ⟨b, { s with owner := Function.update s.owner b (.subpool k)
                      subpools := s.subpools.set k
                        { p with freeList := d, availableBlocks := p.availableBlocks - 1 } },
    ?_, ⟨by rw [hbk]; exact hk, by rw [hbk]; exact hsize⟩, hlent, hbk, rfl, ?_⟩
  · unfold take
    rw [hp]
    dsimp only
    rw [linked_head hfree.linked]
    dsimp only [List.head?_cons]
    rw [hd]
  · refine kept_set (k := k) h h.opened (fun _ _ => Iff.rfl) h.main (fun e hek => ?_) (fun e hek => ?_)
      (fun e he hek => ?_) ⟨hord.extension, hord.ownsMem, hord.start, hord.mem, hord.numBlocks, fun _ => ?_⟩
    · exact Function.update_of_ne (fun heb : e = b => hek (heb ▸ hbk)) _ _
    · exact Finset.mem_insert.trans (or_iff_right fun heb : e = b => hek (heb ▸ hbk))
    · rcases eq_or_ne e b with rfl | heb
      · exact ⟨⟨hk, hsize⟩, Function.update_self _ _ _⟩
      · obtain ⟨⟨-, hin⟩, hown⟩ := h.lent e ((Finset.mem_insert.1 he).resolve_left heb)
        rw [hek] at hin hown
        exact ⟨⟨hk, hin⟩, (Function.update_of_ne heb _ _).trans hown⟩
    · refine ⟨l, hrest, by rw [hlength]; rfl, fun e => ?_⟩
      rcases eq_or_ne e b with rfl | heb
      · exact iff_of_false hnodup.1 fun he => he.2.2 (Finset.mem_insert_self e u.lent)
      · have he := hl e
        rw [List.mem_cons, or_iff_right heb] at he
        rw [he, Finset.mem_insert, or_iff_right heb]
        exact Iff.rfl

lemma kept_subpoolInit (h : Kept s u) (hp : s.subpools[k]? = some p) (hk : k ∉ u.opened) :
    Kept (s.subpoolInit k p s.numExtensionBlocks true true) { u with opened := insert k u.opened } := by
  have hord := h.subpools k p hp
  have hle : k ≤ u.numExtensions := by
    have hlt := (List.getElem?_eq_some_iff.1 hp).1
    rw [h.length] at hlt
    omega
  have hk0 : k ≠ 0 := fun h0 => hk (h0 ▸ h.main)
  have hsize : u.size k = s.numExtensionBlocks := by
    rw [h.numExtensionBlocks]
    exact if_neg hk0
  have hnone : ∀ c : Block, c ∈ u.lent → c.subpool ≠ k := fun c hc hck => hk (hck ▸ (h.lent c hc).1.1)
  refine kept_set (k := k) (l := u.lent) h (fun j hj => ?_) (fun j hj => ?_) (Finset.mem_insert_of_mem h.main)
    (fun c hc => link_of_ne hc) (fun _ _ => Iff.rfl) (fun c hc hck => absurd hck (hnone c hc))
    ⟨hord.extension, hord.ownsMem, by simp, rfl, fun _ => hsize.symm, fun _ => ?_⟩
  · exact (Finset.mem_insert.1 hj).elim (fun hj => hj ▸ hle) (h.opened j)
  · exact Finset.mem_insert.trans (or_iff_right hj)
  · refine ⟨_, free_link k s.owner s.numExtensionBlocks, by simp, fun b => ?_⟩
    have hsize' : Plain.size { u with opened := insert k u.opened } k = s.numExtensionBlocks := hsize
    rw [mem_blocks, hsize']
    exact and_congr_right fun hbk => (and_iff_left fun hlent => hnone b hlent hbk).symm

lemma header_of_has (h : Kept s u) (hhas : u.Has b) : s.header b = some (s.owner b) := by
  obtain ⟨p, hp⟩ := subpool_of_opened h hhas.1
  have hord := h.subpools _ p hp
  have hmem : p.mem = true ∧ b.index < p.numBlocks := by
    rw [hord.mem, hord.start, hord.numBlocks hhas.1]
    exact ⟨decide_eq_true hhas.1, hhas.2⟩
  simp only [header, hp, if_pos hmem]

lemma header_of_not_has (h : Kept s u) (hhas : ¬ u.Has b) : s.header b = none := by
  unfold header
  rcases hp : s.subpools[b.subpool]? with _ | p
  · rfl
  · have hord := h.subpools _ p hp
    refine if_neg fun hmem => hhas ?_
    have hk : b.subpool ∈ u.opened := by
      rw [hord.mem, hord.start] at hmem
      exact decide_eq_true_iff.1 hmem.1
    exact ⟨hk, hord.numBlocks hk ▸ hmem.2⟩

lemma owner_of_not_lent (h : Kept s u) (hhas : u.Has b) (hb : b ∉ u.lent) : ∃ c, s.owner b = .next c := by
  obtain ⟨p, hp⟩ := subpool_of_opened h hhas.1
  obtain ⟨l, hfree, -, hl⟩ := (h.subpools _ p hp).free hhas.1
  exact hfree.next b ((hl b).2 ⟨rfl, hhas.2, hb⟩)

/-- A block that is lent leads to its subpool. -/
lemma lender_of_lent (h : Kept s u) (hs : s.deleted = false) (hb : b ∈ u.lent) :
    ∃ p, s.subpools[b.subpool]? = some p ∧ s.lender b = .ok (b.subpool, p) := by
  obtain ⟨hhas, hown⟩ := h.lent b hb
  obtain ⟨p, hp⟩ := subpool_of_opened h hhas.1
  refine ⟨p, hp, ?_⟩
  simp only [lender, header_of_has h hhas, hown, hp, hs, Bool.false_eq_true, if_false]

/-- One that is not is caught, and there is no telling what comes of what is no block of the pool. -/
lemma lender_of_not_lent (h : Kept s u) (hb : b ∉ u.lent) :
    (u.Has b ∧ s.lender b = .error .demand) ∨ (¬ u.Has b ∧ s.lender b = .error .wild) := by
  unfold lender
  by_cases hhas : u.Has b
  · obtain ⟨c, hc⟩ := owner_of_not_lent h hhas hb
    rw [header_of_has h hhas, hc]
    exact .inl ⟨hhas, rfl⟩
  · rw [header_of_not_has h hhas]
    exact .inr ⟨hhas, rfl⟩

lemma elemFromHandle_eq (h : Kept s u) (hd : ℕ) (b : Block) :
    s.elemFromHandle hd = some b ↔
      b ∈ u.lent ∧ b.subpool = handleGetSubpool hd ∧ b.index = handleGetIndex hd := by
  have hnamed : ∀ c : Block, c.subpool = handleGetSubpool hd ∧ c.index = handleGetIndex hd ↔
      (⟨handleGetSubpool hd, handleGetIndex hd⟩ : Block) = c := fun c => by
    rw [Block.ext_iff, eq_comm, @eq_comm _ c.index]
  rw [hnamed b]
  unfold elemFromHandle
  generalize hc : (⟨handleGetSubpool hd, handleGetIndex hd⟩ : Block) = c
  have hck : handleGetSubpool hd = c.subpool := congrArg Block.subpool hc
  by_cases hlent : c ∈ u.lent
  · obtain ⟨hhas, hown⟩ := h.lent c hlent
    rw [header_of_has h hhas, hown]
    dsimp only
    rw [if_pos hck.symm, Option.some.injEq]
    exact ⟨fun heq => ⟨heq ▸ hlent, heq⟩, fun heq => heq.2⟩
  · have hnone : ¬ (b ∈ u.lent ∧ c = b) := fun hb => hlent (hb.2 ▸ hb.1)
    by_cases hhas : u.Has c
    · obtain ⟨d, hd⟩ := owner_of_not_lent h hhas hlent
      rw [header_of_has h hhas, hd]
      exact iff_of_false (Option.some_ne_none b).symm hnone
    · rw [header_of_not_has h hhas]
      exact iff_of_false (Option.some_ne_none b).symm hnone

lemma kept_free (h : Kept s u) (hs : s.deleted = false) (hb : b ∈ u.lent) :
    ∃ s', s.free b = .ok (.freed [], s') ∧ s'.deleted = false ∧ Kept s' { u with lent := u.lent.erase b } := by
  obtain ⟨p, hp, hlender⟩ := lender_of_lent h hs hb
  obtain ⟨hk, hsize⟩ := (h.lent b hb).1
  have hord := h.subpools _ p hp
  obtain ⟨l, hfree, hlength, hl⟩ := hord.free hk
  have hcard := card_lent h hp hk
  have hpos : 0 < (u.lent.filter fun c => c.subpool = b.subpool).card :=
    Finset.card_pos.2 ⟨b, Finset.mem_filter.2 ⟨hb, rfl⟩⟩
  have hroom : p.availableBlocks < p.numBlocks := by
    rw [hord.numBlocks hk]
    omega
  have hnot : b ∉ l := fun hbl => ((hl b).1 hbl).2.2 hb
  refine ⟨{ s with owner := Function.update s.owner b (.next p.freeList)
                   subpools := s.subpools.set b.subpool
                    { p with freeList := some b, availableBlocks := p.availableBlocks + 1 } }, ?_, hs, ?_⟩
  · simp only [free, hlender, if_pos hroom, hord.extension, Bool.false_eq_true, false_and, if_false]
  · refine kept_set (k := b.subpool) h h.opened (fun _ _ => Iff.rfl) h.main (fun e hek => ?_) (fun e hek => ?_)
      (fun e he hek => ?_) ⟨hord.extension, hord.ownsMem, hord.start, hord.mem, hord.numBlocks, fun _ => ?_⟩
    · exact Function.update_of_ne (fun heb : e = b => hek (heb ▸ rfl)) _ _
    · exact Finset.mem_erase.trans (and_iff_right fun heb : e = b => hek (heb ▸ rfl))
    · obtain ⟨heb, he⟩ := Finset.mem_erase.1 he
      obtain ⟨⟨-, hin⟩, hown⟩ := h.lent e he
      rw [hek] at hin hown
      exact ⟨⟨hk, hin⟩, (Function.update_of_ne heb _ _).trans hown⟩
    · refine ⟨b :: l, free_push hfree hnot, by rw [hlength]; rfl, fun e => ?_⟩
      rw [List.mem_cons, hl e]
      rcases eq_or_ne e b with rfl | heb
      · exact iff_of_true (.inl rfl) ⟨rfl, hsize, Finset.notMem_erase e u.lent⟩
      · rw [or_iff_right heb]
        exact and_congr_right fun _ => and_congr_right fun _ =>
          not_congr (Finset.mem_erase.trans (and_iff_right heb)).symm

/-- As long as not all blocks are lent one is found. -/
lemma available_eq (h : Kept s u) :
    (∃ k, s.available = some k ∧ k ∈ u.opened ∧ ∃ b, u.Has b ∧ b.subpool = k ∧ b ∉ u.lent) ∨
      (s.available = none ∧ ∀ b, u.Has b → b ∈ u.lent) := by
  unfold available
  rcases hf : s.subpools.findIdx? _ with _ | k
  · refine .inr ⟨rfl, fun b hhas => ?_⟩
    obtain ⟨p, hp⟩ := subpool_of_opened h hhas.1
    have hord := h.subpools _ p hp
    obtain ⟨l, -, hlength, hl⟩ := hord.free hhas.1
    have hnone := List.findIdx?_eq_none_iff.1 hf p (List.mem_of_getElem? hp)
    rw [hord.start, decide_eq_true hhas.1, Bool.true_and, decide_eq_false_iff_not, hlength, Nat.not_lt,
      Nat.le_zero, List.length_eq_zero_iff] at hnone
    by_contra hlent
    have hmem := (hl b).2 ⟨rfl, hhas.2, hlent⟩
    rw [hnone] at hmem
    cases hmem
  · obtain ⟨hlt, hk, -⟩ := List.findIdx?_eq_some_iff_getElem.1 hf
    have hord := h.subpools k _ (List.getElem?_eq_getElem hlt)
    rw [Bool.and_eq_true, hord.start, decide_eq_true_iff, decide_eq_true_iff] at hk
    obtain ⟨hk, hpos⟩ := hk
    obtain ⟨l, -, hlength, hl⟩ := hord.free hk
    obtain ⟨b, hb⟩ := List.exists_mem_of_length_pos (hlength ▸ hpos)
    obtain ⟨hbk, hsize, hlent⟩ := (hl b).1 hb
    exact .inl ⟨k, rfl, hk, b, ⟨hbk ▸ hk, hbk ▸ hsize⟩, hbk, hlent⟩

lemma start_eq (h : Kept s u) (hp : s.subpools[k]? = some p) :
    (s.subpools[k]?.any (·.start)) = decide (k ∈ u.opened) := by
  rw [hp]
  exact (h.subpools k p hp).start

lemma openable_eq (h : Kept s u) (malloc : ℕ → Bool) :
    (∃ k p, s.openable malloc = some k ∧ s.subpools[k]? = some p ∧ 1 ≤ k ∧ k ≤ u.numExtensions ∧
        k ∉ u.opened ∧ malloc k = true) ∨
      (s.openable malloc = none ∧ ∀ k ≤ u.numExtensions, k ∉ u.opened → malloc k = false) := by
  unfold openable
  rcases hf : (List.range s.subpools.length).find? _ with _ | k
  · refine .inr ⟨rfl, fun k hle hk => ?_⟩
    have hlt : k < s.subpools.length := by
      rw [h.length]
      omega
    have hpos : 1 ≤ k := Nat.pos_of_ne_zero fun h0 => hk (h0 ▸ h.main)
    have hnone := List.find?_eq_none.1 hf k (List.mem_range.2 hlt)
    rw [start_eq h (List.getElem?_eq_getElem hlt), decide_eq_true hpos, decide_eq_false hk] at hnone
    simpa using hnone
  · have hlt := List.mem_range.1 (List.mem_of_find?_eq_some hf)
    have hk := List.find?_some hf
    rw [start_eq h (List.getElem?_eq_getElem hlt), Bool.and_eq_true, Bool.and_eq_true, decide_eq_true_iff,
      Bool.not_eq_true', decide_eq_false_iff_not] at hk
    rw [h.length] at hlt
    exact .inl ⟨k, _, rfl, List.getElem?_eq_getElem (by rw [h.length]; exact hlt), hk.1.1, by omega, hk.1.2, hk.2⟩

theorem kept_alloc (h : Kept s u) (hs : s.deleted = false) (malloc : ℕ → Bool) :
    ∃ o s' u', s.alloc malloc = .ok (o, s') ∧ Plain.Does u (.alloc malloc) o u' ∧ s'.deleted = false ∧
      u'.deleted = u.deleted ∧ Kept s' u' := by
  unfold alloc
  rcases available_eq h with ⟨k, hav, hk, hb⟩ | ⟨hav, hall⟩
  · obtain ⟨b, s', htake, hhas, hnot, -, hdel, hkept⟩ := kept_take h hk hb
    refine ⟨.block (some b), s', _, ?_, .lends malloc b hhas hnot, hdel.trans hs, rfl, hkept⟩
    rw [hav]
    exact htake
  · rw [hav]
    rcases openable_eq h malloc with ⟨k, p, hop, hp, hpos, hle, hk, hm⟩ | ⟨hop, hnone⟩
    · have hsize : u.size k = u.numExtensionBlocks := if_neg (by omega)
      have hnew := kept_subpoolInit h hp hk
      have hsome : 0 < u.numExtensionBlocks := h.notEmpty (by omega)
      obtain ⟨b, s', htake, hhas, hnot, rfl, hdel, hkept⟩ :=
        kept_take hnew (Finset.mem_insert_self k u.opened)
          ⟨⟨k, 0⟩, ⟨Finset.mem_insert_self k u.opened, lt_of_lt_of_eq hsome hsize.symm⟩, rfl,
            fun hlent => hk (h.lent _ hlent).1.1⟩
      refine ⟨.block (some b), s', _, ?_, .opens malloc b hall hk ⟨hle, lt_of_lt_of_eq hhas.2 hsize⟩ hm,
        hdel.trans hs, rfl, hkept⟩
      rw [hop]
      dsimp only
      rw [List.getD_eq_getElem?_getD, hp]
      exact htake
    · exact ⟨.block none, s, u, by rw [hop], .lacks malloc hall hnone, hs, rfl, h⟩

/-- A sum over the subpools, one by one. -/
lemma sum_map_subpools (f : Subpool → ℕ) (g : ℕ → ℕ) (ps : List Subpool)
    (hfg : ∀ k p, ps[k]? = some p → f p = g k) : (ps.map f).sum = ∑ k ∈ Finset.range ps.length, g k := by
  induction ps using List.reverseRecOn with
  | nil => rfl
  | append_singleton ps p ih =>
    rw [List.map_append, List.sum_append, List.map_singleton, List.sum_singleton, List.length_append,
      List.length_singleton, Finset.sum_range_succ, hfg ps.length p (by simp)]
    congr 1
    refine ih fun k q hq => hfg k q ?_
    rw [List.getElem?_append_left (List.getElem?_eq_some_iff.1 hq).1]
    exact hq

lemma lent_of_not_opened (h : Kept s u) (hk : k ∉ u.opened) : u.lent.filter (fun b => b.subpool = k) = ∅ :=
  Finset.filter_eq_empty_iff.2 fun b hb hbk => hk (hbk ▸ (h.lent b hb).1.1)

lemma sum_lent (h : Kept s u) :
    ∑ k ∈ Finset.range s.subpools.length, (u.lent.filter fun b => b.subpool = k).card = u.lent.card := by
  refine (Finset.card_eq_sum_card_fiberwise fun b hb => ?_).symm
  have hle := h.opened _ (h.lent b hb).1.1
  rw [Finset.coe_range, Set.mem_Iio, h.length]
  omega

lemma usedCount_eq (h : Kept s u) : s.usedCount = u.lent.card % 2 ^ 32 := by
  unfold usedCount
  rw [← sum_lent h]
  congr 1
  refine sum_map_subpools _ _ _ fun k p hp => ?_
  have hord := h.subpools k p hp
  rw [hord.start]
  by_cases hk : k ∈ u.opened
  · have hcard := card_lent h hp hk
    rw [if_pos (decide_eq_true hk), hord.numBlocks hk]
    omega
  · rw [if_neg (by simpa using hk), lent_of_not_opened h hk, Finset.card_empty]

lemma sum_size (h : Kept s u) : ∑ k ∈ Finset.range s.subpools.length, u.size k = u.capacity := by
  rw [h.length, Finset.sum_range_succ', Plain.capacity, Nat.add_comm]
  congr 1
  have hsize : ∀ k ∈ Finset.range u.numExtensions, u.size (k + 1) = u.numExtensionBlocks := fun k _ =>
    if_neg k.succ_ne_zero
  rw [Finset.sum_const_nat hsize, Finset.card_range]

lemma availableCount_eq (h : Kept s u) : s.availableCount = (u.capacity - u.lent.card) % 2 ^ 32 := by
  unfold availableCount
  congr 1
  have hparts : ∀ k p, s.subpools[k]? = some p →
      (if p.start then p.availableBlocks else s.numExtensionBlocks) =
        u.size k - (u.lent.filter fun b => b.subpool = k).card := fun k p hp => by
    rw [(h.subpools k p hp).start]
    by_cases hk : k ∈ u.opened
    · have hcard := card_lent h hp hk
      rw [if_pos (decide_eq_true hk)]
      omega
    · have hk0 : k ≠ 0 := fun h0 => hk (h0 ▸ h.main)
      rw [if_neg (by simpa using hk), lent_of_not_opened h hk, Finset.card_empty, Nat.sub_zero, Plain.size,
        if_neg hk0, h.numExtensionBlocks]
  have hsum : ∀ k ∈ Finset.range s.subpools.length, u.size k =
      (u.size k - (u.lent.filter fun b => b.subpool = k).card) + (u.lent.filter fun b => b.subpool = k).card := by
    intro k hk
    have hp := List.getElem?_eq_getElem (Finset.mem_range.1 hk)
    by_cases hk : k ∈ u.opened
    · have hcard := card_lent h hp hk
      omega
    · rw [lent_of_not_opened h hk]
      rfl
  have htotal := Finset.sum_congr rfl hsum
  rw [sum_size h, Finset.sum_add_distrib, sum_lent h] at htotal
  rw [sum_map_subpools _ _ _ hparts]
  omega

theorem kept_extend (h : Kept s u) (m n : ℕ) :
    ∃ u', Plain.Does u (.extend m n) (s.extend m n).1 u' ∧ (s.extend m n).2.deleted = s.deleted ∧
      u'.deleted = u.deleted ∧ Kept (s.extend m n).2 u' := by
  unfold extend
  rw [h.length]
  split
  · exact ⟨u, .grown m n (by omega), rfl, rfl, h⟩
  split
  · exact ⟨u, .invalid m n (by omega) (by omega), rfl, rfl, h⟩
  split
  · exact ⟨u, .invalid m n (by omega) (by omega), rfl, rfl, h⟩
  · have honce : u.numExtensions = 0 := by omega
    have hzero : ∀ k ∈ u.opened, k = 0 := fun k hk => Nat.le_zero.1 (honce ▸ h.opened k hk)
    have hsize : ∀ k ∈ u.opened, Plain.size { u with numExtensions := m, numExtensionBlocks := n } k = u.size k :=
      fun k hk => (if_pos (hzero k hk)).trans (if_pos (hzero k hk)).symm
    refine ⟨_, .grows m n honce (by omega) (by omega), rfl, rfl, ?_⟩
    refine ⟨?_, rfl, ?_, ?_, h.main, ?_, fun b hb => ?_, fun k p hp => ?_⟩
    · rw [List.length_append, List.length_replicate, h.length, honce, Nat.zero_add, Nat.add_comm]
    · dsimp only
      omega
    · dsimp only
      omega
    · exact fun k hk => hzero k hk ▸ Nat.zero_le m
    · obtain ⟨⟨hk, hin⟩, hown⟩ := h.lent b hb
      exact ⟨⟨hk, lt_of_lt_of_eq hin (hsize _ hk).symm⟩, hown⟩
    · rw [List.getElem?_append, h.length, honce] at hp
      split at hp
      · obtain rfl : k = 0 := by omega
        exact orderly_congr (u := u) (fun _ _ => rfl) (fun _ _ => Iff.rfl) rfl Iff.rfl rfl (h.subpools 0 p hp)
      · have hk : k ∉ u.opened := fun hk => by
          have h0 := hzero k hk
          omega
        have hk0 : k ≠ 0 := by omega
        obtain rfl := List.eq_of_mem_replicate (List.mem_of_getElem? hp)
        exact ⟨rfl, by simp [Subpool.zero, hk0], by simp [Subpool.zero, hk], rfl, fun hin => absurd hin hk,
          fun hin => absurd hin hk⟩

/-- Only the memory of a main subpool on the heap goes back. -/
lemma delete_eq (h : Kept s u) : s.delete.1 = .freed (if u.onHeap then [0] else []) := by
  unfold delete
  have hfreed : ∀ k ∈ List.range s.subpools.length,
      (s.subpools[k]?.any fun p => p.mem && p.ownsMem) = (decide (k = 0) && u.onHeap) := fun k hk => by
    have hp := List.getElem?_eq_getElem (List.mem_range.1 hk)
    have hord := h.subpools k _ hp
    rw [hp, Option.any_some, hord.ownsMem, hord.mem, hord.start]
    by_cases hk0 : k = 0
    · rw [hk0, decide_eq_true h.main, Bool.true_and]
    · rw [decide_eq_false hk0, Bool.false_and, Bool.and_false]
  rw [List.filter_congr hfreed, h.length, List.range_succ_eq_map, List.filter_cons, List.filter_map]
  have hrest : (List.range u.numExtensions).filter ((fun k => decide (k = 0) && u.onHeap) ∘ Nat.succ) = [] :=
    List.filter_eq_nil_iff.2 fun k _ => by simp
  rw [hrest]
  cases u.onHeap <;> rfl

end Kept

section Run

variable {s s' : BlockPool} {u : Plain} {e : Event} {o : Out} {f : Fault}

lemma lender_of_gone (h : ∀ p ∈ s.subpools, p.mem = false) (b : Block) : s.lender b = .error .wild := by
  have hnone : s.header b = none := by
    unfold header
    split
    · rename_i p hp
      rw [h p (List.mem_of_getElem? hp), if_neg (by simp)]
    · rfl
  rw [lender, hnone]

/-- What a fault comes of: a call that may not be made. It is a `vcos_demand` unless the pool is deleted or what
is named is no block of it. -/
def Blame (u : Plain) (e : Event) (f : Fault) : Prop :=
  Plain.Misuse u e ∧
    (f = .demand ∨ f = .wild ∧ (u.deleted = true ∨ ∃ b ∈ Plain.named e, ¬ u.Has b))

/-- After `vcos_generic_blockpool_delete` nothing can be done with the pool. -/
lemma step_of_deleted (h : Refines s u) (hdel : u.deleted = true) (e : Event) :
    e = .free none ∨ ∃ f, step s e = .error f ∧ Blame u e f := by
  have hs : s.deleted = true := h.deleted.trans hdel
  cases e with
  | free block =>
    rcases block with _ | b
    · exact .inl rfl
    · refine .inr ⟨.wild, ?_, ⟨by simp, .inl hdel⟩, .inr ⟨rfl, .inl hdel⟩⟩
      simp only [step, free, lender_of_gone (h.gone hdel) b]
  | elemToHandle b =>
    refine .inr ⟨.wild, ?_, ⟨by simp, .inl hdel⟩, .inr ⟨rfl, .inl hdel⟩⟩
    simp only [step, elemToHandle, lender_of_gone (h.gone hdel) b]
  | extend _ _ | alloc _ | availableCount | usedCount | elemFromHandle _ | delete =>
    refine .inr ⟨.demand, ?_, ⟨by simp, .inl hdel⟩, .inl rfl⟩
    simp only [step, asserted, if_pos hs]

/-- What comes of naming a block that is not lent. -/
lemma blame_of_not_lent {b : Block} (h : Kept s u) (hnamed : Plain.named e = some b) (hb : b ∉ u.lent) :
    ∃ f, s.lender b = .error f ∧ Blame u e f := by
  have hmisuse : Plain.Misuse u e := by
    refine ⟨?_, .inr ⟨b, hnamed, hb⟩⟩
    rintro rfl
    cases hnamed
  rcases lender_of_not_lent h hb with ⟨-, hl⟩ | ⟨hhas, hl⟩
  · exact ⟨_, hl, hmisuse, .inl rfl⟩
  · exact ⟨_, hl, hmisuse, .inr ⟨rfl, .inr ⟨b, hnamed, hhas⟩⟩⟩

lemma elemToHandle_of_lent {b : Block} (h : Kept s u) (hs : s.deleted = false) (hb : b ∈ u.lent) :
    step s (.elemToHandle b) = .ok (.handle (handleCreate b.index b.subpool), s) := by
  obtain ⟨p, hp, hl⟩ := lender_of_lent h hs hb
  obtain ⟨hk, hin⟩ := (h.lent b hb).1
  have hle := h.opened _ hk
  have hfew := h.few
  have hlength := h.length
  have hall : b.subpool = b.subpool ∧ b.index < p.numBlocks ∧ b.subpool < 8 ∧ b.subpool < s.subpools.length :=
    ⟨rfl, (h.subpools _ p hp).numBlocks hk ▸ hin, by omega, by omega⟩
  show s.elemToHandle b = _
  rw [elemToHandle, hl]
  exact if_pos hall

/-- **One call.** It does what the plain pool allows, or it is one that may not be made, and faults. -/
theorem refines_step (h : Refines s u) (e : Event) :
    (∃ o s' u', step s e = .ok (o, s') ∧ Plain.Step u e o u' ∧ Refines s' u') ∨
      ∃ f, step s e = .error f ∧ Blame u e f := by
  rcases Bool.eq_false_or_eq_true u.deleted with hdel | hthere
  · rcases step_of_deleted h hdel e with rfl | hfault
    · exact .inl ⟨_, s, u, rfl, .null, h⟩
    · exact .inr hfault
  have hs : s.deleted = false := h.deleted.trans hthere
  have hkept := h.kept hthere
  have hdone : ∀ {s' : BlockPool} {u' : Plain}, s'.deleted = false → u'.deleted = false → Kept s' u' →
      Refines s' u' := fun hs' hu' hk =>
    ⟨hs'.trans hu'.symm, fun _ => hk, fun hdel => by rw [hu'] at hdel; cases hdel⟩
  have hok : ∀ r : Out × BlockPool, s.asserted r = .ok r := fun r => by
    rw [asserted, hs, if_neg Bool.false_ne_true]
  cases e with
  | extend m n =>
    obtain ⟨u', hdoes, hs', hu', hk⟩ := kept_extend hkept m n
    exact .inl ⟨_, _, u', hok _, .does hthere hdoes, hdone (hs'.trans hs) (hu'.trans hthere) hk⟩
  | alloc malloc =>
    obtain ⟨o, s', u', halloc, hdoes, hs', hu', hk⟩ := kept_alloc hkept hs malloc
    refine .inl ⟨o, s', u', ?_, .does hthere hdoes, hdone hs' (hu'.trans hthere) hk⟩
    simp only [step, hs, Bool.false_eq_true, if_false, halloc]
  | free block =>
    rcases block with _ | b
    · exact .inl ⟨_, s, u, rfl, .null, h⟩
    · by_cases hb : b ∈ u.lent
      · obtain ⟨s', hfree, hs', hk⟩ := kept_free hkept hs hb
        exact .inl ⟨_, s', _, hfree, .does hthere (.takesBack b hb), hdone hs' hthere hk⟩
      · obtain ⟨f, hl, hblame⟩ := blame_of_not_lent (e := .free (some b)) hkept rfl hb
        exact .inr ⟨f, by simp only [step, free, hl], hblame⟩
  | availableCount =>
    refine .inl ⟨_, s, u, hok _, .does hthere ?_, h⟩
    rw [availableCount_eq hkept]
    exact .available
  | usedCount =>
    refine .inl ⟨_, s, u, hok _, .does hthere ?_, h⟩
    rw [usedCount_eq hkept]
    exact .used
  | elemToHandle b =>
    by_cases hb : b ∈ u.lent
    · exact .inl ⟨_, s, u, elemToHandle_of_lent hkept hs hb, .does hthere (.names b hb), h⟩
    · obtain ⟨f, hl, hblame⟩ := blame_of_not_lent (e := .elemToHandle b) hkept rfl hb
      exact .inr ⟨f, by simp only [step, elemToHandle, hl], hblame⟩
  | elemFromHandle hd =>
    exact .inl ⟨_, s, u, hok _, .does hthere (.finds hd _ (elemFromHandle_eq hkept hd)), h⟩
  | delete =>
    have hout : s.delete = (.freed (if u.onHeap then [0] else []), s.delete.2) :=
      Prod.ext (delete_eq hkept) rfl
    refine .inl ⟨_, s.delete.2, { u with deleted := true }, (hok _).trans (congrArg _ hout),
      .does hthere .deletes, rfl, (fun hdel => nomatch hdel), fun _ p hp => ?_⟩
    obtain ⟨q, -, rfl⟩ := List.mem_map.1 hp
    rfl

lemma refines_create (n : ℕ) (onHeap : Bool) : Refines (create n onHeap) (Plain.create n onHeap) := by
  refine ⟨rfl, fun _ => ⟨rfl, rfl, Nat.zero_le 7, fun h0 => absurd h0 (by simp [Plain.create]),
    Finset.mem_singleton_self 0, fun k hk => Nat.le_of_eq (Finset.mem_singleton.1 hk), fun b hb => ?_,
    fun k p hp => ?_⟩, fun hdel => nomatch hdel⟩
  · exact absurd hb (Finset.notMem_empty b)
  · rcases k with _ | k
    · obtain rfl := Option.some.inj hp
      refine ⟨rfl, rfl, rfl, rfl, fun _ => rfl, fun _ => ⟨_, free_link 0 _ n, by simp, fun b => ?_⟩⟩
      rw [mem_blocks]
      exact and_congr_right fun _ => (and_iff_left (Finset.notMem_empty b)).symm
    · cases hp

lemma trace_run {n : ℕ} {onHeap : Bool} {es : List Event} {os : List Out}
    (h : run step (create n onHeap) es = .ok (os, s)) :
    ∃ u, Trace Plain.Step (Plain.create n onHeap) es os u ∧ Refines s u := by
  refine trace_of_run (fun s u e o s' hR hs => ?_) (refines_create n onHeap) h
  rcases refines_step hR e with ⟨o', t, u', hs', hT, hR'⟩ | ⟨f, hs', -⟩
  · obtain ⟨rfl, rfl⟩ := Prod.mk.inj (Except.ok.inj (hs.symm.trans hs'))
    exact ⟨u', hT, hR'⟩
  · cases hs.symm.trans hs'

/-- Two blocks, an extension, and one of them back twice. -/
example : run step (create 1 true) [.extend 2 3, .alloc fun _ => true, .alloc fun k => k == 2,
    .usedCount, .free (some ⟨2, 2⟩), .free (some ⟨2, 2⟩)] = .error .demand := rfl

/-! ### Handles -/

lemma handleCreate_eq {i k : ℕ} (hi : i + 1 < 2 ^ 29) (hk : k < 8) : handleCreate i k = (i + 1) * 8 + k := by
  unfold handleCreate
  rw [Nat.mod_eq_of_lt (by rw [Nat.shiftLeft_eq]; omega), ← Nat.shiftLeft_add_eq_or_of_lt (i := 3) hk,
    Nat.shiftLeft_eq]

lemma handleGetSubpool_create {i k : ℕ} (hi : i + 1 < 2 ^ 29) (hk : k < 8) :
    handleGetSubpool (handleCreate i k) = k := by
  rw [handleCreate_eq hi hk, handleGetSubpool, Nat.and_two_pow_sub_one_eq_mod _ 3]
  omega

lemma handleGetIndex_create {i k : ℕ} (hi : i + 1 < 2 ^ 29) (hk : k < 8) :
    handleGetIndex (handleCreate i k) = i := by
  rw [handleCreate_eq hi hk, handleGetIndex, Nat.shiftRight_eq_div_pow]
  omega

lemma lent_of_names (h : Refines s u) {b : Block} {hd : ℕ}
    (hs : step s (.elemToHandle b) = .ok (.handle hd, s')) :
    b ∈ u.lent ∧ u.deleted = false ∧ hd = handleCreate b.index b.subpool ∧ s' = s := by
  rcases refines_step h (.elemToHandle b) with ⟨o, t, u', hs', hT, -⟩ | ⟨f, hs', -⟩
  · obtain ⟨rfl, rfl⟩ := Prod.mk.inj (Except.ok.inj (hs.symm.trans hs'))
    rcases hT with _ | ⟨hthere, hdoes⟩
    cases hdoes with
    | names b hlent =>
      have hsame := hs'.symm.trans (elemToHandle_of_lent (h.kept hthere) (h.deleted.trans hthere) hlent)
      exact ⟨hlent, hthere, rfl, (Prod.mk.inj (Except.ok.inj hsame)).2⟩
  · cases hs.symm.trans hs'

/-- A block stays with the pool. -/
lemma has_step {u' : Plain} {b : Block} (h : Refines s u) (hT : Plain.Step u e o u') (hhas : u.Has b) :
    u'.Has b := by
  rcases hT with _ | ⟨hthere, hdoes⟩
  · exact hhas
  · cases hdoes with
    | grows m n honce hm hn =>
      have hle := (h.kept hthere).opened _ hhas.1
      have hmain : b.subpool = 0 := by omega
      refine ⟨hhas.1, lt_of_lt_of_eq hhas.2 ?_⟩
      rw [hmain]
      rfl
    | opens malloc c hall hnew hin hmem => exact ⟨Finset.mem_insert_of_mem hhas.1, hhas.2⟩
    | _ => exact hhas

lemma has_run {es : List Event} {os : List Out} {t : BlockPool} {b : Block} (h : Refines s u) (hhas : u.Has b)
    (hrun : run step s es = .ok (os, t)) : ∃ u', Refines t u' ∧ u'.Has b := by
  obtain ⟨u', -, hR⟩ : ∃ u', Trace Plain.Step u es os u' ∧ Refines t u' ∧ u'.Has b := by
    refine trace_of_run (R := fun s u => Refines s u ∧ u.Has b) (fun s u e o s' hR hs => ?_) ⟨h, hhas⟩ hrun
    rcases refines_step hR.1 e with ⟨o', t, u', hs', hT, hR'⟩ | ⟨f, hs', -⟩
    · obtain ⟨rfl, rfl⟩ := Prod.mk.inj (Except.ok.inj (hs.symm.trans hs'))
      exact ⟨u', hT, hR', has_step hR.1 hT hR.2⟩
    · cases hs.symm.trans hs'
  exact ⟨u', hR⟩

/-- **Handles.** The handle of a block is not the invalid one, and as long as the pool is there it leads to
this block while the block is lent, whatever is done to the pool in between; otherwise it leads nowhere, and
the block is caught when it comes back. -/
theorem handle_lasts {n : ℕ} {onHeap : Bool} {es es' : List Event} {os os' : List Out} {t v : BlockPool}
    {b : Block} {hd : ℕ} (hrun : run step (create n onHeap) es = .ok (os, s))
    (hhandle : step s (.elemToHandle b) = .ok (.handle hd, v)) (hfew : b.index + 1 < 2 ^ 29)
    (hrun' : run step v es' = .ok (os', t)) (hthere : t.deleted = false) :
    hd ≠ 0 ∧
    (step t (.elemFromHandle hd) = .ok (.block (some b), t) ∧ step t (.elemToHandle b) = .ok (.handle hd, t) ∨
      step t (.elemFromHandle hd) = .ok (.block none, t) ∧ step t (.free (some b)) = .error .demand) := by
  obtain ⟨u, -, hR⟩ := trace_run hrun
  obtain ⟨hlent, hdel, rfl, rfl⟩ := lent_of_names hR hhandle
  have hhas := ((hR.kept hdel).lent b hlent).1
  have hk8 : b.subpool < 8 := by
    have hle := (hR.kept hdel).opened _ hhas.1
    have hseven := (hR.kept hdel).few
    omega
  obtain ⟨u', hR', hhas'⟩ := has_run hR hhas hrun'
  have hkept := hR'.kept (hR'.deleted.symm.trans hthere)
  have hfrom : step t (.elemFromHandle (handleCreate b.index b.subpool)) =
      .ok (.block (t.elemFromHandle (handleCreate b.index b.subpool)), t) := by
    show t.asserted _ = _
    rw [asserted, hthere, if_neg Bool.false_ne_true]
  have hfound := fun c => elemFromHandle_eq hkept (handleCreate b.index b.subpool) c
  rw [handleGetSubpool_create hfew hk8, handleGetIndex_create hfew hk8] at hfound
  refine ⟨by rw [handleCreate_eq hfew hk8]; omega, ?_⟩
  by_cases hb : b ∈ u'.lent
  · refine .inl ⟨?_, elemToHandle_of_lent hkept hthere hb⟩
    rw [hfrom, (hfound b).2 ⟨hb, rfl, rfl⟩]
  · refine .inr ⟨?_, ?_⟩
    · have hnone : t.elemFromHandle (handleCreate b.index b.subpool) = none :=
        Option.eq_none_iff_forall_ne_some.2 fun c hc => by
          obtain ⟨hclent, hck, hci⟩ := (hfound c).1 hc
          obtain rfl : c = b := Block.ext hck hci
          exact hb hclent
      rw [hfrom, hnone]
    · rcases lender_of_not_lent hkept hb with ⟨-, hl⟩ | ⟨hno, -⟩
      · show t.free b = _
        rw [free, hl]
      · exact absurd hhas' hno

/-- A block of a further subpool, when it has come back. -/
theorem handle_lasts_back : ∃ os s t,
    run step (create 1 true) [.extend 1 2, .alloc fun _ => true, .alloc fun _ => true] = .ok (os, s) ∧
    run step s [.free (some ⟨1, 1⟩)] = .ok ([.freed []], t) ∧ 17 ≠ 0 ∧
    (step t (.elemFromHandle 17) = .ok (.block (some ⟨1, 1⟩), t) ∧
        step t (.elemToHandle ⟨1, 1⟩) = .ok (.handle 17, t) ∨
      step t (.elemFromHandle 17) = .ok (.block none, t) ∧
        step t (.free (some ⟨1, 1⟩)) = .error .demand) := by
  obtain ⟨os, s, t, hrun, hhandle, hback, hthere⟩ : ∃ os s t,
      run step (create 1 true) [.extend 1 2, .alloc fun _ => true, .alloc fun _ => true] = .ok (os, s) ∧
      step s (.elemToHandle ⟨1, 1⟩) = .ok (.handle 17, s) ∧
      run step s [.free (some ⟨1, 1⟩)] = .ok ([.freed []], t) ∧ t.deleted = false :=
    ⟨_, _, _, rfl, rfl, rfl, rfl⟩
  exact ⟨os, s, t, hrun, hback, handle_lasts hrun hhandle (by decide) hback hthere⟩

end Run

end BlockPool

end RcControl.Vcos
