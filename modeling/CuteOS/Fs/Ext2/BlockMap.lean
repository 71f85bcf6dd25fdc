/-
  Fs/Ext2/BlockMap.lean --- the blocks of a file by their index.

  Source: `fs/ext2/inode.c`.  `Volume.blockAt` is the block that holds part `index` of a
  file, or zero where the file has a hole.  The results say that different parts have
  different blocks, and that `ext2_bmap` changes the block of one part only.
-/
import CuteOS.Fs.Ext2.Dir

set_option autoImplicit false

namespace CuteOS.Fs.Ext2

open Lib.PtrTree
open Function (update update_self update_of_ne)

/-! ## Places -/

/-- A word of `i_block[]` and a path below it. -/
structure IsPlace (slot : Nat) (path : List Nat) : Prop where
  slot_lt : slot < nBlocks
  isPath : IsPath ptrsPerBlock (slotDepth slot) path

/-- The block at a place. -/
def Volume.blockAtPlace (fs : Volume) (inode : Inode) (slot : Nat) (path : List Nat) : Nat :=
  nodeAt fs.word (inode.iBlock slot) path

/-- The place of part `index` of a file, as `ext2_bmap` computes it. -/
def blockPlace (index : Nat) : Option (Nat × List Nat) :=
  if index < ndirBlocks then some (index, [])
  else if index - ndirBlocks < ptrsPerBlock then some (indBlock, [index - ndirBlocks])
  else if index - ndirBlocks - ptrsPerBlock ≥ ptrsPerBlock * ptrsPerBlock then none
  else some (dindBlock, [(index - ndirBlocks - ptrsPerBlock) / ptrsPerBlock,
    (index - ndirBlocks - ptrsPerBlock) % ptrsPerBlock])

/-- The block of part `index`. -/
def Volume.blockAt (fs : Volume) (inode : Inode) (index : Nat) : Nat :=
  match blockPlace index with
  | none => 0
  | some (slot, path) => fs.blockAtPlace inode slot path

open Volume (blockAtPlace blockAt)

theorem isPlace_slot {slot : Nat} (h : slot < nBlocks) : IsPlace slot [] :=
  ⟨h, Nat.zero_le _, fun _ hi => by cases hi⟩

variable {index : Nat}

theorem blockPlace_isPlace {slot : Nat} {path : List Nat}
    (h : blockPlace index = some (slot, path)) :
    IsPlace slot path ∧ path.length = slotDepth slot := by
  unfold blockPlace at h
  split_ifs at h with hdirect hsingle hbeyond
  · cases h
    refine ⟨isPlace_slot (hdirect.trans (by decide)), ?_⟩
    rw [slotDepth, if_pos hdirect]
    rfl
  · cases h
    refine ⟨⟨by decide, le_rfl, fun i hi => ?_⟩, rfl⟩
    rw [List.mem_singleton.mp hi]
    exact hsingle
  · cases h
    refine ⟨⟨by decide, le_rfl, fun i hi => ?_⟩, rfl⟩
    rcases List.mem_cons.mp hi with rfl | hi
    · exact Nat.div_lt_of_lt_mul (by omega)
    · rw [List.mem_singleton.mp hi]
      exact Nat.mod_lt _ (by decide)

theorem blockPlace_inj {index' : Nat} {place : Nat × List Nat}
    (h : blockPlace index = some place) (h' : blockPlace index' = some place) :
    index = index' := by
  unfold blockPlace at h h'
  split_ifs at h h' with h1 h2 h3 h4 h5 h6 h7 h8 h9 <;>
    (obtain rfl := Option.some.inj h; rw [Option.some_inj, Prod.mk.injEq] at h') <;>
    simp only [List.cons.injEq, and_true, reduceCtorEq, and_false] at h' <;> try omega
  obtain ⟨-, hdiv, hmod⟩ := h'
  have hadd := Nat.div_add_mod (index - ndirBlocks - ptrsPerBlock) ptrsPerBlock
  have hadd' := Nat.div_add_mod (index' - ndirBlocks - ptrsPerBlock) ptrsPerBlock
  rw [hdiv] at hadd'
  omega

section Places

variable {fs fs' : Volume} {inode inode' : Inode} {slot k : Nat} {path q : List Nat}

theorem blockAtPlace_mem_owned (h : Owns fs inode) (hplace : IsPlace slot path)
    (hne : fs.blockAtPlace inode slot path ≠ 0) :
    fs.blockAtPlace inode slot path ∈ inode.owned :=
  (h.mem_iff _).mp (mem_gather.mpr ⟨slot, hplace.slot_lt, nodeAt_mem_nodes hplace.isPath hne⟩)

theorem blockAtPlace_mem_inner (hplace : IsPlace slot path) (hlen : path.length < slotDepth slot)
    (hne : fs.blockAtPlace inode slot path ≠ 0) :
    fs.blockAtPlace inode slot path ∈ fs.inodeInner inode :=
  mem_gather.mpr ⟨slot, hplace.slot_lt, nodeAt_mem_inner hplace.isPath hlen hne⟩

theorem blockAtPlace_mem_leaves (hplace : IsPlace slot path)
    (hlen : path.length = slotDepth slot) (hne : fs.blockAtPlace inode slot path ≠ 0) :
    fs.blockAtPlace inode slot path ∈ fs.inodeLeaves inode :=
  mem_gather.mpr ⟨slot, hplace.slot_lt, nodeAt_mem_leaves hplace.isPath hlen hne⟩

/-- A block stands at one place. -/
theorem blockAtPlace_inj (h : Owns fs inode) (hplace : IsPlace slot path) (hq : IsPlace k q)
    (hne : fs.blockAtPlace inode slot path ≠ 0)
    (heq : fs.blockAtPlace inode slot path = fs.blockAtPlace inode k q) :
    slot = k ∧ path = q := by
  have hnodup := h.nodup_inodeBlocks
  have hmem := nodeAt_mem_nodes hplace.isPath hne
  have hmem' := nodeAt_mem_nodes hq.isPath (heq ▸ hne)
  rw [blockAtPlace, blockAtPlace] at heq
  rw [← heq] at hmem'
  obtain rfl := eq_of_mem_gather hnodup hplace.slot_lt hq.slot_lt hmem hmem'
  exact ⟨rfl, nodeAt_inj (nodup_of_gather hnodup hplace.slot_lt) hplace.isPath hq.isPath hne heq⟩

/-- What a place holds depends on the blocks of pointers. -/
theorem blockAtPlace_congr (hq : IsPlace k q) (hiBlock : inode'.iBlock k = inode.iBlock k)
    (hpage : ∀ n ∈ fs.inodeInner inode, fs'.page n = fs.page n) :
    fs'.blockAtPlace inode' k q = fs.blockAtPlace inode k q := by
  rw [blockAtPlace, hiBlock]
  apply nodeAt_congr hq.isPath
  intro n hn i _
  exact word_congr (hpage n (mem_gather.mpr ⟨k, hq.slot_lt, hn⟩)) i

end Places

/-! ## Filling a place -/

/-- What a step of `ext2_bmap` at one place does: the place may get a fresh block of
zeros, and all other places and the data stay. -/
structure Fills (slot : Nat) (path : List Nat) (fs : Volume) (inode : Inode) (fs' : Volume)
    (inode' : Inode) : Prop extends BmapStep fs inode fs' inode' where
  iSize : inode'.iSize = inode.iSize
  other : ∀ k q, IsPlace k q → ¬ (k = slot ∧ q = path) →
    fs'.blockAtPlace inode' k q = fs.blockAtPlace inode k q
  here : fs'.blockAtPlace inode' slot path = fs.blockAtPlace inode slot path ∨
    fs.blockAtPlace inode slot path = 0 ∧
      ¬ fs.BlockUsed (fs'.blockAtPlace inode' slot path) ∧
      fs'.page (fs'.blockAtPlace inode' slot path) = fun _ => 0
  data : ∀ k q, IsPlace k q → q.length = slotDepth k → fs.blockAtPlace inode k q ≠ 0 →
    fs'.page (fs.blockAtPlace inode k q) = fs.page (fs.blockAtPlace inode k q)

variable {block : Nat} {ret : Except Errno Nat}

section Fills

variable {fs fs1 fs' : Volume} {inode inode' : Inode} {slot : Nat} {path : List Nat}

theorem Fills.of_none (h : Owns fs inode) (ha : Allocated fs 0 fs') (slot : Nat)
    (path : List Nat) (hplace : IsPlace slot path) : Fills slot path fs inode fs' inode := by
  have hpage : ∀ n ∈ inode.owned, fs'.page n = fs.page n := fun n hn => ha.page n (h.used n hn)
  have hsame : ∀ k q, IsPlace k q → fs'.blockAtPlace inode k q = fs.blockAtPlace inode k q :=
    fun k q hq => blockAtPlace_congr hq rfl fun n hn => hpage n (h.inner_mem hn)
  exact { BmapStep.of_none h ha with
      iSize := rfl
      other := fun k q hq _ => hsame k q hq
      here := .inl (hsame slot path hplace)
      data := fun k q hq _ hne => hpage _ (blockAtPlace_mem_owned h hq hne) }

theorem Fills.quiet (h : Fills slot path fs inode fs1 inode') (hq : Volume.Quiet fs1 fs') :
    Fills slot path fs inode fs' inode' := by
  have hsame : ∀ k q, fs'.blockAtPlace inode' k q = fs1.blockAtPlace inode' k q := by
    intro k q
    have hword : fs'.word = fs1.word := by
      funext n i
      exact word_congr (congrFun hq.page n) i
    rw [blockAtPlace, hword, blockAtPlace]
  exact { h.toBmapStep.trans (.of_quiet h.owns hq) with
      iSize := h.iSize
      other := fun k q hplace hne => by rw [hsame, h.other k q hplace hne]
      here := by
        rw [hsame, hq.page]
        exact h.here
      data := fun k q hplace hlen hne => by rw [hq.page, h.data k q hplace hlen hne] }

section

variable (h : Owns fs inode) (ha : Allocated fs block fs') (hblock : block ≠ 0)
include h ha hblock

/-- A fresh block goes into an empty word of `i_block[]`. -/
theorem Fills.attach_slot (hslot : slot < nBlocks) (hnull : inode.iBlock slot = 0) :
    Fills slot [] fs inode fs' { inode.withBlock block with
      iBlock := update inode.iBlock slot block } := by
  obtain ⟨hunused, -, hzero⟩ := ha.fresh hblock
  have hpage : ∀ n ∈ inode.owned, fs'.page n = fs.page n := fun n hn => ha.page n (h.used n hn)
  refine ⟨.attach_slot h ha hblock hslot hnull _, rfl, fun k q hq hne => ?_, .inr ⟨hnull, ?_⟩, ?_⟩
  · by_cases hk : k = slot
    · -- below the fresh block there is nothing
      subst hk
      have hpath : q ≠ [] := fun he => hne ⟨rfl, he⟩
      rw [blockAtPlace, blockAtPlace, hnull, nodeAt_null]
      dsimp only
      rw [update_self]
      exact nodeAt_of_empty (word_eq_zero hzero) hpath
    · exact blockAtPlace_congr hq (update_of_ne hk ..) fun n hn => hpage n (h.inner_mem hn)
  · have hhere : fs'.blockAtPlace { inode.withBlock block with
        iBlock := update inode.iBlock slot block } slot [] = block :=
      update_self ..
    rw [hhere]
    exact ⟨hunused, hzero⟩
  · exact fun k q hq _ hne => hpage _ (blockAtPlace_mem_owned h hq hne)

/-- A fresh block goes into an empty word of the block of pointers at `path`. -/
theorem Fills.attach_word {ind : Nat} (hplace : IsPlace slot path)
    (hlen : path.length < slotDepth slot) (hind : fs.blockAtPlace inode slot path = ind)
    (hzero : ind ≠ 0) (hindex : index < ptrsPerBlock) (hnull : fs.word ind index = 0) :
    Fills slot (path ++ [index]) fs inode (fs'.setWord ind index block)
      (inode.withBlock block) := by
  obtain ⟨hunused, hused, hempty⟩ := ha.fresh hblock
  have hinner : ind ∈ fs.inodeInner inode := hind ▸ blockAtPlace_mem_inner hplace hlen (hind ▸ hzero)
  have hpage : ∀ n ∈ inode.owned, fs'.page n = fs.page n := fun n hn => ha.page n (h.used n hn)
  have hindUsed := h.used ind (h.inner_mem hinner)
  have hne : ind ≠ block := fun he => hunused (he ▸ hindUsed)
  have hlt : block < uint32Modulus := hused.1.2.1.trans fs'.sb.blocksCount_lt
  have hnull' : fs'.word ind index = 0 := by
    rw [word_congr (ha.page ind hindUsed), hnull]
  have hsame : ∀ k q, IsPlace k q → fs'.blockAtPlace inode k q = fs.blockAtPlace inode k q :=
    fun k q hq => blockAtPlace_congr hq rfl fun n hn => hpage n (h.inner_mem hn)
  -- where the pointer is followed, and where it is not
  have hcases := fun k q => @nodeAt_link index block ind fs'.word hzero hblock hne
    (word_eq_zero hempty) hnull' (inode.iBlock k) q
  rw [← word_setWord fs' ind index hlt] at hcases
  have hpart : fs.blockAtPlace inode slot (path ++ [index]) = 0 := by
    rw [blockAtPlace, nodeAt_append, ← blockAtPlace, hind, if_neg hzero, hnull]
  have hhere : (fs'.setWord ind index block).blockAtPlace (inode.withBlock block) slot
      (path ++ [index]) = block := by
    rcases hcases slot (path ++ [index]) with ⟨-, -, -, hval⟩ | ⟨hnot, -⟩
    · exact hval
    · refine absurd ⟨path, rfl, ?_⟩ hnot
      exact (hsame slot path hplace).trans hind
  refine ⟨.attach_word h ha hblock hinner hindex hnull _, rfl, fun k q hq hother => ?_,
    .inr ⟨hpart, ?_⟩, fun k q hq hleaf hnz => ?_⟩
  · rcases hcases k q with ⟨q', rfl, hnode, -⟩ | ⟨-, hval⟩
    · have hq' : IsPlace k q' := by
        obtain ⟨hlt, hlen', hmem⟩ := hq
        rw [List.length_append] at hlen'
        exact ⟨hlt, by omega, fun i hi => hmem i (List.mem_append_left _ hi)⟩
      have hnode' : fs.blockAtPlace inode k q' = ind := (hsame k q' hq').symm.trans hnode
      obtain ⟨rfl, rfl⟩ := blockAtPlace_inj h hplace hq' (hind ▸ hzero) (hind.trans hnode'.symm)
      exact absurd ⟨rfl, rfl⟩ hother
    · rw [← hsame k q hq]
      exact hval
  · rw [hhere]
    refine ⟨hunused, ?_⟩
    rw [← hempty]
    exact update_of_ne hne.symm ..
  · have hleafMem := blockAtPlace_mem_leaves hq hleaf hnz
    have hnotInner := not_mem_rootInner_of_leaf h.nodup_inodeBlocks hleafMem
    have hneInd : fs.blockAtPlace inode k q ≠ ind := fun he => hnotInner (he ▸ hinner)
    rw [← hpage _ (h.leaf_mem hleafMem)]
    exact update_of_ne hneInd ..

end

variable (h : Owns fs inode) (hio : fs.PagesAvailable) (hdev : inode.isDevice = false)
include h hio hdev

theorem ext2BmapSlot_fills (hslot : slot < nBlocks) {create : Bool}
    (hrun : ext2BmapSlot fs inode slot create = (ret, fs', inode')) :
    Fills slot [] fs inode fs' inode' ∧ ∀ b, ret = .ok b → fs'.blockAtPlace inode' slot [] = b := by
  rcases ext2BmapSlot_cases hio hdev hrun with
    ⟨ha, rfl, rfl⟩ | ⟨block, fs1, hblock, ha, hnull, hquiet, rfl, hret⟩
  · exact ⟨.of_none h ha slot [] (isPlace_slot hslot), fun b hb => by cases hb; rfl⟩
  · refine ⟨(Fills.attach_slot h ha hblock hslot hnull).quiet hquiet, fun b hb => ?_⟩
    rcases hret with rfl | ⟨e, rfl⟩
    · cases hb
      exact update_self ..
    · cases hb

theorem ext2IndBmap_fills {ind : Nat} (hplace : IsPlace slot (path ++ [index]))
    (hind : fs.blockAtPlace inode slot path = ind) {create : Bool}
    (hrun : ext2IndBmap fs inode ind index create = (ret, fs', inode')) :
    Fills slot (path ++ [index]) fs inode fs' inode' ∧
      ∀ b, ret = .ok b → fs'.blockAtPlace inode' slot (path ++ [index]) = b := by
  have hpart : fs.blockAtPlace inode slot (path ++ [index]) =
      if ind = 0 then 0 else fs.word ind index := by
    rw [blockAtPlace, nodeAt_append, ← blockAtPlace, hind]
  have hindex : index < ptrsPerBlock := hplace.isPath.2 index (by simp)
  have hpath : IsPlace slot path ∧ path.length < slotDepth slot := by
    obtain ⟨hlt, hlen, hmem⟩ := hplace
    rw [List.length_append] at hlen
    exact ⟨⟨hlt, by omega, fun i hi => hmem i (List.mem_append_left _ hi)⟩, hlen⟩
  rcases ext2IndBmap_cases hio hdev hrun with
    ⟨ha, rfl, rfl⟩ | ⟨block, fs1, hblock, ha, hzero, hnull, hquiet, rfl, hret⟩
  · have hfills := Fills.of_none h ha slot _ hplace
    refine ⟨hfills, fun b hb => ?_⟩
    cases hb
    rcases hfills.here with hhere | ⟨hwas, hunused, -⟩
    · rw [hhere, hpart]
    · rw [← hpart, blockAtPlace_congr hplace rfl fun n hn => ha.page n (h.used n (h.inner_mem hn))]
  · have hfills := Fills.attach_word h ha hblock hpath.1 hpath.2 hind hzero hindex hnull
    refine ⟨hfills.quiet hquiet, fun b hb => ?_⟩
    rcases hret with rfl | ⟨e, rfl⟩
    · cases hb
      have hused := (ha.fresh hblock).2.1
      have hword := word_setWord fs1 ind index (hused.1.2.1.trans fs1.sb.blocksCount_lt)
      have hind' : fs'.blockAtPlace (inode.withBlock block) slot path = ind := by
        rw [← hind]
        refine (hfills.quiet hquiet).other slot path hpath.1 fun he => ?_
        simpa using congrArg List.length he.2
      rw [blockAtPlace, nodeAt_append, ← blockAtPlace, hind', if_neg hzero,
        word_congr (congrFun hquiet.page ind), hword, link_self]
    · cases hb

end Fills

/-! ## The blocks of a file -/

/-- What `ext2_bmap` for part `index` does to the parts of the file. -/
structure Maps (index : Nat) (fs : Volume) (inode : Inode) (fs' : Volume) (inode' : Inode) :
    Prop extends BmapStep fs inode fs' inode' where
  iSize : inode'.iSize = inode.iSize
  other : ∀ j, j ≠ index → fs'.blockAt inode' j = fs.blockAt inode j
  here : fs'.blockAt inode' index = fs.blockAt inode index ∨
    fs.blockAt inode index = 0 ∧ ¬ fs.BlockUsed (fs'.blockAt inode' index) ∧
      fs'.page (fs'.blockAt inode' index) = fun _ => 0
  data : ∀ j, fs.blockAt inode j ≠ 0 →
    fs'.page (fs.blockAt inode j) = fs.page (fs.blockAt inode j)

section Maps

variable {fs fs1 fs' : Volume} {inode inode1 inode' : Inode} {slot : Nat} {path : List Nat}

theorem blockAt_of_place (h : blockPlace index = some (slot, path)) (fs : Volume)
    (inode : Inode) : fs.blockAt inode index = fs.blockAtPlace inode slot path := by
  rw [blockAt, h]

theorem blockAt_cases (fs : Volume) (inode : Inode) (index : Nat) :
    (blockPlace index = none ∧ fs.blockAt inode index = 0) ∨
      ∃ slot path, blockPlace index = some (slot, path) ∧
        fs.blockAt inode index = fs.blockAtPlace inode slot path := by
  cases hplace : blockPlace index with
  | none => exact .inl ⟨rfl, by rw [blockAt, hplace]⟩
  | some place => exact .inr ⟨place.1, place.2, rfl, blockAt_of_place hplace fs inode⟩

theorem blockAt_mem_leaves (hne : fs.blockAt inode index ≠ 0) :
    fs.blockAt inode index ∈ fs.inodeLeaves inode := by
  rcases blockAt_cases fs inode index with ⟨-, hzero⟩ | ⟨slot, path, hplace, heq⟩
  · exact absurd hzero hne
  · obtain ⟨hvalid, hlen⟩ := blockPlace_isPlace hplace
    rw [heq] at hne ⊢
    exact blockAtPlace_mem_leaves hvalid hlen hne

theorem mem_leaves_of_blockAt {b : Nat} (h : fs.blockAt inode index = b) (hne : b ≠ 0) :
    b ∈ fs.inodeLeaves inode := by
  subst h
  exact blockAt_mem_leaves hne

/-- Two parts of a file have different blocks. -/
theorem blockAt_inj (h : Owns fs inode) {i j : Nat} (hne : fs.blockAt inode i ≠ 0)
    (heq : fs.blockAt inode i = fs.blockAt inode j) : i = j := by
  rcases blockAt_cases fs inode i with ⟨-, hzero⟩ | ⟨slot, path, hi, hival⟩
  · exact absurd hzero hne
  rcases blockAt_cases fs inode j with ⟨-, hzero⟩ | ⟨slot', path', hj, hjval⟩
  · exact absurd (heq.trans hzero) hne
  rw [hival] at hne heq
  rw [hjval] at heq
  obtain ⟨rfl, rfl⟩ := blockAtPlace_inj h (blockPlace_isPlace hi).1 (blockPlace_isPlace hj).1
    hne heq
  exact blockPlace_inj hi hj

theorem blockAt_congr (hiBlock : inode'.iBlock = inode.iBlock)
    (hpage : ∀ n ∈ fs.inodeInner inode, fs'.page n = fs.page n) (index : Nat) :
    fs'.blockAt inode' index = fs.blockAt inode index := by
  rcases blockAt_cases fs inode index with ⟨hnone, hzero⟩ | ⟨slot, path, hplace, heq⟩
  · rw [hzero, blockAt, hnone]
  · rw [heq, blockAt_of_place hplace]
    exact blockAtPlace_congr (blockPlace_isPlace hplace).1 (congrFun hiBlock slot) hpage

theorem Volume.Quiet.blockAt (hq : Volume.Quiet fs fs') (inode : Inode) (index : Nat) :
    fs'.blockAt inode index = fs.blockAt inode index :=
  blockAt_congr rfl (fun n _ => congrFun hq.page n) index

/-- Storing data moves no part. -/
theorem Owns.blockAt_setPage (h : Owns fs inode) (hleaf : block ∈ fs.inodeLeaves inode)
    (bytes : Nat → UInt8) (index : Nat) :
    (fs.setPage block bytes).blockAt inode index = fs.blockAt inode index := by
  apply blockAt_congr rfl
  intro n hn
  apply update_of_ne
  rintro rfl
  exact Lib.PtrTree.not_mem_rootInner_of_leaf h.nodup_inodeBlocks hleaf hn

/-- A step at an inner place. -/
theorem Fills.inner (h : Fills slot path fs inode fs' inode') (hlen : path.length < slotDepth slot) :
    (∀ j, fs'.blockAt inode' j = fs.blockAt inode j) ∧ ∀ j, fs.blockAt inode j ≠ 0 →
        fs'.page (fs.blockAt inode j) = fs.page (fs.blockAt inode j) := by
  constructor
  · intro j
    rcases blockAt_cases fs inode j with ⟨hnone, hzero⟩ | ⟨k, q, hplace, heq⟩
    · rw [hzero, blockAt, hnone]
    · obtain ⟨hvalid, hdepth⟩ := blockPlace_isPlace hplace
      rw [heq, blockAt_of_place hplace]
      apply h.other k q hvalid
      rintro ⟨rfl, rfl⟩
      omega
  · intro j hne
    rcases blockAt_cases fs inode j with ⟨-, hzero⟩ | ⟨k, q, hplace, heq⟩
    · exact absurd hzero hne
    · obtain ⟨hvalid, hdepth⟩ := blockPlace_isPlace hplace
      rw [heq] at hne ⊢
      exact h.data k q hvalid hdepth hne

/-- A step at the place of a part. -/
theorem Fills.maps (h : Fills slot path fs inode fs' inode')
    (hplace : blockPlace index = some (slot, path)) : Maps index fs inode fs' inode' where
  toBmapStep := h.toBmapStep
  iSize := h.iSize
  other j hj := by
    rcases blockAt_cases fs inode j with ⟨hnone, hzero⟩ | ⟨k, q, hq, heq⟩
    · rw [hzero, blockAt, hnone]
    · rw [heq, blockAt_of_place hq]
      apply h.other k q (blockPlace_isPlace hq).1
      rintro ⟨rfl, rfl⟩
      exact hj (blockPlace_inj hq hplace)
  here := by
    rw [blockAt_of_place hplace, blockAt_of_place hplace]
    exact h.here
  data j hne := by
    rcases blockAt_cases fs inode j with ⟨-, hzero⟩ | ⟨k, q, hq, heq⟩
    · exact absurd hzero hne
    · obtain ⟨hvalid, hdepth⟩ := blockPlace_isPlace hq
      rw [heq] at hne ⊢
      exact h.data k q hvalid hdepth hne

/-- Steps at inner places come first. -/
theorem Maps.after (hfirst : Fills slot path fs inode fs1 inode1)
    (hlen : path.length < slotDepth slot) (h : Maps index fs1 inode1 fs' inode') :
    Maps index fs inode fs' inode' := by
  obtain ⟨hsame, hdata⟩ := hfirst.inner hlen
  refine ⟨hfirst.toBmapStep.trans h.toBmapStep, h.iSize.trans hfirst.iSize,
    fun j hj => by rw [h.other j hj, hsame], ?_, ?_⟩
  · rw [← hsame index]
    refine h.here.imp id fun hnew => ⟨hnew.1, fun hused => ?_, hnew.2.2⟩
    exact hnew.2.1 (hfirst.keeps _ hused)
  · intro j hne
    have hne1 : fs1.blockAt inode1 j ≠ 0 := by rwa [hsame]
    have hdata1 := h.data j hne1
    rw [hsame] at hdata1
    rw [hdata1, hdata j hne]

theorem Maps.refl (h : Owns fs inode) (index : Nat) : Maps index fs inode fs inode :=
  ⟨.refl h, rfl, fun _ _ => rfl, .inl rfl, fun _ _ => rfl⟩

/-- An inner step that comes to nothing more. -/
theorem Maps.of_inner (h : Fills slot path fs inode fs' inode')
    (hlen : path.length < slotDepth slot) (index : Nat) : Maps index fs inode fs' inode' := by
  obtain ⟨hsame, hdata⟩ := h.inner hlen
  exact ⟨h.toBmapStep, h.iSize, fun j _ => hsame j, .inl (hsame index), hdata⟩

/-- `ext2_bmap` gives part `index` its block and changes no other part. -/
theorem ext2Bmap_maps (h : Owns fs inode) (hio : fs.PagesAvailable)
    (hdev : inode.isDevice = false) {create : Bool}
    (hrun : ext2Bmap fs inode index create = (ret, fs', inode')) :
    Maps index fs inode fs' inode' ∧ ∀ b, ret = .ok b → fs'.blockAt inode' index = b := by
  unfold ext2Bmap at hrun
  split_ifs at hrun with hdirect hsingle hbeyond
  · have hplace : blockPlace index = some (index, []) := by rw [blockPlace, if_pos hdirect]
    obtain ⟨hfills, hret⟩ := ext2BmapSlot_fills h hio hdev (hdirect.trans (by decide)) hrun
    refine ⟨hfills.maps hplace, fun b hb => ?_⟩
    rw [blockAt_of_place hplace, hret b hb]
  · have hplace : blockPlace index = some (indBlock, [] ++ [index - ndirBlocks]) := by
      rw [blockPlace, if_neg hdirect, if_pos hsingle, List.nil_append]
    generalize hroot : ext2BmapSlot fs inode indBlock create = r at hrun
    obtain ⟨ret1, fs1, inode1⟩ := r
    obtain ⟨hfills, hret⟩ := ext2BmapSlot_fills h hio hdev (by decide) hroot
    cases ret1 with
    | error e =>
      cases hrun
      exact ⟨.of_inner hfills (by decide) index, fun b hb => by cases hb⟩
    | ok ind =>
      have hdev1 : inode1.isDevice = false := by rw [Inode.isDevice, hfills.iType]; exact hdev
      obtain ⟨hfills2, hret2⟩ := ext2IndBmap_fills hfills.owns (hfills.pagesAvailable hio) hdev1
        (blockPlace_isPlace hplace).1 (hret ind rfl) hrun
      refine ⟨.after hfills (by decide) (hfills2.maps hplace), fun b hb => ?_⟩
      rw [blockAt_of_place hplace, hret2 b hb]
  · cases hrun
    refine ⟨.refl h index, fun b hb => ?_⟩
    cases hb
    rw [blockAt, blockPlace, if_neg hdirect, if_neg hsingle, if_pos hbeyond]
  · have hplace : blockPlace index = some (dindBlock,
        ([] ++ [(index - ndirBlocks - ptrsPerBlock) / ptrsPerBlock]) ++
          [(index - ndirBlocks - ptrsPerBlock) % ptrsPerBlock]) := by
      rw [blockPlace, if_neg hdirect, if_neg hsingle, if_neg hbeyond]
      rfl
    have hvalid := (blockPlace_isPlace hplace).1
    generalize (index - ndirBlocks - ptrsPerBlock) / ptrsPerBlock = first at hrun hplace hvalid
    have hfirst : IsPlace dindBlock ([] ++ [first]) :=
      ⟨hvalid.slot_lt, Nat.le_succ 1, fun i hi => hvalid.isPath.2 i (List.mem_append_left _ hi)⟩
    generalize hroot : ext2BmapSlot fs inode dindBlock create = r at hrun
    obtain ⟨ret1, fs1, inode1⟩ := r
    obtain ⟨hfills, hret⟩ := ext2BmapSlot_fills h hio hdev (by decide) hroot
    cases ret1 with
    | error e =>
      cases hrun
      exact ⟨.of_inner hfills (by decide) index, fun b hb => by cases hb⟩
    | ok dind =>
      have hdev1 : inode1.isDevice = false := by rw [Inode.isDevice, hfills.iType]; exact hdev
      have hio1 := hfills.pagesAvailable hio
      dsimp only at hrun
      generalize hmid : ext2IndBmap fs1 inode1 dind first create = r at hrun
      obtain ⟨ret2, fs2, inode2⟩ := r
      obtain ⟨hfills2, hret2⟩ := ext2IndBmap_fills hfills.owns hio1 hdev1 hfirst
        (hret dind rfl) hmid
      cases ret2 with
      | error e =>
        cases hrun
        refine ⟨.after hfills (by decide) (.of_inner hfills2 ?_ index), fun b hb => by cases hb⟩
        exact Nat.lt_succ_self 1
      | ok ind =>
        have hdev2 : inode2.isDevice = false := by
          rw [Inode.isDevice, hfills2.iType]
          exact hdev1
        obtain ⟨hfills3, hret3⟩ := ext2IndBmap_fills hfills2.owns
          (hfills2.pagesAvailable hio1) hdev2 hvalid (hret2 ind rfl) hrun
        refine ⟨.after hfills (by decide)
          (.after hfills2 (Nat.lt_succ_self 1) (hfills3.maps hplace)), fun b hb => ?_⟩
        rw [blockAt_of_place hplace, hret3 b hb]

/-- `ext2_bmap_readonly` finds the block of the part, or nothing after a failure. -/
theorem ext2BmapReadonly_spec (fs : Volume) (inode : Inode) (index : Nat) :
    Volume.Quiet fs (ext2BmapReadonly fs inode index).2 ∧
      ((ext2BmapReadonly fs inode index).1 = fs.blockAt inode index ∨
        (ext2BmapReadonly fs inode index).1 = 0 ∧ ¬ fs.PagesAvailable) := by
  unfold ext2BmapReadonly blockAt blockPlace
  split_ifs
  · exact ⟨.refl fs, .inl rfl⟩
  · exact ext2IndBmapReadonly_spec fs _ _
  · exact ⟨.refl fs, .inl rfl⟩
  · generalize (index - ndirBlocks - ptrsPerBlock) / ptrsPerBlock = first
    generalize (index - ndirBlocks - ptrsPerBlock) % ptrsPerBlock = second
    obtain ⟨hquiet, hword⟩ := ext2IndBmapReadonly_spec fs (inode.iBlock dindBlock) first
    generalize ext2IndBmapReadonly fs (inode.iBlock dindBlock) first = r at hquiet hword ⊢
    obtain ⟨ind, fs1⟩ := r
    dsimp only at hquiet hword ⊢
    obtain ⟨hquiet', hlast⟩ := ext2IndBmapReadonly_spec fs1 ind second
    refine ⟨hquiet.trans hquiet', ?_⟩
    rcases hword with hword | ⟨rfl, hfail⟩
    · refine hlast.imp (fun hlast => ?_) fun hnone =>
        ⟨hnone.1, fun hio => hnone.2 (hio.of_answers hquiet.answers)⟩
      rw [hlast, word_congr (congrFun hquiet.page ind), blockAtPlace,
        ← List.singleton_append, nodeAt_append, ← List.nil_append [first], nodeAt_append,
        nodeAt_nil, hword]
    · exact .inr ⟨rfl, hfail⟩

theorem quiet_ext2BmapReadonly (fs : Volume) (inode : Inode) (index : Nat) :
    Volume.Quiet fs (ext2BmapReadonly fs inode index).2 :=
  (ext2BmapReadonly_spec fs inode index).1

theorem ext2BmapReadonly_eq (hio : fs.PagesAvailable) (inode : Inode) (index : Nat) :
    (ext2BmapReadonly fs inode index).1 = fs.blockAt inode index :=
  (ext2BmapReadonly_spec fs inode index).2.resolve_right fun hfail => hfail.2 hio

theorem ext2BmapReadonly_block (hne : (ext2BmapReadonly fs inode index).1 ≠ 0) :
    (ext2BmapReadonly fs inode index).1 = fs.blockAt inode index :=
  (ext2BmapReadonly_spec fs inode index).2.resolve_right fun hfail => hne hfail.1

/-- `page_cache_get_mapping` for writing: the part is mapped, and what follows is a read. -/
theorem pageCacheGetMapping_cases (h : Owns fs inode) (hio : fs.PagesAvailable)
    (hdev : inode.isDevice = false)
    (hrun : pageCacheGetMapping index fs inode = (ret, fs', inode')) :
    ((∃ e, ret = .error e) ∧ fs' = fs ∧ inode' = inode) ∨
      ∃ fs1, Maps index fs inode fs1 inode' ∧ Volume.Quiet fs1 fs' ∧
        ∀ b, ret = .ok b → b ≠ 0 ∧ fs'.blockAt inode' index = b := by
  unfold pageCacheGetMapping at hrun
  split_ifs at hrun with hbig
  · cases hrun
    exact .inl ⟨⟨_, rfl⟩, rfl, rfl⟩
  generalize hbmap : ext2Bmap fs inode index true = r at hrun
  obtain ⟨ret1, fs1, inode1⟩ := r
  obtain ⟨hmaps, hblock⟩ := ext2Bmap_maps h hio hdev hbmap
  cases ret1 with
  | error e =>
    cases hrun
    exact .inr ⟨fs', hmaps, .refl fs', fun b hb => by cases hb⟩
  | ok block =>
    cases block with
    | zero =>
      cases hrun
      exact .inr ⟨fs', hmaps, .refl fs', fun b hb => by cases hb⟩
    | succ block =>
      dsimp only at hrun
      rw [Volume.pageCacheGetBlock, hio.of_answers hmaps.answers] at hrun
      cases hrun
      refine .inr ⟨fs1, hmaps, Volume.quiet_nextTick fs1, fun b hb => ?_⟩
      cases hb
      exact ⟨Nat.succ_ne_zero block, hblock _ rfl⟩

end Maps

end CuteOS.Fs.Ext2
