/-
  Block/Writeback.lean --- what reaches the devices.

  `page_cache_wb_run` picks a run of dirty pages in one pass over the dirty list and
  writes them in one transfer; `page_cache_sync_mapping` and `page_cache_sync_all` repeat
  this.
-/
import CuteOS.Block.CacheOk

set_option autoImplicit false

namespace CuteOS.Block

open Lib Lib.Extent
open Function (update update_self update_of_ne)

/-- The place of a page: the device that is used, and the block on it. -/
def Page.key (page : Page) : Nat × Nat := (major page.dev, page.block)

/-- The bytes of a block on its device. -/
def blockOf (disk : Nat → Nat → UInt8) (k : Nat × Nat) : BlockData :=
  fun i => disk k.1 (k.2 * blockSize + i.val)

namespace Cache

/-! ## Transfers -/

section Transfers

variable {block : Nat}

theorem sectorOf_bytes (hblock : block < 2 ^ 61) :
    sectorOf block * sectorSize = block * blockSize := by
  have hsectors : blockSectors = 8 := rfl
  have hsize : blockSize = 4096 := rfl
  have hsector : sectorSize = 512 := rfl
  have hmod : wordModulus = 2 ^ 64 := rfl
  rw [sectorOf, hsectors, hsize, hsector, Nat.mod_eq_of_lt (by omega)]
  omega

theorem bytes_of_lt (data : BlockData) (i : Fin blockSize) : data.bytes i.val = data i := by
  rw [BlockData.bytes, dif_pos i.isLt]

theorem transfer_spec (s : Cache) (n : Nat) :
    ∃ moved ≤ n, s.transfer n = (s.answers.ioOk s.tick, moved) ∧
      (s.answers.ioOk s.tick = true → moved = n) := by
  rw [transfer]
  cases s.answers.ioOk s.tick with
  | false => exact ⟨_, Nat.min_le_right .., rfl, fun hfalse => by cases hfalse⟩
  | true => exact ⟨n, Nat.le_refl n, rfl, fun _ => rfl⟩

/-- `write_sectors` of `n` blocks.  Other blocks do not change, and a byte of these blocks is
new, or old if the transfer fails. -/
theorem writeSectors_spec (s : Cache) (dev n : Nat) (buf : Nat → UInt8) (hblock : block < 2 ^ 61) :
    ∃ disk, s.writeSectors dev buf (sectorOf block) (n * blockSectors) =
        (s.answers.ioOk s.tick, { s with tick := s.tick + 1, disk := disk }) ∧
      (∀ k : Nat × Nat, (k.1 = major dev → k.2 < block ∨ block + n ≤ k.2) →
        blockOf disk k = blockOf s.disk k) ∧
      ∀ j < n, ∀ i : Fin blockSize,
        blockOf disk (major dev, block + j) i = buf (j * blockSize + i.val) ∨
          s.answers.ioOk s.tick = false ∧
            blockOf disk (major dev, block + j) i = blockOf s.disk (major dev, block + j) i := by
  have hbytes : n * blockSectors * sectorSize = n * blockSize := Nat.mul_assoc ..
  obtain ⟨moved, hle, htransfer, hfull⟩ := s.transfer_spec (n * blockSize)
  rw [writeSectors, hbytes, htransfer, sectorOf_bytes hblock]
  refine ⟨_, rfl, fun k hk => ?_, fun j hj i => ?_⟩
  · funext i
    dsimp only [blockOf]
    by_cases hdev : k.1 = major dev
    · rw [hdev, update_self]
      refine writeAt_out ?_
      rcases hk hdev with hlt | hge
      · have hmul : (k.2 + 1) * blockSize ≤ block * blockSize := Nat.mul_le_mul_right _ hlt
        rw [Nat.succ_mul] at hmul
        omega
      · have hmul : (block + n) * blockSize ≤ k.2 * blockSize := Nat.mul_le_mul_right _ hge
        rw [Nat.add_mul] at hmul
        omega
    · rw [update_of_ne hdev]
  · dsimp only [blockOf]
    rw [update_self]
    have hplace : (block + j) * blockSize + i.val = block * blockSize + (j * blockSize + i.val) := by
      rw [Nat.add_mul]
      omega
    rw [hplace]
    by_cases hlt : j * blockSize + i.val < moved
    · exact .inl (writeAt_in hlt)
    · refine .inr ⟨?_, writeAt_out (.inr (by omega))⟩
      rw [← Bool.not_eq_true]
      intro htrue
      have hmul : (j + 1) * blockSize ≤ n * blockSize := Nat.mul_le_mul_right _ hj
      rw [Nat.succ_mul] at hmul
      rw [hfull htrue] at hlt
      omega

end Transfers

/-! ## The run that is picked -/

variable {i : Nat} {p : Page}

section Picking

variable {s : Cache} {id : Nat} {start : Page} {scope : Option Mapping}

/-- The pages of a run: dirty, in scope, and on consecutive blocks from `start` on. -/
structure Picked (s : Cache) (scope : Option Mapping) (start : Page) (ids : List Nat) : Prop where
  page : ∀ k i, ids[k]? = some i → ∃ p, s.page i = some p ∧ p.dirty = true ∧ p.dev = start.dev ∧
    p.block = start.block + k ∧ s.pageCacheHasMapping i scope = true

section

variable {ids : List Nat} (h : Picked s scope start ids)
include h

theorem Picked.append (hpage : s.page i = some p) (hdirty : p.dirty = true)
    (hdev : p.dev = start.dev) (hblock : p.block = start.block + ids.length)
    (hscope : s.pageCacheHasMapping i scope = true) : Picked s scope start (ids ++ [i]) := by
  constructor
  intro k j hj
  rcases Nat.lt_trichotomy k ids.length with hlt | heq | hgt
  · rw [List.getElem?_append_left hlt] at hj
    exact h.page k j hj
  · rw [heq, List.getElem?_concat_length] at hj
    cases hj
    exact ⟨p, hpage, hdirty, hdev, by rw [hblock, heq], hscope⟩
  · rw [List.getElem?_eq_none (by rw [List.length_append, List.length_singleton]; omega)] at hj
    cases hj

theorem Picked.mem (hi : i ∈ ids) :
    ∃ p, s.page i = some p ∧ p.dirty = true ∧ s.pageCacheHasMapping i scope = true := by
  obtain ⟨k, hk⟩ := List.getElem?_of_mem hi
  obtain ⟨p, hp, hdirty, -, -, hscope⟩ := h.page k i hk
  exact ⟨p, hp, hdirty, hscope⟩

end

theorem wbPick_spec (hok : Ok s) (hstart : start.Fit) (list picked : List Nat)
    (hlist : ∀ i ∈ list, i ∈ s.dirtyList) (h : Picked s scope start picked)
    (hmem : id ∈ picked) :
    Picked s scope start (s.pageCacheWbPick scope id start list picked) ∧
      id ∈ s.pageCacheWbPick scope id start list picked := by
  induction list generalizing picked with
  | nil => exact ⟨h, hmem⟩
  | cons next rest ih =>
    have hrest : ∀ i ∈ rest, i ∈ s.dirtyList := fun i hi => hlist i (List.mem_cons_of_mem _ hi)
    obtain ⟨p, hp, hdirty⟩ := (hok.dirtyListed next).mp (hlist next List.mem_cons_self)
    rw [pageCacheWbPick, hp]
    dsimp only
    split_ifs with hskip
    · exact ih picked hrest h hmem
    · push Not at hskip
      obtain ⟨hmax, -, -, hdev, hblock, -, hscope⟩ := hskip
      have hsmall : (start.block + picked.length) % wordModulus = start.block + picked.length := by
        have hfit := hstart.block
        have hmod : wordModulus = 2 ^ 64 := rfl
        have hlimit : pageCacheWbMax = 32 := rfl
        exact Nat.mod_eq_of_lt (by omega)
      rw [hsmall] at hblock
      exact ih _ hrest (h.append hp hdirty hdev hblock (by simpa using hscope))
        (List.mem_append_left _ hmem)

end Picking

/-! ## One run -/

section Running

variable {s s' : Cache} {id : Nat} {start : Page} {scope : Option Mapping} {ids : List Nat}

/-- The pages `ids` are changed. -/
def mapPages (pages : Nat → Option Page) (ids : List Nat) (change : Page → Page) :
    Nat → Option Page :=
  fun i => if i ∈ ids then (pages i).map change else pages i

theorem mapPages_cons (pages : Nat → Option Page) (i : Nat) (ids : List Nat)
    {change : Page → Page} (hidem : ∀ p, change (change p) = change p) :
    mapPages (mapPages pages [i] change) ids change = mapPages pages (i :: ids) change := by
  funext j
  simp only [mapPages]
  by_cases hi : j = i
  · simp [hi, Function.comp_def, hidem]
  · simp [hi]

theorem modify_eq_mapPages (s : Cache) (id : Nat) (change : Page → Page) :
    s.modify id change = { s with page := mapPages s.page [id] change } := by
  have hpages : (s.modify id change).page = mapPages s.page [id] change := by
    funext i
    rw [modify]
    cases hpage : s.page id with
    | none =>
      dsimp only [mapPages]
      split_ifs with hi
      · rw [List.mem_singleton.mp hi, hpage]
        rfl
      · rfl
    | some page =>
      dsimp only [mapPages, setPage]
      split_ifs with hi
      · rw [List.mem_singleton.mp hi, hpage, update_self]
        rfl
      · exact update_of_ne (fun heq => hi (List.mem_singleton.mpr heq)) ..
  rw [← hpages, modify]
  split <;> rfl

theorem setWriteback_eq (s : Cache) (ids : List Nat) (writeback : Bool) :
    s.setWriteback ids writeback =
      { s with page := mapPages s.page ids (Page.setWriteback writeback) } := by
  induction ids generalizing s with
  | nil => rfl
  | cons i ids ih =>
    change (s.modify i _).setWriteback ids writeback = _
    rw [ih, modify_eq_mapPages]
    rw [@mapPages_cons s.page i ids (Page.setWriteback writeback) fun _ => rfl]

theorem clearDirty_fold (s : Cache) (ids : List Nat) : ids.foldl pageCacheClearDirty s = { s with
        page := mapPages s.page ids Page.clean
        dirtyList := s.dirtyList.filter (· ∉ ids) } := by
  induction ids generalizing s with
  | nil =>
    have hall : s.dirtyList.filter (· ∉ []) = s.dirtyList := by simp
    rw [hall]
    rfl
  | cons i ids ih =>
    have hfilter : (s.dirtyList.filter (· ≠ i)).filter (· ∉ ids) =
        s.dirtyList.filter (· ∉ i :: ids) := by
      rw [List.filter_filter]
      refine List.filter_congr fun j _ => ?_
      simp only [List.mem_cons, not_or, Bool.decide_and]
      exact Bool.and_comm ..
    rw [List.foldl_cons, ih, pageCacheClearDirty, modify_eq_mapPages, ← hfilter]
    rw [@mapPages_cons s.page i ids Page.clean fun _ => rfl]

/-- Pages that are not under writeback are as before when it is over. -/
theorem setWriteback_back (hidle : ∀ i ∈ ids, ∀ page, s.page i = some page → page.writeback = false) :
    mapPages (mapPages s.page ids (Page.setWriteback true)) ids (Page.setWriteback false) =
      s.page := by
  funext i
  simp only [mapPages]
  split_ifs with hi
  · cases hpage : s.page i with
    | none => rfl
    | some page =>
      have hpage' := hidle i hi page hpage
      simp only [Option.map_some, Page.setWriteback]
      rw [← hpage']
  · rfl

/-- The devices after the pages `ids` have been written, or some of their bytes. -/
structure Reached (s : Cache) (ids : List Nat) (all : Bool) (disk : Nat → Nat → UInt8) : Prop where
  mine : ∀ i ∈ ids, ∀ p, s.page i = some p → ∀ x,
    blockOf disk p.key x = p.data x ∨
      all = false ∧ blockOf disk p.key x = blockOf s.disk p.key x
  other : ∀ k, (∀ i ∈ ids, ∀ p, s.page i = some p → p.key ≠ k) → blockOf disk k = blockOf s.disk k

variable {disk : Nat → Nat → UInt8}

/-- A page that has been written is on its device. -/
theorem Reached.all (h : Reached s ids true disk) (hi : i ∈ ids) (hp : s.page i = some p) :
    blockOf disk p.key = p.data := by
  funext x
  rcases h.mine i hi p hp x with hbyte | ⟨hfalse, -⟩
  · exact hbyte
  · cases hfalse

theorem Reached.nothing (s : Cache) : Reached s [] false s.disk :=
  ⟨fun _ hi => (by cases hi), fun _ _ => rfl⟩

/-- Nothing keeps a page of device `dev` from being written. -/
structure Works (s : Cache) (dev : Nat) : Prop where
  buffer : s.wbBuf ≠ none ∧ s.wbPages ≠ 0
  device : s.lookupBlockDevice dev = true
  transfers : ∀ t, s.answers.ioOk t = true

variable {t : Cache}

/-- The transfer of a run writes each page to its own block. -/
theorem Picked.reached (hstart : start.Fit) (h : Picked s scope start ids) (buf : Nat → UInt8)
    (hdisk : t.disk = s.disk) :
    ∃ disk, t.writeSectors start.dev (pack blockSize (s.dataOf ids) 0 buf) (sectorOf start.block)
        (ids.length * blockSectors) =
          (t.answers.ioOk t.tick, { t with tick := t.tick + 1, disk := disk }) ∧
      Reached s ids (t.answers.ioOk t.tick) disk := by
  obtain ⟨disk, hrun, hother, hmine⟩ := t.writeSectors_spec start.dev ids.length
    (pack blockSize (s.dataOf ids) 0 buf) hstart.block
  rw [hdisk] at hother hmine
  refine ⟨disk, hrun, fun i hi p hp x => ?_, fun k hk => hother k fun hdev => ?_⟩
  · obtain ⟨j, hj⟩ := List.getElem?_of_mem hi
    obtain ⟨p', hp', -, hdev, hblock, -⟩ := h.page j i hj
    rw [hp] at hp'
    cases hp'
    have hlt : j < ids.length := (List.getElem?_eq_some_iff.mp hj).1
    have hpiece : (s.dataOf ids)[j]? = some p.data.bytes := by
      rw [dataOf, List.getElem?_map, hj, Option.map_some, hp]
    have hpack := @pack_at _ _ (s.dataOf ids) 0 buf j x.val _ hpiece x.isLt
    rw [Nat.zero_add, bytes_of_lt] at hpack
    have hbyte := hmine j hlt x
    rw [hpack] at hbyte
    rw [Page.key, hdev, hblock]
    exact hbyte
  · by_contra hin
    push Not at hin
    obtain ⟨i, hi⟩ : ∃ i, ids[k.2 - start.block]? = some i :=
      ⟨_, List.getElem?_eq_getElem (by omega)⟩
    obtain ⟨p, hp, -, hpdev, hpblock, -⟩ := h.page _ i hi
    refine hk i (List.mem_of_getElem? hi) p hp ?_
    rw [Page.key, hpdev, hpblock, ← hdev, Nat.add_sub_cancel' hin.1]

/-- What may come of `page_cache_wb_run` from page `id` on: the run `ids` has been written and is
clean, or some of its bytes have been written. -/
def Wrote (s : Cache) (scope : Option Mapping) (id : Nat) (start : Page)
    (r : Except Errno Unit × Cache) : Prop :=
  ∃ ids disk tick buf, Picked s scope start ids ∧ (s.wbBuf ≠ none → buf ≠ none) ∧
    ((∃ e, r = (.error e, { s with disk := disk, tick := tick, wbBuf := buf }) ∧
        ¬ Works s start.dev ∧ Reached s ids false disk) ∨
      (r = (.ok (), ids.foldl pageCacheClearDirty
          { s with disk := disk, tick := tick, wbBuf := buf }) ∧
        id ∈ ids ∧ Reached s ids true disk))

theorem Wrote.nothing {e : Errno} (hworks : ¬ Works s start.dev) :
    Wrote s scope id start (.error e, s) :=
  ⟨[], s.disk, s.tick, s.wbBuf, ⟨fun k i hi => (by cases hi)⟩, fun hbuf => hbuf,
    .inl ⟨e, rfl, hworks, .nothing s⟩⟩

theorem dataOf_setWriteback (s : Cache) (ids : List Nat) (writeback : Bool) :
    dataOf { s with page := mapPages s.page ids (Page.setWriteback writeback) } ids =
      s.dataOf ids := by
  refine List.map_congr_left fun i hi => ?_
  dsimp only [mapPages]
  rw [if_pos hi]
  cases s.page i <;> rfl

theorem wbRun_spec (hok : Ok s) (hpage : s.page id = some start) (hdirty : start.dirty = true)
    (hscope : s.pageCacheHasMapping id scope = true) :
    Wrote s scope id start (s.pageCacheWbRun id scope) := by
  have hfit := hok.fit id start hpage
  rw [pageCacheWbRun, hpage]
  cases hbuf : s.wbBuf with
  | none => exact .nothing fun hworks => hworks.buffer.1 hbuf
  | some buf =>
    dsimp only
    by_cases hpages : s.wbPages = 0
    · rw [if_pos hpages]
      exact .nothing fun hworks => hworks.buffer.2 hpages
    have hempty : Picked s scope start [] := ⟨fun k i hi => (by cases hi)⟩
    obtain ⟨hpicked, hmem⟩ := wbPick_spec hok hfit s.dirtyList [id] (fun _ hi => hi)
      (hempty.append hpage hdirty rfl rfl hscope) List.mem_cons_self
    have hback := @setWriteback_back s (s.pageCacheWbPick scope id start s.dirtyList [id])
      fun i _ p hp => (hok.fit i p hp).idle
    rw [if_neg hpages, if_neg (by rw [hfit.idle, hdirty]; decide)]
    generalize s.pageCacheWbPick scope id start s.dirtyList [id] = ids at hpicked hmem hback ⊢
    simp only [setWriteback_eq, dataOf_setWriteback]
    split_ifs with hdev
    · rw [hback]
      refine .nothing fun hworks => ?_
      have hfalse : s.lookupBlockDevice start.dev = false := hdev
      rw [hworks.device] at hfalse
      cases hfalse
    · generalize hcopy : pack blockSize (s.dataOf ids) 0 buf = copy
      obtain ⟨disk, hrun, hreached⟩ := @Picked.reached s start scope ids
        { s with page := mapPages s.page ids (Page.setWriteback true), wbBuf := some copy } hfit
        hpicked buf rfl
      rw [hcopy] at hrun
      rw [hrun]
      cases hio : s.answers.ioOk s.tick with
      | false =>
        rw [hio] at hreached
        dsimp only
        rw [hback]
        refine ⟨ids, disk, _, some copy, hpicked, fun _ => Option.some_ne_none copy,
          .inl ⟨_, rfl, fun hworks => ?_, hreached⟩⟩
        rw [hworks.transfers] at hio
        cases hio
      | true =>
        rw [hio] at hreached
        dsimp only
        rw [hback]
        exact ⟨ids, disk, _, some copy, hpicked, fun _ => Option.some_ne_none copy,
          .inr ⟨rfl, hmem, hreached⟩⟩

/-- What is written depends on the places and the data of pages only. -/
theorem Reached.congr {all : Bool} (h : Reached t ids all disk) (hdisk : t.disk = s.disk)
    (hpages : ∀ i, (t.page i).map (fun p => (p.key, p.data)) =
      (s.page i).map fun p => (p.key, p.data)) : Reached s ids all disk := by
  have hsame : ∀ i p, s.page i = some p → ∃ q, t.page i = some q ∧ q.key = p.key ∧ q.data = p.data := by
    intro i p hp
    have hi := hpages i
    rw [hp] at hi
    obtain ⟨q, hq, hboth⟩ := Option.map_eq_some_iff.mp hi
    exact ⟨q, hq, (Prod.mk.inj hboth).1, (Prod.mk.inj hboth).2⟩
  constructor
  · intro i hi p hp x
    obtain ⟨q, hq, hkey, hdata⟩ := hsame i p hp
    have hmine := h.mine i hi q hq x
    rw [hkey, hdata, hdisk] at hmine
    exact hmine
  · intro k hk
    rw [← hdisk]
    refine h.other k fun i hi q hq => ?_
    have hiq := hpages i
    rw [hq, eq_comm] at hiq
    obtain ⟨p, hp, hboth⟩ := Option.map_eq_some_iff.mp hiq
    rw [← (Prod.mk.inj hboth).1]
    exact hk i hi p hp

theorem Ok.clearDirty_fold (hok : Ok s) (ids : List Nat) :
    Ok (ids.foldl pageCacheClearDirty s) := by
  induction ids generalizing s with
  | nil => exact hok
  | cons i ids ih => exact ih (hok.clearDirty i)

/-- Only these fields change when nothing is cleaned. -/
theorem Ok.written (hok : Ok s) (disk : Nat → Nat → UInt8) (tick : Nat)
    (buf : Option (Nat → UInt8)) : Ok { s with disk := disk, tick := tick, wbBuf := buf } :=
  hok.congr rfl (fun _ => Iff.rfl) rfl rfl rfl

/-- A round of the loops: page `id` is held during the run. -/
theorem round_spec (hok : Ok s) (hpage : s.page id = some start) (hdirty : start.dirty = true)
    (hscope : s.pageCacheHasMapping id scope = true) {r : Except Errno Unit × Cache}
    (hr : (s.hold id).pageCacheWbRun id scope = r) :
    Wrote s scope id start (r.1, r.2.pageCachePutPage id) := by
  have hheld : s.hold id = s.setPage id { start with refcount := start.refcount + 1 } :=
    modify_eq hpage _
  have hself := hold_self hpage
  have hother : ∀ i, i ≠ id → (s.hold id).page i = s.page i := by
    intro i hi
    rw [hheld]
    exact page_ne rfl hi
  have hhold := hok.hold hpage
  obtain ⟨ids, disk, tick, buf, hpicked, hbuf, hcases⟩ := @wbRun_spec _ id _ scope hhold hself hdirty
    (by rw [hheld]; exact hscope)
  rw [hr] at hcases
  have hpicked' : Picked s scope start ids := by
    constructor
    intro k i hi
    obtain ⟨p, hp, hrest⟩ := hpicked.page k i hi
    rw [hheld] at hrest
    by_cases hne : i = id
    · subst hne
      rw [hself] at hp
      cases hp
      exact ⟨start, hpage, hrest⟩
    · exact ⟨p, (hother i hne).symm.trans hp, hrest⟩
  have hpages : ∀ i, ((s.hold id).page i).map (fun p => (p.key, p.data)) =
      (s.page i).map fun p => (p.key, p.data) := by
    intro i
    by_cases hne : i = id
    · rw [hne, hself, hpage]
      rfl
    · rw [hother i hne]
  have hdisk : (s.hold id).disk = s.disk := by rw [hheld]; rfl
  rw [hheld] at hbuf
  refine ⟨ids, disk, tick, buf, hpicked', hbuf, ?_⟩
  rcases hcases with ⟨e, rfl, hworks, hreached⟩ | ⟨rfl, hmem, hreached⟩
  · refine .inl ⟨e, ?_, fun hworks' => hworks ?_, hreached.congr hdisk hpages⟩
    · rw [(hhold.written disk tick buf).putPage_eq hself, hheld]
      exact congrArg (fun pages => (Except.error e,
        { s with page := pages, disk := disk, tick := tick, wbBuf := buf }))
        (setPage_restore hpage _)
    · rw [hheld]
      exact ⟨hworks'.buffer, hworks'.device, hworks'.transfers⟩
  · refine .inr ⟨?_, hmem, hreached.congr hdisk hpages⟩
    have hput := (hhold.written disk tick buf).clearDirty_fold ids
    have hclean : (mapPages (s.hold id).page ids Page.clean) id =
        some { start with refcount := start.refcount + 1, dirty := false } := by
      rw [mapPages, if_pos hmem, hself]
      rfl
    rw [clearDirty_fold] at hput ⊢
    rw [hput.putPage_eq hclean, clearDirty_fold, hheld]
    have hmap : update (mapPages (update s.page id
        (some { start with refcount := start.refcount + 1 })) ids Page.clean) id (some start.clean) =
        mapPages s.page ids Page.clean := by
      funext i
      by_cases hne : i = id
      · rw [hne, update_self, mapPages, if_pos hmem, hpage]
        rfl
      · rw [update_of_ne hne, mapPages, mapPages, update_of_ne hne]
    exact congrArg (fun pages => (Except.ok (), { s with
        page := pages
        dirtyList := s.dirtyList.filter (· ∉ ids)
        disk := disk
        tick := tick
        wbBuf := buf })) hmap

end Running

end Cache

end CuteOS.Block
