/-
  Block/PageCache.lean --- the page cache.

  Sources: `block/page_cache.c`, `block/page_cache_alias.c`, `block/page_cache_dirty.c`,
  `block/page_cache_writeback.c`, `block/blkdev.c`.

  One hart runs the kernel, transfers are polled and no call is interrupted by another
  one, so a call is one step.  Pages are known by their addresses.  The hash table has the
  pages that the list by last use has, and a search of it is a search of that list.
  References are held by page-table entries and by stack frames, so that `refcount` does
  not overflow.  `page_cache_init_once` has been called.
-/
import CuteOS.Kernel.Types
import CuteOS.Lib.Extent

set_option autoImplicit false

namespace CuteOS.Block

open Lib

/-- `BLOCK_SIZE`. -/
def blockSize : Nat := 4096

/-- `SECTOR_SIZE`. -/
def sectorSize : Nat := 512

/-- `BLOCK_SECTORS`. -/
def blockSectors : Nat := blockSize / sectorSize

/-- `PAGE_CACHE_NR_PAGES`. -/
def pageCacheNrPages : Nat := 512

/-- `PAGE_CACHE_WB_MAX`. -/
def pageCacheWbMax : Nat := 32

/-- `NR_BLOCK_DEVICES`. -/
def nrBlockDevices : Nat := 32

/-- `MAJOR`. -/
def major (dev : Nat) : Nat := dev / 2 ^ 20

/-- The bytes of a block. -/
abbrev BlockData := Fin blockSize → UInt8

/-- The bytes of a block in memory; nobody looks behind its end. -/
def BlockData.bytes (data : BlockData) : Nat → UInt8 :=
  fun i => if h : i < blockSize then data ⟨i, h⟩ else 0

/-- `struct page_cache`. -/
structure Page where
  dev : Nat
  block : Nat
  data : BlockData
  refcount : Nat
  uptodate : Bool
  dirty : Bool
  writeback : Bool
  dropped : Bool

/-- `page->writeback = writeback`. -/
def Page.setWriteback (writeback : Bool) (page : Page) : Page := { page with writeback := writeback }

/-- `page->dirty = false`. -/
def Page.clean (page : Page) : Page := { page with dirty := false }

/-- `struct page_mapping`, one for every `host`. -/
structure Mapping where
  host : Nat
  dev : Nat
  deriving DecidableEq

/-- `struct page_cache_assoc`. -/
structure Assoc where
  mapping : Mapping
  index : Nat
  page : Nat

/-- What the allocator and the devices answer.  A transfer that fails may have moved some
bytes. -/
structure Answers where
  memOk : Nat → Bool
  ioOk : Nat → Bool
  ioPart : Nat → Nat

/-- The page cache and the block devices below it.  `devTable` has the devices that are
registered, and `disk` has their bytes. -/
structure Cache where
  page : Nat → Option Page
  fresh : Nat
  lru : List Nat
  dirtyList : List Nat
  associations : List Assoc
  pages : Nat
  wbBuf : Option (Nat → UInt8)
  wbPages : Nat
  devTable : Nat → Bool
  disk : Nat → Nat → UInt8
  answers : Answers
  tick : Nat

namespace Cache

/-! ## Pages and lists -/

def setPage (s : Cache) (id : Nat) (page : Page) : Cache :=
  { s with page := Function.update s.page id (some page) }

/-- Change page `id`. -/
def modify (s : Cache) (id : Nat) (change : Page → Page) : Cache :=
  match s.page id with
  | none => s
  | some page => s.setPage id (change page)

/-- `kmalloc` or `get_free_page`. -/
def kmalloc (s : Cache) : Bool × Cache := (s.answers.memOk s.tick, { s with tick := s.tick + 1 })

/-- `page_cache_find`. -/
def pageCacheFind (s : Cache) (dev block : Nat) : Option Nat :=
  s.lru.find? fun id =>
    match s.page id with
    | none => false
    | some page => page.dev == dev && page.block == block

/-- `page_cache_clear_dirty_locked`. -/
def pageCacheClearDirty (s : Cache) (id : Nat) : Cache :=
  { s with dirtyList := s.dirtyList.filter (· ≠ id) }.modify id Page.clean

/-- `page_cache_mark_dirty`. -/
def pageCacheMarkDirty (s : Cache) (id : Nat) : Cache :=
  match s.page id with
  | none => s
  | some page =>
    { s with dirtyList := if page.dirty then s.dirtyList else s.dirtyList ++ [id] }.setPage id
      { page with dirty := true, uptodate := true }

/-- `page->refcount++`. -/
def hold (s : Cache) (id : Nat) : Cache :=
  s.modify id fun page => { page with refcount := page.refcount + 1 }

/-- `list_move_tail` of the node for the last use. -/
def touch (s : Cache) (id : Nat) : Cache := { s with lru := s.lru.filter (· ≠ id) ++ [id] }

/-- `page_cache_dirty_any`. -/
def pageCacheDirtyAny (s : Cache) : Option Nat × Cache :=
  match s.dirtyList with
  | [] => (none, s)
  | id :: _ => (some id, s.hold id)

/-- `page_cache_free_page`, with `page_cache_assoc_remove_page_locked`. -/
def pageCacheFreePage (s : Cache) (id : Nat) : Cache :=
  { s.pageCacheClearDirty id with
    page := Function.update s.page id none
    associations := s.associations.filter (·.page ≠ id)
    lru := s.lru.filter (· ≠ id)
    pages := s.pages - 1 }

/-- `page_cache_put_page`, called with a reference (`BUG_ON(page->refcount == 0)`). -/
def pageCachePutPage (s : Cache) (id : Nat) : Cache :=
  match s.page id with
  | none => s
  | some page =>
    let s := s.setPage id { page with refcount := page.refcount - 1 }
    if page.refcount - 1 = 0 ∧ page.dropped = true then s.pageCacheFreePage id else s

/-! ## Transfers -/

/-- `lookup_block_device`, and that the device has the operations. -/
def lookupBlockDevice (s : Cache) (dev : Nat) : Bool :=
  decide (major dev < nrBlockDevices) && s.devTable (major dev)

/-- How many of `n` bytes the next transfer moves, and whether it succeeds. -/
def transfer (s : Cache) (n : Nat) : Bool × Nat :=
  if s.answers.ioOk s.tick then (true, n) else (false, min (s.answers.ioPart s.tick) n)

/-- `page->block * BLOCK_SECTORS`, as a `uint64_t`. -/
def sectorOf (block : Nat) : Nat := block * blockSectors % wordModulus

/-- `write_sectors` of a device. -/
def writeSectors (s : Cache) (dev : Nat) (buf : Nat → UInt8) (sector nsec : Nat) : Bool × Cache :=
  match s.transfer (nsec * sectorSize) with
  | (ok, n) =>
    (ok, { s with
      tick := s.tick + 1
      disk := Function.update s.disk (major dev)
        (Extent.writeAt (s.disk (major dev)) (sector * sectorSize) n buf) })

/-- `page_cache_read_physical`. -/
def pageCacheReadPhysical (s : Cache) (id : Nat) : Except Errno Unit × Cache :=
  match s.page id with
  | none => (.error .einval, s)
  | some page =>
    if s.lookupBlockDevice page.dev = false then (.error .enxio, s)
    else
      match s.transfer (blockSectors * sectorSize) with
      | (ok, n) =>
        let data : BlockData := fun i =>
          if i.val < n then s.disk (major page.dev) (sectorOf page.block * sectorSize + i.val)
          else page.data i
        let s := { s with tick := s.tick + 1 }
        if ok then (.ok (), s.setPage id { page with data := data, uptodate := true })
        else (.error .eio, s.setPage id { page with data := data })

/-- `page_cache_write_physical`. -/
def pageCacheWritePhysical (s : Cache) (id : Nat) : Except Errno Unit × Cache :=
  match s.page id with
  | none => (.error .einval, s)
  | some page =>
    if s.lookupBlockDevice page.dev = false then (.error .enxio, s)
    else
      match s.writeSectors page.dev page.data.bytes (sectorOf page.block) blockSectors with
      | (true, s) => (.ok (), s)
      | (false, s) => (.error .eio, s)

/-- `page_cache_sync_page`. -/
def pageCacheSyncPage (s : Cache) (id : Nat) : Except Errno Unit × Cache :=
  match s.page id with
  | none => (.error .einval, s)
  | some page =>
    if page.writeback then (.error .ebusy, s)
    else
      match (s.modify id (Page.setWriteback true)).pageCacheWritePhysical id with
      | (.error e, s) => (.error e, s.modify id (Page.setWriteback false))
      | (.ok (), s) => (.ok (), (s.modify id (Page.setWriteback false)).pageCacheClearDirty id)

/-! ## References -/

/-- `page_cache_evict_one`. -/
def pageCacheEvictOne (s : Cache) : Bool × Cache :=
  match s.lru.find? fun id =>
    match s.page id with
    | none => false
    | some page => page.refcount == 0 && !page.dirty && !page.writeback with
  | none => (false, s)
  | some id => (true, s.pageCacheFreePage id)

/-- A new page, with `memset(page->data, 0, BLOCK_SIZE)`. -/
def newPage (dev block : Nat) : Page :=
  { dev := dev, block := block, data := fun _ => 0, refcount := 0, uptodate := false, dirty := false,
    writeback := false, dropped := false }

/-- The new page in the hash table and in the list. -/
def addPage (s : Cache) (dev block : Nat) : Cache :=
  { s.setPage s.fresh (newPage dev block) with
    fresh := s.fresh + 1
    lru := s.lru ++ [s.fresh]
    pages := s.pages + 1 }

/-- `page_cache_alloc`. -/
def pageCacheAlloc (s : Cache) (dev block : Nat) : Option Nat × Cache :=
  match if s.pages ≥ pageCacheNrPages then s.pageCacheEvictOne else (true, s) with
  | (false, s) => (none, s)
  | (true, s) =>
    match s.kmalloc with
    | (false, s) => (none, s)
    | (true, s) =>
      match s.kmalloc with
      | (false, s) => (none, s)
      | (true, s) =>
        (some s.fresh, s.addPage dev block)

/-- Read the page first if this is asked for and if it is not up to date. -/
def pageCacheReady (s : Cache) (id : Nat) (read : Bool) : Except Errno Nat × Cache :=
  match s.page id with
  | none => (.error .einval, s)
  | some page =>
    if read && !page.uptodate then
      match s.pageCacheReadPhysical id with
      | (.error e, s) => (.error e, s.pageCachePutPage id)
      | (.ok (), s) => (.ok id, s)
    else (.ok id, s)

/-- A round of `page_cache_get`; `retry` is what it does if there is no room for a page. -/
def pageCacheGetRound (dev block : Nat) (read create : Bool)
    (retry : Cache → Except Errno Nat × Cache) (s : Cache) : Except Errno Nat × Cache :=
  match s.pageCacheFind dev block with
  | some id => ((s.hold id).touch id).pageCacheReady id read
  | none =>
    if create = false then (.error .enodata, s)
    else
      match s.pageCacheAlloc dev block with
      | (some id, s) => ((s.hold id).touch id).pageCacheReady id read
      | (none, s) => retry s

/-- The `retry` loop of `page_cache_get`.  Every further round comes after a dirty page has
been cleaned, so that the number of dirty pages bounds their number. -/
def pageCacheGetLoop (dev block : Nat) (read create : Bool) :
    Nat → Cache → Except Errno Nat × Cache
  | 0 => pageCacheGetRound dev block read create fun s => (.error .enomem, s)
  | rounds + 1 =>
    pageCacheGetRound dev block read create fun s =>
      match s.pageCacheDirtyAny with
      | (none, s) => (.error .enomem, s)
      | (some id, s) =>
        match s.pageCacheSyncPage id with
        | (.error e, s) => (.error e, s.pageCachePutPage id)
        | (.ok (), s) =>
          pageCacheGetLoop dev block read create rounds (s.pageCachePutPage id)

/-- `page_cache_get`. -/
def pageCacheGet (s : Cache) (dev block : Nat) (read create : Bool) : Except Errno Nat × Cache :=
  pageCacheGetLoop dev block read create (s.dirtyList.length + 1) s

/-- `page_cache_get_block`. -/
def pageCacheGetBlock (s : Cache) (dev block : Nat) : Except Errno Nat × Cache :=
  s.pageCacheGet dev block true true

/-- `page_cache_find_mapping`. -/
def pageCacheFindMapping (s : Cache) (mapping : Mapping) (index : Nat) : Option Nat × Cache :=
  match s.associations.find? fun assoc => assoc.mapping = mapping ∧ assoc.index = index with
  | none => (none, s)
  | some assoc => (some assoc.page, (s.hold assoc.page).touch assoc.page)

/-- `page_cache_assoc_add`. -/
def pageCacheAssocAdd (s : Cache) (mapping : Mapping) (index id : Nat) :
    Except Errno Unit × Cache :=
  if s.associations.any fun assoc => assoc.mapping = mapping ∧ assoc.index = index then (.ok (), s)
  else
    match s.kmalloc with
    | (false, s) => (.error .enomem, s)
    | (true, s) => (.ok (), { s with associations := s.associations ++ [⟨mapping, index, id⟩] })

/-- `page_cache_get_mapping`; `resolved` is what `mapping->ops->resolve` returns. -/
def pageCacheGetMapping (s : Cache) (mapping : Mapping) (index : Nat) (read create : Bool)
    (resolved : Except Errno Nat) : Except Errno Nat × Cache :=
  match s.pageCacheFindMapping mapping index with
  | (some id, s) => s.pageCacheReady id read
  | (none, s) =>
    match resolved with
    | .error e => (.error e, s)
    | .ok block =>
      match s.pageCacheGet mapping.dev block read (create || read) with
      | (.error e, s) => (.error e, s)
      | (.ok id, s) =>
        match s.pageCacheAssocAdd mapping index id with
        | (.error _, s) => (.error .enomem, s.pageCachePutPage id)
        | (.ok (), s) => (.ok id, s)

/-! ## Writing back -/

/-- `page_cache_has_mapping_locked`. -/
def pageCacheHasMapping (s : Cache) (id : Nat) : Option Mapping → Bool
  | none => true
  | some mapping => s.associations.any fun assoc => assoc.page = id ∧ assoc.mapping = mapping

/-- The pass of `page_cache_wb_run` over the dirty list: the pages that follow `start` on its
device, as far as the list has them in this order. -/
def pageCacheWbPick (s : Cache) (scope : Option Mapping) (id : Nat) (start : Page) :
    List Nat → List Nat → List Nat
  | [], picked => picked
  | next :: rest, picked =>
    match s.page next with
    | none => pageCacheWbPick s scope id start rest picked
    | some page =>
      if picked.length ≥ pageCacheWbMax ∨ picked.length ≥ s.wbPages ∨ next = id ∨
          page.dev ≠ start.dev ∨ page.block ≠ (start.block + picked.length) % wordModulus ∨
          page.writeback = true ∨ s.pageCacheHasMapping next scope = false then
        pageCacheWbPick s scope id start rest picked
      else pageCacheWbPick s scope id start rest (picked ++ [next])

def setWriteback (s : Cache) (ids : List Nat) (writeback : Bool) : Cache :=
  ids.foldl (fun s id => s.modify id (Page.setWriteback writeback)) s

/-- The bytes of the pages `ids`. -/
def dataOf (s : Cache) (ids : List Nat) : List (Nat → UInt8) :=
  ids.map fun id =>
    match s.page id with
    | none => fun _ => 0
    | some page => page.data.bytes

/-- `page_cache_wb_run`. -/
def pageCacheWbRun (s : Cache) (id : Nat) (scope : Option Mapping) : Except Errno Unit × Cache :=
  match s.page id, s.wbBuf with
  | none, _ => (.error .einval, s)
  | some _, none => (.error .enomem, s)
  | some start, some buf =>
    if s.wbPages = 0 then (.error .enomem, s)
    else if start.writeback = true ∨ start.dirty = false then (.error .ebusy, s)
    else
      let ids := s.pageCacheWbPick scope id start s.dirtyList [id]
      let s := s.setWriteback ids true
      if s.lookupBlockDevice start.dev = false then (.error .enxio, s.setWriteback ids false)
      else
        let buf := Extent.pack blockSize (s.dataOf ids) 0 buf
        match { s with wbBuf := some buf }.writeSectors start.dev buf (sectorOf start.block)
          (ids.length * blockSectors) with
        | (false, s) => (.error .eio, s.setWriteback ids false)
        | (true, s) => (.ok (), ids.foldl pageCacheClearDirty (s.setWriteback ids false))

/-- The loop of `page_cache_sync_mapping` and `page_cache_sync_all`, for at most `rounds`
rounds.  `next` is the dirty page with which a round begins. -/
def syncLoop (scope : Option Mapping) (next : Cache → Option Nat) :
    Nat → Cache → Option (Except Errno Unit × Cache)
  | 0, _ => none
  | rounds + 1, s =>
    match next s with
    | none => some (.ok (), s)
    | some id =>
      match (s.hold id).pageCacheWbRun id scope with
      | (.error e, s) => some (.error e, s.pageCachePutPage id)
      | (.ok (), s) => syncLoop scope next rounds (s.pageCachePutPage id)

/-- The first page of the mapping that is dirty. -/
def dirtyOf (mapping : Mapping) (s : Cache) : Option Nat :=
  (s.associations.find? fun assoc =>
    assoc.mapping = mapping ∧ (s.page assoc.page).any (·.dirty) = true).map (·.page)

/-- `page_cache_sync_mapping`. -/
def pageCacheSyncMapping (mapping : Mapping) (rounds : Nat) (s : Cache) :
    Option (Except Errno Unit × Cache) :=
  syncLoop (some mapping) (dirtyOf mapping) rounds s

/-- `page_cache_sync_all`; the first page is that of `page_cache_dirty_any`. -/
def pageCacheSyncAll (rounds : Nat) (s : Cache) : Option (Except Errno Unit × Cache) :=
  syncLoop none (·.dirtyList.head?) rounds s

end Cache

end CuteOS.Block
