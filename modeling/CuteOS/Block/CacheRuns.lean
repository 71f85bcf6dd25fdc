/-
  Block/CacheRuns.lean --- the page cache as a plain store of blocks.

  A run is a list of calls.  The store has, for every block of every device, the last update
  that somebody made, or the bytes that the device had at the beginning.
-/
import CuteOS.Block.CacheSteps

set_option autoImplicit false

namespace CuteOS.Block

open Lib Lib.WriteBack

/-! ## The users of the cache -/

/-- The cache, the references that are held, and the store. -/
structure Client where
  cache : Cache
  refs : List Ref
  store : Nat × Nat → BlockData

/-- The calls.  The mapping of `getMapping` has `block` at `index`, and `fails` is an error of
`resolve`; the calls that `resolve` makes come before.  After `update` the page of the
reference has the bytes `data`. -/
inductive Op where
  | get (dev block : Nat) (read create : Bool)
  | getBlock (dev block : Nat)
  | getMapping (mapping : Mapping) (index block : Nat) (read create : Bool) (fails : Option Errno)
  | update (ref : Ref) (data : BlockData)
  | markDirty (ref : Ref)
  | syncPage (ref : Ref)
  | putPage (ref : Ref)
  | evictOne
  | syncMapping (mapping : Mapping)
  | syncAll

namespace Client

/-- What `resolve` returns. -/
def resolved (block : Nat) : Option Errno → Except Errno Nat
  | none => .ok block
  | some e => .error e

/-- The page that has been got, with a reference. -/
def took (w : Client) : Except Errno Nat × Cache → Option Nat × Client
  | (.error _, s) => (none, { w with cache := s })
  | (.ok id, s) => (some id, { w with cache := s, refs := ⟨id, false⟩ :: w.refs })

/-- The holder of `ref` owes a mark or a write, or nothing any longer. -/
def setOwed (w : Client) (ref : Ref) (owed : Bool) : List Ref :=
  ⟨ref.page, owed⟩ :: w.refs.erase ref

/-- A sync that has ended. -/
def synced (w : Client) : Option (Except Errno Unit × Cache) → Client
  | none => w
  | some (_, s) => { w with cache := s }

/-- A call, and the page that it returns. -/
def exec (w : Client) : Op → Option Nat × Client
  | .get dev block read create => w.took (w.cache.pageCacheGet dev block read create)
  | .getBlock dev block => w.took (w.cache.pageCacheGetBlock dev block)
  | .getMapping mapping index block read create fails =>
    w.took (w.cache.pageCacheGetMapping mapping index read create (resolved block fails))
  | .update ref data =>
    match w.cache.page ref.page with
    | none => (none, w)
    | some page =>
      (none, ⟨w.cache.setPage ref.page { page with data := data }, w.setOwed ref true,
        Function.update w.store page.key data⟩)
  | .markDirty ref =>
    (none, { w with
      cache := w.cache.pageCacheMarkDirty ref.page
      refs := w.setOwed ref false })
  | .syncPage ref =>
    match w.cache.pageCacheSyncPage ref.page with
    | (.error _, s) => (none, { w with cache := s })
    | (.ok (), s) => (none, { w with cache := s, refs := w.setOwed ref false })
  | .putPage ref =>
    (none, { w with
      cache := w.cache.pageCachePutPage ref.page
      refs := w.refs.erase ref })
  | .evictOne => (none, { w with cache := w.cache.pageCacheEvictOne.2 })
  | .syncMapping mapping =>
    (none, w.synced (w.cache.pageCacheSyncMapping mapping (w.cache.dirtyList.length + 1)))
  | .syncAll => (none, w.synced (w.cache.pageCacheSyncAll (w.cache.dirtyList.length + 1)))

/-- The mapping has `block` at `index`, also according to the pages that are associated. -/
def Placed (w : Client) (mapping : Mapping) (index block : Nat) : Prop :=
  ∀ a ∈ w.cache.associations, a.mapping = mapping → a.index = index →
    ∀ p, w.cache.page a.page = some p → p.block = block

/-- A block that a device can have. -/
def Real (dev block : Nat) : Prop := major dev < nrBlockDevices ∧ block < 2 ^ 61

instance (dev block : Nat) : Decidable (Real dev block) := inferInstanceAs (Decidable (_ ∧ _))

/-- The page of `ref` has the flag, or its holder owes a mark or a write. -/
def Ready (w : Client) (ref : Ref) (flag : Page → Bool) : Prop :=
  (∀ page, w.cache.page ref.page = some page → flag page = true) ∨ ref.owed = true

/-- The calls that a caller may make: who updates a page holds it, marks or writes it, and
drops the reference afterwards.  A page that is up to date may be marked, and one that is
dirty written, at any time. -/
def Legal (w : Client) : Op → Prop
  | .get dev block _ _ => Real dev block
  | .getBlock dev block => Real dev block
  | .getMapping mapping index block _ _ _ => Real mapping.dev block ∧ w.Placed mapping index block
  | .update ref _ => ref ∈ w.refs
  | .markDirty ref => ref ∈ w.refs ∧ w.Ready ref Page.uptodate
  | .syncPage ref => ref ∈ w.refs ∧ w.Ready ref Page.dirty
  | .putPage ref => ref ∈ w.refs ∧ ref.owed = false
  | .evictOne => True
  | .syncMapping _ => True
  | .syncAll => True

/-- A device has one number in the cache, and nobody reads a page that is not up to date
between an update of it and the mark. -/
def Careful (w : Client) : Op → Prop
  | .get dev block read _ => w.cache.Careful w.refs dev block read
  | .getBlock dev block => w.cache.Careful w.refs dev block true
  | .getMapping mapping _ block read _ _ => w.cache.Careful w.refs mapping.dev block read
  | _ => True

/-- The block of a call with `PAGE_CACHE_READ`. -/
def Reads : Op → Nat → Nat → Prop
  | .get dev block read _, dev', block' => read = true ∧ dev = dev' ∧ block = block'
  | .getBlock dev block, dev', block' => dev = dev' ∧ block = block'
  | .getMapping mapping _ block read _ _, dev', block' =>
    read = true ∧ mapping.dev = dev' ∧ block = block'
  | _, _, _ => False

/-- An empty cache. -/
structure Start (w : Client) : Prop where
  page : ∀ id, w.cache.page id = none
  lru : w.cache.lru = []
  dirtyList : w.cache.dirtyList = []
  associations : w.cache.associations = []
  refs : w.refs = []
  store : ∀ k, w.store k = blockOf w.cache.disk k

/-- A call for which `P` holds. -/
def Step (P : Client → Op → Prop) (w w' : Client) : Prop := ∃ op, P w op ∧ w' = (w.exec op).2

/-! ## The invariant -/

/-- The cache and the devices together hold the store. -/
def Holds (w : Client) : Prop :=
  ∃ c, w.cache.Shows w.refs c ∧ Coherent c ∧ c.store = w.store

section Lemmas

variable {w w' : Client} {c : Lines}

theorem Start.holds (h : Start w) : Holds w := by
  have hnone : ∀ i p, w.cache.page i ≠ some p := fun i p => by simp [h.page]
  refine ⟨⟨fun _ => none, blockOf w.cache.disk, w.store⟩, ⟨?_, fun i _ p _ hp => (hnone i p hp).elim,
    fun i p hp => (hnone i p hp).elim, fun _ _ => rfl, fun _ => rfl, fun i => ?_⟩,
    ⟨fun k l hline => (by cases hline), fun k _ => (h.store k).symm⟩, rfl⟩
  · refine ⟨fun i => ?_, fun i => ?_, fun i _ p _ hp => (hnone i p hp).elim, fun a ha => ?_,
      fun i p hp => (hnone i p hp).elim, fun i _ => h.page i⟩
    · simp [h.lru, h.page]
    · simp [h.dirtyList, h.page]
    · rw [h.associations] at ha
      cases ha
  · rw [Cache.refcount, h.page, h.refs]
    rfl

theorem Holds.comes {s : Cache} {refs : List Ref} {store : Nat × Nat → BlockData}
    (hcoherent : Coherent c) (hstore : c.store = store) (hcomes : Cache.Comes c s refs) :
    Holds ⟨s, refs, store⟩ := by
  obtain ⟨c', hreach, hstore', hshows⟩ := hcomes
  exact ⟨c', hshows, hcoherent.reaches hreach, hstore'.trans hstore⟩

/-- A page that is returned up to date has the bytes of the store. -/
theorem Holds.uptodate (h : Holds w) {id : Nat} {page : Page} (hpage : w.cache.page id = some page)
    (huptodate : page.uptodate = true) : page.data = w.store page.key := by
  obtain ⟨c, hshows, hcoherent, hstore⟩ := h
  rw [← hstore]
  exact (hcoherent.cached _ _ (hshows.line id page hpage)).known (.inl huptodate)

/-- What a call returns with `PAGE_CACHE_READ`. -/
def Returns (w : Client) (id dev block : Nat) : Prop :=
  ∃ page, w.cache.page id = some page ∧ page.dev = dev ∧ page.block = block ∧
    page.data = w.store (major dev, block)

theorem took_spec (hcoherent : Coherent c) (hstore : c.store = w.store) {dev block : Nat}
    {read : Bool} {r : Except Errno Nat × Cache} (hgets : Cache.Gets c w.refs dev block read r) :
    Holds (w.took r).2 ∧ ∀ id dev' block', read = true ∧ dev = dev' ∧ block = block' →
      (w.took r).1 = some id → Returns (w.took r).2 id dev' block' := by
  obtain ⟨ret, s⟩ := r
  cases ret with
  | error e => exact ⟨.comes hcoherent hstore hgets, fun _ _ _ _ hid => by cases hid⟩
  | ok id =>
    obtain ⟨hcomes, page, hpage, rfl, rfl, huptodate⟩ := hgets
    have hholds : Holds (w.took (.ok id, s)).2 := .comes hcoherent hstore hcomes
    refine ⟨hholds, fun id' _ _ ⟨hread, hdev, hblock⟩ hid => ?_⟩
    cases hid
    subst hdev hblock
    exact ⟨page, hpage, rfl, rfl, hholds.uptodate hpage (huptodate hread)⟩

theorem synced_spec (hshows : w.cache.Shows w.refs c) (hcoherent : Coherent c)
    (hstore : c.store = w.store) {scope : Option Mapping} {next : Cache → Option Nat}
    (hfinds : Cache.Finds scope next) (rounds : Nat) :
    Holds (w.synced (Cache.syncLoop scope next rounds w.cache)) := by
  cases hrun : Cache.syncLoop scope next rounds w.cache with
  | none => exact ⟨c, hshows, hcoherent, hstore⟩
  | some r =>
    exact .comes hcoherent hstore (hshows.syncLoop hfinds rounds hrun)

theorem Holds.exec (h : Holds w) {op : Op} (hlegal : w.Legal op) (hcareful : w.Careful op) :
    Holds (w.exec op).2 ∧ ∀ id dev block, Reads op dev block → (w.exec op).1 = some id →
      Returns (w.exec op).2 id dev block := by
  obtain ⟨c, hshows, hcoherent, hstore⟩ := h
  cases op with
  | get dev block read create =>
    exact took_spec hcoherent hstore
      (hshows.getLoop hlegal.1 hlegal.2 hcareful create (w.cache.dirtyList.length + 1))
  | getBlock dev block =>
    obtain ⟨hholds, hreturns⟩ := took_spec hcoherent hstore
      (hshows.getLoop hlegal.1 hlegal.2 hcareful true (w.cache.dirtyList.length + 1))
    exact ⟨hholds, fun id dev' block' hreads => hreturns id dev' block' ⟨rfl, hreads⟩⟩
  | getMapping mapping index block read create fails =>
    have hresolved : ∀ b, resolved block fails = .ok b → b = block := by
      intro b hb
      cases fails with
      | none =>
        cases hb
        rfl
      | some e => cases hb
    exact took_spec hcoherent hstore
      (hshows.getMapping mapping index create hlegal.1.1 hlegal.1.2 hresolved hlegal.2 hcareful)
  | update ref data =>
    refine ⟨?_, fun _ _ _ hreads => hreads.elim⟩
    have hperm := hshows.perm (List.perm_cons_erase hlegal)
    obtain ⟨page, hpage, -⟩ := hperm.held
    obtain ⟨c', hstep, hstore', hshows'⟩ := hperm.update hpage data
    rw [Client.exec, hpage]
    exact ⟨c', hshows', hcoherent.step hstep, by rw [hstore', hstore]⟩
  | markDirty ref =>
    refine ⟨?_, fun _ _ _ hreads => hreads.elim⟩
    have hperm := hshows.perm (List.perm_cons_erase hlegal.1)
    obtain ⟨page, hpage, -⟩ := hperm.held
    exact .comes hcoherent hstore (hperm.markDirty hpage
      (hlegal.2.imp_left fun hready => hready page hpage))
  | syncPage ref =>
    refine ⟨?_, fun _ _ _ hreads => hreads.elim⟩
    have hperm := hshows.perm (List.perm_cons_erase hlegal.1)
    obtain ⟨page, hpage, -⟩ := hperm.held
    have hsync := hperm.syncPage hpage (hlegal.2.imp_left fun hready => hready page hpage)
    rw [Client.exec]
    obtain ⟨⟨ret, s⟩, hr⟩ : ∃ r, w.cache.pageCacheSyncPage ref.page = r := ⟨_, rfl⟩
    rw [hr] at hsync ⊢
    rcases hsync with ⟨e, hret, hcomes⟩ | ⟨hret, hcomes⟩
    · obtain rfl : ret = .error e := hret
      exact .comes hcoherent hstore (hcomes.next fun c1 h1 =>
        (h1.perm (List.perm_cons_erase hlegal.1).symm).comes)
    · obtain rfl : ret = .ok () := hret
      exact .comes hcoherent hstore hcomes
  | putPage ref =>
    refine ⟨?_, fun _ _ _ hreads => hreads.elim⟩
    obtain ⟨id, owed⟩ := ref
    obtain ⟨hmem, hfree⟩ := hlegal
    obtain rfl : owed = false := hfree
    exact .comes hcoherent hstore (hshows.perm (List.perm_cons_erase hmem)).putPage.comes
  | evictOne => exact ⟨.comes hcoherent hstore hshows.evictOne.1, fun _ _ _ hreads => hreads.elim⟩
  | syncMapping mapping =>
    exact ⟨synced_spec hshows hcoherent hstore (Cache.finds_dirtyOf mapping) _,
      fun _ _ _ hreads => hreads.elim⟩
  | syncAll =>
    exact ⟨synced_spec hshows hcoherent hstore Cache.finds_head _, fun _ _ _ hreads => hreads.elim⟩

theorem Holds.run (h : Holds w)
    (hrun : Relation.ReflTransGen (Step fun w op => w.Legal op ∧ w.Careful op) w w') :
    Holds w' := by
  induction hrun with
  | refl => exact h
  | tail _ hstep ih =>
    obtain ⟨op, ⟨hlegal, hcareful⟩, rfl⟩ := hstep
    exact (ih.exec hlegal hcareful).1

/-! ## What a reader sees -/

/-- In every run with care from an empty cache, a page that is returned with `PAGE_CACHE_READ` has
the bytes of the last update of its block, or those of the device if there was none. -/
theorem reads_last_update (hstart : Start w)
    (hrun : Relation.ReflTransGen (Step fun w op => w.Legal op ∧ w.Careful op) w w') {op : Op}
    (hlegal : w'.Legal op) (hcareful : w'.Careful op) {dev block id : Nat}
    (hreads : Reads op dev block) (hid : (w'.exec op).1 = some id) :
    Returns (w'.exec op).2 id dev block :=
  ((hstart.holds.run hrun).exec hlegal hcareful).2 id dev block hreads hid

end Lemmas

/-! ## Two runs -/

/-- The number of the disk. -/
def disk8 : Nat := 8 * 2 ^ 20

/-- A disk full of zeros that always answers, and an empty cache. -/
def empty : Client where
  cache :=
    { page := fun _ => none, fresh := 0, lru := [], dirtyList := [], associations := [], pages := 0,
      wbBuf := some fun _ => 0, wbPages := 32, devTable := fun _ => true, disk := fun _ _ => 0,
      answers := { memOk := fun _ => true, ioOk := fun _ => true, ioPart := fun _ => 0 }, tick := 0 }
  refs := []
  store := fun _ _ => 0

theorem start_empty : Start empty := ⟨fun _ => rfl, rfl, rfl, rfl, rfl, fun _ => rfl⟩

/-- Block 5 is created without a read. -/
def created : Client := (empty.exec (.get disk8 5 false true)).2

/-- The holder has written ones. -/
def written : Client := (created.exec (.update ⟨0, false⟩ fun _ => 1)).2

/-- The holder has marked the page. -/
def marked : Client := (written.exec (.markDirty ⟨0, true⟩)).2

theorem careful_get {w : Client} (h : Holds w) (hlru : w.cache.lru = [0])
    (hpage : (w.cache.page 0).map (fun p => (p.dev, p.uptodate)) = some (disk8, true)) :
    w.cache.Careful w.refs disk8 5 true := by
  obtain ⟨c, hshows, -, -⟩ := h
  have hall : ∀ i p, w.cache.page i = some p → p.dev = disk8 ∧ p.uptodate = true := by
    intro i p hp
    have hmem := (hshows.ok.listed i).mpr ⟨p, hp⟩
    rw [hlru, List.mem_singleton] at hmem
    rw [hmem] at hp
    rw [hp, Option.map_some, Option.some_inj, Prod.mk.injEq] at hpage
    exact hpage
  refine ⟨fun i p hp _ => (hall i p hp).1, fun _ i p hp _ _ hstale => ?_⟩
  rw [(hall i p hp).2] at hstale
  cases hstale

theorem run_marked :
    Relation.ReflTransGen (Step fun w op => w.Legal op ∧ w.Careful op) empty marked := by
  have hempty : empty.Legal (.get disk8 5 false true) := (by decide : Real disk8 5)
  have hcareful : empty.Careful (.get disk8 5 false true) :=
    ⟨fun i p hp => (by cases hp), fun _ i p hp => (by cases hp)⟩
  have hcreated : created.Legal (.update ⟨0, false⟩ fun _ => 1) := by
    change _ ∈ created.refs
    decide +kernel
  have hheld : ⟨0, true⟩ ∈ written.refs := by decide +kernel
  have hwritten : written.Legal (.markDirty ⟨0, true⟩) := ⟨hheld, .inr rfl⟩
  exact ((Relation.ReflTransGen.refl.tail ⟨_, ⟨hempty, hcareful⟩, rfl⟩).tail
    ⟨_, ⟨hcreated, trivial⟩, rfl⟩).tail ⟨_, ⟨hwritten, trivial⟩, rfl⟩

/-- A read after the mark returns the ones. -/
theorem reads_last_update_marked : Returns (marked.exec (.getBlock disk8 5)).2 0 disk8 5 ∧
      marked.store (major disk8, 5) = fun _ => 1 := by
  have hcareful : marked.cache.Careful marked.refs disk8 5 true :=
    careful_get (start_empty.holds.run run_marked) (by decide +kernel) (by decide +kernel)
  have hlegal : Real disk8 5 := by decide
  exact ⟨@reads_last_update empty marked start_empty run_marked (.getBlock disk8 5) hlegal hcareful
    disk8 5 0 ⟨rfl, rfl⟩ (by decide +kernel), rfl⟩

/-- A read before the mark returns the bytes of the device, and the update is lost. -/
theorem read_loses_update : Start empty ∧ Relation.ReflTransGen (Step Legal) empty written ∧
      written.Legal (.getBlock disk8 5) ∧ Reads (.getBlock disk8 5) disk8 5 ∧
      (written.exec (.getBlock disk8 5)).1 = some 0 ∧
      ¬ Returns (written.exec (.getBlock disk8 5)).2 0 disk8 5 := by
  have hlegal : Real disk8 5 := by decide
  have hcreated : created.Legal (.update ⟨0, false⟩ fun _ => 1) := by
    change _ ∈ created.refs
    decide +kernel
  refine ⟨start_empty, (Relation.ReflTransGen.refl.tail ⟨.get disk8 5 false true, hlegal, rfl⟩).tail
    ⟨_, hcreated, rfl⟩, hlegal, ⟨rfl, rfl⟩, by decide +kernel, ?_⟩
  rintro ⟨page, hpage, -, -, hdata⟩
  have hzero : ((written.exec (.getBlock disk8 5)).2.cache.page 0).map (·.data ⟨0, by decide⟩) =
      some 0 := by decide +kernel
  rw [hpage, Option.map_some, hdata] at hzero
  cases hzero

end Client

end CuteOS.Block
