/-
  Block/CacheSteps.lean --- the page cache as a cache that writes back.

  The cache shows lines for the blocks of devices.  Every call takes the lines through
  steps of `Lib/WriteBack`.
-/
import CuteOS.Block.Sync
import CuteOS.Lib.WriteBack
import Mathlib.Data.List.Perm.Basic

set_option autoImplicit false

namespace CuteOS.Block

open Lib Lib.WriteBack
open Function (update_self update_of_ne)

/-- The line of a page. -/
def Page.line (page : Page) (pending : Bool) : Line BlockData :=
  ⟨page.data, page.uptodate, page.dirty, pending⟩

abbrev Lines := WriteBack.Cache (Nat × Nat) BlockData

/-! ## References -/

/-- A reference to a page.  Its holder owes a mark or a write after an update. -/
structure Ref where
  page : Nat
  owed : Bool
  deriving DecidableEq

/-- Somebody owes a mark or a write for page `id`. -/
def owes (refs : List Ref) (id : Nat) : Bool := refs.any fun ref => ref.page == id && ref.owed

/-- The number of references to page `id`. -/
def holders (refs : List Ref) (id : Nat) : Nat := refs.countP fun ref => ref.page == id

section References

variable {refs refs' : List Ref} {id i : Nat} {owed : Bool}

theorem owes_perm (hperm : refs.Perm refs') (id : Nat) : owes refs id = owes refs' id := by
  rw [Bool.eq_iff_iff, owes, owes, List.any_eq_true, List.any_eq_true]
  exact ⟨fun ⟨ref, hmem, howed⟩ => ⟨ref, hperm.mem_iff.mp hmem, howed⟩,
    fun ⟨ref, hmem, howed⟩ => ⟨ref, hperm.mem_iff.mpr hmem, howed⟩⟩

theorem owes_cons_ne (hne : i ≠ id) : owes (⟨id, owed⟩ :: refs) i = owes refs i := by
  rw [owes, List.any_cons, beq_false_of_ne hne.symm]
  rfl

theorem owes_cons (id : Nat) (owed : Bool) (refs : List Ref) :
    owes (⟨id, owed⟩ :: refs) id = (owed || owes refs id) := by
  rw [owes, List.any_cons, beq_self_eq_true]
  rfl

theorem holders_cons_ne (hne : i ≠ id) : holders (⟨id, owed⟩ :: refs) i = holders refs i := by
  rw [holders, List.countP_cons_of_neg]
  · rfl
  · rw [beq_false_of_ne hne.symm]
    exact Bool.false_ne_true

theorem holders_cons (id : Nat) (owed : Bool) (refs : List Ref) :
    holders (⟨id, owed⟩ :: refs) id = holders refs id + 1 := by
  rw [holders, List.countP_cons_of_pos]
  · rfl
  · exact beq_self_eq_true id

/-- A holder who owes something is a holder. -/
theorem owes_of_holders_zero (hzero : holders refs id = 0) : owes refs id = false := by
  rw [← Bool.not_eq_true, owes, List.any_eq_true]
  rintro ⟨ref, hmem, howed⟩
  rw [Bool.and_eq_true] at howed
  exact List.countP_eq_zero.mp hzero ref hmem howed.1

end References

namespace Cache

/-- `page->refcount`. -/
def refcount (s : Cache) (id : Nat) : Nat :=
  match s.page id with
  | none => 0
  | some page => page.refcount

/-- The cache shows the lines of `c`, and the references are `refs`.  The pages on a device
all have one number for it. -/
structure Shows (s : Cache) (refs : List Ref) (c : Lines) : Prop where
  ok : Ok s
  apart : ∀ i j p q, s.page i = some p → s.page j = some q → major p.dev = major q.dev →
    p.dev = q.dev
  line : ∀ id p, s.page id = some p → c.line p.key = some (p.line (owes refs id))
  absent : ∀ k, (∀ id p, s.page id = some p → p.key ≠ k) → c.line k = none
  disk : ∀ k, c.disk k = blockOf s.disk k
  counted : ∀ id, s.refcount id = holders refs id

/-- The lines `c` come to be those that `s` shows, and the store is the same. -/
def Comes (c : Lines) (s : Cache) (refs : List Ref) : Prop :=
  ∃ c', Reaches c c' ∧ c'.store = c.store ∧ Shows s refs c'

section Lemmas

variable {s s' : Cache} {refs refs' : List Ref} {c : Lines} {id : Nat} {page : Page}

theorem refcount_eq (hpage : s.page id = some page) : s.refcount id = page.refcount := by
  rw [refcount, hpage]

theorem Shows.comes (h : Shows s refs c) : Comes c s refs := ⟨c, .refl, rfl, h⟩

variable {s1 : Cache}

theorem Comes.next {refs1 : List Ref} (h : Comes c s1 refs1)
    (hnext : ∀ c1, Shows s1 refs1 c1 → Comes c1 s' refs) : Comes c s' refs := by
  obtain ⟨c1, hreach, hstore, hshows⟩ := h
  obtain ⟨c2, hreach', hstore', hshows'⟩ := hnext c1 hshows
  exact ⟨c2, hreach.trans hreach', hstore'.trans hstore, hshows'⟩

variable {owed : Bool}

namespace Shows

theorem perm (h : Shows s refs c) (hperm : refs.Perm refs') : Shows s refs' c :=
  ⟨h.ok, h.apart, fun i p hp => owes_perm hperm i ▸ h.line i p hp, h.absent, h.disk,
    fun i => (h.counted i).trans (hperm.countP_eq _)⟩

/-- One page lies on a block. -/
theorem same (h : Shows s refs c) {i : Nat} {p : Page} (hp : s.page i = some p)
    (hpage : s.page id = some page) (hkey : p.key = page.key) : i = id :=
  h.ok.keys i id p page hp hpage (h.apart i id p page hp hpage (Prod.mk.inj hkey).1)
    (Prod.mk.inj hkey).2

/-- A page that somebody holds is there. -/
theorem held (h : Shows s (⟨id, owed⟩ :: refs) c) :
    ∃ page, s.page id = some page ∧ page.refcount = holders refs id + 1 := by
  have hcount := h.counted id
  rw [holders_cons, refcount] at hcount
  cases hpage : s.page id with
  | none =>
    rw [hpage] at hcount
    cases hcount
  | some page =>
    rw [hpage] at hcount
    exact ⟨page, rfl, hcount⟩

/-- What `Shows` depends on. -/
theorem congr (h : Shows s refs c) (hok : Ok s') (hpage : s'.page = s.page)
    (hdisk : s'.disk = s.disk) : Shows s' refs c := by
  refine ⟨hok, ?_, ?_, ?_, ?_, fun i => ?_⟩
  · rw [hpage]
    exact h.apart
  · rw [hpage]
    exact h.line
  · rw [hpage]
    exact h.absent
  · rw [hdisk]
    exact h.disk
  · rw [refcount, hpage]
    exact h.counted i

section

variable (h : Shows s refs c) (hpage : s.page id = some page)
include h hpage

/-- One page changes, and the references to it. -/
theorem change (page' : Page) (hplace : page'.place = page.place) (hok : Ok s')
    (hs : s'.page = Function.update s.page id (some page')) (hdisk : s'.disk = s.disk)
    (howes : ∀ i, i ≠ id → owes refs' i = owes refs i)
    (hholders : ∀ i, i ≠ id → holders refs' i = holders refs i)
    (hcount : page'.refcount = holders refs' id) (store : Nat × Nat → BlockData) :
    Shows s' refs'
      ⟨Function.update c.line page.key (some (page'.line (owes refs' id))), c.disk, store⟩ := by
  obtain ⟨hdev, hblock, -⟩ := Page.place_eq hplace
  have hself := page_self hs
  have hkey : page'.key = page.key := by rw [Page.key, Page.key, hdev, hblock]
  refine ⟨hok, ?_, ?_, ?_, ?_, ?_⟩
  · intro i j p q hp hq hmajor
    obtain ⟨p0, hp0, hpd, -⟩ := page_old hs hpage hdev hblock hp
    obtain ⟨q0, hq0, hqd, -⟩ := page_old hs hpage hdev hblock hq
    rw [hpd, hqd] at hmajor ⊢
    exact h.apart i j p0 q0 hp0 hq0 hmajor
  · intro i p hp
    dsimp only
    rcases update_some hs hp with ⟨rfl, rfl⟩ | ⟨hi, hp⟩
    · rw [hkey, update_self]
    · rw [howes i hi, update_of_ne fun hsame => hi (h.same hp hpage hsame)]
      exact h.line i p hp
  · intro k hk
    dsimp only
    have hne : k ≠ page.key := by
      rintro rfl
      exact hk id page' hself hkey
    rw [update_of_ne hne]
    refine h.absent k fun i p hp => ?_
    by_cases hi : i = id
    · subst hi
      rw [hpage] at hp
      cases hp
      exact hne.symm
    · exact hk i p ((page_ne hs hi).trans hp)
  · rw [hdisk]
    exact h.disk
  · intro i
    by_cases hi : i = id
    · rw [hi, refcount_eq hself, hcount]
    · rw [refcount, page_ne hs hi, hholders i hi]
      exact h.counted i

/-- A page changes in what its line does not show. -/
theorem quiet (page' : Page) (hplace : page'.place = page.place)
    (hline : page'.line (owes refs id) = page.line (owes refs id)) (hok : Ok s')
    (hs : s'.page = Function.update s.page id (some page')) (hdisk : s'.disk = s.disk)
    (howes : ∀ i, owes refs' i = owes refs i)
    (hholders : ∀ i, i ≠ id → holders refs' i = holders refs i)
    (hcount : page'.refcount = holders refs' id) : Shows s' refs' c := by
  have hchange := h.change hpage page' hplace hok hs hdisk (fun i _ => howes i) hholders hcount
    c.store
  rw [howes, hline, ← h.line id page hpage, Function.update_eq_self] at hchange
  exact hchange

theorem hold : Shows (s.hold id) (⟨id, false⟩ :: refs) c := by
  have hok := h.ok.hold hpage
  rw [Cache.hold, modify_eq hpage] at hok ⊢
  refine h.quiet hpage { page with refcount := page.refcount + 1 } rfl rfl hok rfl rfl
    (fun i => ?_) (fun i hi => holders_cons_ne hi) ?_
  · by_cases hi : i = id
    · rw [hi, owes_cons, Bool.false_or]
    · exact owes_cons_ne hi
  · rw [holders_cons, ← h.counted id, refcount_eq hpage]

theorem touch : Shows (s.touch id) refs c :=
  h.congr (h.ok.touch hpage) rfl rfl

end

theorem putPage (h : Shows s (⟨id, false⟩ :: refs) c) : Shows (s.pageCachePutPage id) refs c := by
  obtain ⟨page, hpage, hcount⟩ := h.held
  have hok := h.ok.setPage hpage { page with refcount := page.refcount - 1 } rfl rfl
  rw [h.ok.putPage_eq hpage]
  refine h.quiet hpage { page with refcount := page.refcount - 1 } rfl rfl hok rfl rfl
    (fun i => ?_) (fun i hi => (holders_cons_ne hi).symm) ?_
  · by_cases hi : i = id
    · rw [hi, owes_cons, Bool.false_or]
    · exact (owes_cons_ne hi).symm
  · dsimp only
    omega

section

variable (h : Shows s (⟨id, owed⟩ :: refs) c) (hpage : s.page id = some page)
include h hpage

/-- A holder changes the page, and from then on owes something or not. -/
theorem changeHeld (owed' : Bool) (page' : Page) (hplace : page'.place = page.place)
    (hcount : page'.refcount = page.refcount) (hok : Ok s')
    (hs : s'.page = Function.update s.page id (some page')) (hdisk : s'.disk = s.disk)
    (store : Nat × Nat → BlockData) :
    Shows s' (⟨id, owed'⟩ :: refs) ⟨Function.update c.line page.key
      (some (page'.line (owed' || owes refs id))), c.disk, store⟩ := by
  have hold := h.counted id
  rw [refcount_eq hpage, holders_cons] at hold
  rw [← owes_cons]
  exact h.change hpage page' hplace hok hs hdisk
    (fun i hi => by rw [owes_cons_ne hi, owes_cons_ne hi])
    (fun i hi => by rw [holders_cons_ne hi, holders_cons_ne hi])
    (by rw [holders_cons, hcount, hold]) store

/-- An update of a page by a holder. -/
theorem update (data : BlockData) :
    ∃ c', Step c c' ∧ c'.store = Function.update c.store page.key data ∧
      Shows (s.setPage id { page with data := data }) (⟨id, true⟩ :: refs) c' := by
  have hok := h.ok.setPage hpage { page with data := data } rfl rfl
  exact ⟨_, .update data (h.line id page hpage), rfl,
    h.changeHeld hpage true { page with data := data } rfl rfl hok rfl rfl _⟩

/-- `page_cache_mark_dirty` by a holder. -/
theorem markDirty (hknown : page.uptodate = true ∨ owed = true) :
    Comes c (s.pageCacheMarkDirty id) (⟨id, false⟩ :: refs) := by
  have hok := h.ok.markDirty hpage
  rw [pageCacheMarkDirty, hpage] at hok ⊢
  refine ⟨_, .single (.mark (owes refs id) (h.line id page hpage) ?_), rfl,
    h.changeHeld hpage false { page with dirty := true, uptodate := true } rfl rfl hok rfl rfl c.store⟩
  refine hknown.imp_right fun howed => ?_
  rw [Page.line, owes_cons, howed, Bool.true_or]

/-- A page that is on the disk becomes clean after a write by a holder. -/
theorem clearDirty (hdisk : blockOf s.disk page.key = page.data)
    (hneeded : page.dirty = true ∨ owed = true) :
    Comes c (s.pageCacheClearDirty id) (⟨id, false⟩ :: refs) := by
  have hok := h.ok.clearDirty id
  rw [clearDirty_eq hpage] at hok ⊢
  refine ⟨_, .single (.clean (owes refs id) (h.line id page hpage) ((h.disk _).trans hdisk)
    (hneeded.imp_right fun howed => ?_) fun htrue => ?_), rfl,
    h.changeHeld hpage false page.clean rfl rfl hok rfl rfl c.store⟩
  · rw [Page.line, owes_cons, howed, Bool.true_or]
  · rw [Page.line, owes_cons, htrue, Bool.or_true]

end

/-! ## Writing back -/

variable (h : Shows s refs c)
include h

/-- Pages that are on the disk become clean. -/
theorem clearDirty_fold (ids : List Nat)
    (hdisk : ∀ i ∈ ids, ∃ p, s.page i = some p ∧ blockOf s.disk p.key = p.data) :
    Comes c (ids.foldl pageCacheClearDirty s) refs := by
  induction ids generalizing s c with
  | nil => exact h.comes
  | cons i ids ih =>
    obtain ⟨page, hpage, hblock⟩ := hdisk i List.mem_cons_self
    have hfirst : Comes c (s.pageCacheClearDirty i) refs := by
      have hok := h.ok.clearDirty i
      have hcount := h.counted i
      rw [refcount_eq hpage] at hcount
      rw [clearDirty_eq hpage] at hok ⊢
      by_cases hdirty : page.dirty = true
      · exact ⟨_, .single (.clean _ (h.line i page hpage) ((h.disk _).trans hblock) (.inl hdirty) id),
          rfl, h.change hpage page.clean rfl hok rfl rfl (fun _ _ => rfl) (fun _ _ => rfl) hcount c.store⟩
      · refine (h.quiet hpage page.clean rfl ?_ hok rfl rfl (fun _ => rfl) (fun _ _ => rfl) hcount).comes
        rw [Page.line, Page.line, Page.clean, Bool.eq_false_iff.mpr hdirty]
    refine hfirst.next fun c1 h1 => ih h1 fun j hj => ?_
    obtain ⟨p, hp, hpblock⟩ := hdisk j (List.mem_cons_of_mem _ hj)
    rw [clearDirty_eq hpage]
    by_cases hsame : j = i
    · rw [hsame] at hp ⊢
      exact ⟨page.clean, page_self rfl, hblock⟩
    · exact ⟨p, (page_ne rfl hsame).trans hp, hpblock⟩

/-- Pages are written, each of them with something. -/
theorem writes (ids : List Nat)
    (hneeded : ∀ i ∈ ids, ∃ p, s.page i = some p ∧ (p.dirty = true ∨ owes refs i = true))
    {disk : Nat → Nat → UInt8} (tick : Nat) (buf : Option (Nat → UInt8))
    (hother : ∀ k, (∀ i ∈ ids, ∀ p, s.page i = some p → p.key ≠ k) →
      blockOf disk k = blockOf s.disk k) :
    Comes c { s with disk := disk, tick := tick, wbBuf := buf } refs := by
  refine ⟨{ c with disk := blockOf disk },
    reaches_writes (ids.filterMap fun i => (s.page i).map Page.key) _ ?_ ?_, rfl, ?_⟩
  · intro k hk
    obtain ⟨i, hi, hkey⟩ := List.mem_filterMap.mp hk
    obtain ⟨p, hp, rfl⟩ := Option.map_eq_some_iff.mp hkey
    obtain ⟨p', hp', hp'needed⟩ := hneeded i hi
    obtain rfl := Option.some.inj (hp.symm.trans hp')
    exact ⟨_, h.line i p hp, hp'needed⟩
  · intro k hk
    rw [h.disk]
    refine hother k fun i hi p hp hkey => hk (List.mem_filterMap.mpr ⟨i, hi, ?_⟩)
    rw [hp, Option.map_some, hkey]
  · exact ⟨h.ok.written disk tick buf, h.apart, h.line, h.absent, fun _ => rfl, h.counted⟩

/-- A run of writing back. -/
theorem wrote {scope : Option Mapping} {start : Page}
    {r : Except Errno Unit × Cache} (hwrote : Wrote s scope id start r) : Comes c r.2 refs := by
  obtain ⟨ids, disk, tick, buf, hpicked, -, hcases⟩ := hwrote
  have hneeded : ∀ i ∈ ids, ∃ p, s.page i = some p ∧ (p.dirty = true ∨ owes refs i = true) := by
    intro i hi
    obtain ⟨p, hp, hdirty, -⟩ := hpicked.mem hi
    exact ⟨p, hp, .inl hdirty⟩
  rcases hcases with ⟨e, rfl, -, hreached⟩ | ⟨rfl, -, hreached⟩
  · exact h.writes ids hneeded tick buf hreached.other
  · refine (h.writes ids hneeded tick buf hreached.other).next fun c1 h1 =>
      h1.clearDirty_fold ids fun i hi => ?_
    obtain ⟨p, hp, -⟩ := hpicked.mem hi
    exact ⟨p, hp, hreached.all hi hp⟩

theorem syncLoop {scope : Option Mapping} {next : Cache → Option Nat}
    (hfinds : Finds scope next) (rounds : Nat) {ret : Except Errno Unit}
    (hrun : Cache.syncLoop scope next rounds s = some (ret, s')) : Comes c s' refs := by
  induction rounds generalizing s c with
  | zero => cases hrun
  | succ rounds ih =>
    rw [Cache.syncLoop] at hrun
    cases hid : next s with
    | none =>
      rw [hid] at hrun
      cases hrun
      exact h.comes
    | some id =>
      rw [hid] at hrun
      obtain ⟨start, hpage, hdirty, hscope⟩ := hfinds.some s id h.ok hid
      obtain ⟨⟨ret1, s1⟩, hr⟩ : ∃ r, (s.hold id).pageCacheWbRun id scope = r := ⟨_, rfl⟩
      have hcomes := h.wrote (round_spec h.ok hpage hdirty hscope hr)
      dsimp only at hrun hcomes
      rw [hr] at hrun
      cases ret1 with
      | error e =>
        cases hrun
        exact hcomes
      | ok u => exact hcomes.next fun c1 h1 => ih h1 hrun

end Shows

/-- What comes of `page_cache_write_physical`. -/
theorem writePhysical_spec (hpage : s.page id = some page) (hblock : page.block < 2 ^ 61) :
    ∃ ret disk tick, s.pageCacheWritePhysical id = (ret, { s with disk := disk, tick := tick }) ∧
      (∀ k, page.key ≠ k → blockOf disk k = blockOf s.disk k) ∧
      (ret = .ok () → blockOf disk page.key = page.data) := by
  rw [pageCacheWritePhysical, hpage]
  dsimp only
  split_ifs with hdev
  · exact ⟨_, s.disk, s.tick, rfl, fun _ _ => rfl, fun hfalse => by cases hfalse⟩
  · obtain ⟨disk, hrun, hother, hmine⟩ := s.writeSectors_spec page.dev 1 page.data.bytes hblock
    rw [Nat.one_mul] at hrun
    rw [hrun]
    have hkeep : ∀ k, page.key ≠ k → blockOf disk k = blockOf s.disk k := by
      intro k hk
      refine hother k fun hmajor => Nat.lt_or_gt_of_ne fun hsame => hk ?_
      rw [Page.key, ← hmajor, ← hsame]
    cases hio : s.answers.ioOk s.tick with
    | false => exact ⟨_, disk, _, rfl, hkeep, fun hfalse => by cases hfalse⟩
    | true =>
      refine ⟨_, disk, _, rfl, hkeep, fun _ => funext fun x => ?_⟩
      rcases hmine 0 Nat.one_pos x with hbyte | ⟨hfalse, -⟩
      · rw [Nat.zero_mul, Nat.zero_add, bytes_of_lt] at hbyte
        exact hbyte
      · rw [hio] at hfalse
        cases hfalse

/-- What comes of `page_cache_sync_page`. -/
theorem syncPage_spec (hok : Ok s) (hpage : s.page id = some page) :
    ∃ disk tick, (∀ k, page.key ≠ k → blockOf disk k = blockOf s.disk k) ∧
      ((∃ e, s.pageCacheSyncPage id = (.error e, { s with disk := disk, tick := tick })) ∨
        blockOf disk page.key = page.data ∧ s.pageCacheSyncPage id =
          (.ok (), { s with disk := disk, tick := tick }.pageCacheClearDirty id)) := by
  have hfit := hok.fit id page hpage
  have hself := @page_self s (s.setPage id (page.setWriteback true)) id _ rfl
  obtain ⟨ret, disk, tick, hrun, hother, hmine⟩ := @writePhysical_spec _ id _ hself hfit.block
  -- the flag is set during the transfer only
  have hback : Cache.modify { s.setPage id (page.setWriteback true) with disk := disk, tick := tick }
      id (Page.setWriteback false) = { s with disk := disk, tick := tick } := by
    have hpage' : (page.setWriteback true).setWriteback false = page := by
      rw [Page.setWriteback, Page.setWriteback, ← hfit.idle]
    rw [@modify_eq { s.setPage id (page.setWriteback true) with disk := disk, tick := tick } id
      (page.setWriteback true) hself, hpage']
    exact congrArg (fun pages => { s with page := pages, disk := disk, tick := tick })
      (setPage_restore hpage _)
  refine ⟨disk, tick, hother, ?_⟩
  rw [pageCacheSyncPage, hpage]
  dsimp only
  rw [hfit.idle, modify_eq hpage, hrun]
  cases ret with
  | error e =>
    dsimp only
    rw [hback]
    exact .inl ⟨e, rfl⟩
  | ok u =>
    dsimp only
    rw [hback]
    exact .inr ⟨hmine rfl, rfl⟩

/-- `page_cache_sync_page` by a holder who owes it, or of a page that is dirty. -/
theorem Shows.syncPage (h : Shows s (⟨id, owed⟩ :: refs) c)
    (hpage : s.page id = some page) (hneeded : page.dirty = true ∨ owed = true) :
    (∃ e, (s.pageCacheSyncPage id).1 = .error e ∧
        Comes c (s.pageCacheSyncPage id).2 (⟨id, owed⟩ :: refs)) ∨
      (s.pageCacheSyncPage id).1 = .ok () ∧
        Comes c (s.pageCacheSyncPage id).2 (⟨id, false⟩ :: refs) := by
  obtain ⟨disk, tick, hother, hcases⟩ := syncPage_spec h.ok hpage
  have howes : page.dirty = true ∨ owes (⟨id, owed⟩ :: refs) id = true := by
    refine hneeded.imp_right fun howed => ?_
    rw [owes_cons, howed, Bool.true_or]
  have hwritten : Comes c { s with disk := disk, tick := tick } (⟨id, owed⟩ :: refs) := by
    refine h.writes [id] (fun i hi => ?_) tick s.wbBuf fun k hk => hother k ?_
    · rw [List.mem_singleton.mp hi]
      exact ⟨page, hpage, howes⟩
    · exact hk id List.mem_cons_self page hpage
  rcases hcases with ⟨e, hrun⟩ | ⟨hmine, hrun⟩
  · rw [hrun]
    exact .inl ⟨e, rfl, hwritten⟩
  · rw [hrun]
    exact .inr ⟨rfl, hwritten.next fun c1 h1 => h1.clearDirty hpage hmine hneeded⟩

/-! ## References to blocks -/

/-- No page is new, and there are not more dirty pages. -/
structure NoNew (s s' : Cache) : Prop where
  page : ∀ i p, s'.page i = some p → ∃ q, s.page i = some q ∧ p.dev = q.dev ∧ p.block = q.block
  dirty : s'.dirtyList.length ≤ s.dirtyList.length

theorem NoNew.same (hpage : s'.page = s.page) (hdirty : s'.dirtyList = s.dirtyList) : NoNew s s' :=
  ⟨fun _ p hp => ⟨p, hpage ▸ hp, rfl, rfl⟩, Nat.le_of_eq (congrArg List.length hdirty)⟩

theorem Shows.freePage (h : Shows s refs c) (hpage : s.page id = some page)
    (hclean : page.dirty = false) (hfree : page.refcount = 0) :
    Comes c (s.pageCacheFreePage id) refs ∧ NoNew s (s.pageCacheFreePage id) := by
  obtain ⟨hdirty, -, hdisk⟩ := s.freePage_rest id
  have hzero : holders refs id = 0 := by rw [← h.counted, refcount_eq hpage, hfree]
  refine ⟨⟨_, .single (.drop (h.line id page hpage) hclean (owes_of_holders_zero hzero)), rfl,
    h.ok.freePage id, fun i j p q hp hq => ?_, fun i p hp => ?_, fun k hk => ?_, ?_, fun i => ?_⟩,
    fun i p hp => ⟨p, (freePage_some.mp hp).2, rfl, rfl⟩, hdirty ▸ List.length_filter_le ..⟩
  · exact h.apart i j p q (freePage_some.mp hp).2 (freePage_some.mp hq).2
  · obtain ⟨hi, hp'⟩ := freePage_some.mp hp
    dsimp only
    rw [update_of_ne fun hsame => hi (h.same hp' hpage hsame)]
    exact h.line i p hp'
  · dsimp only
    by_cases hkey : k = page.key
    · rw [hkey, update_self]
    · rw [update_of_ne hkey]
      refine h.absent k fun i p hp => ?_
      by_cases hi : i = id
      · rw [hi, hpage] at hp
        cases hp
        exact fun hsame => hkey hsame.symm
      · exact hk i p (freePage_some.mpr ⟨hi, hp⟩)
  · rw [hdisk]
    exact h.disk
  · by_cases hi : i = id
    · have hnone : (s.pageCacheFreePage id).page id = none := update_self ..
      rw [refcount, hi, hnone, hzero]
    · have hsame : (s.pageCacheFreePage id).page i = s.page i := update_of_ne hi ..
      rw [refcount, hsame]
      exact h.counted i

theorem Shows.evictOne (h : Shows s refs c) :
    Comes c s.pageCacheEvictOne.2 refs ∧ NoNew s s.pageCacheEvictOne.2 := by
  rw [pageCacheEvictOne]
  split
  · exact ⟨h.comes, .same rfl rfl⟩
  · rename_i id hfind
    obtain ⟨page, hpage⟩ := (h.ok.listed id).mp (List.mem_of_find?_eq_some hfind)
    have hmatch := List.find?_some hfind
    rw [hpage] at hmatch
    rw [Bool.and_eq_true, Bool.and_eq_true, beq_iff_eq, Bool.not_eq_true'] at hmatch
    exact h.freePage hpage hmatch.1.2 hmatch.1.1

variable {dev block : Nat}

/-- A new page; the device has no other number in the cache. -/
theorem Shows.addPage (h : Shows s refs c) (hdev : major dev < nrBlockDevices)
    (hblock : block < 2 ^ 61)
    (hnew : ∀ i p, s.page i = some p → ¬ (p.dev = dev ∧ p.block = block))
    (hone : ∀ i p, s.page i = some p → major p.dev = major dev → p.dev = dev) :
    Comes c (s.addPage dev block) refs ∧ owes refs s.fresh = false := by
  have hself : (s.addPage dev block).page s.fresh = some (newPage dev block) :=
    update_self ..
  have hother : ∀ i, i ≠ s.fresh → (s.addPage dev block).page i = s.page i :=
    fun i hi => update_of_ne hi ..
  have hfresh : s.page s.fresh = none := h.ok.unused _ (Nat.le_refl _)
  have hzero : holders refs s.fresh = 0 := by rw [← h.counted, refcount, hfresh]
  have howes := owes_of_holders_zero hzero
  have hkey : ∀ i p, s.page i = some p → p.key ≠ (major dev, block) := by
    intro i p hp hsame
    exact hnew i p hp ⟨hone i p hp (Prod.mk.inj hsame).1, (Prod.mk.inj hsame).2⟩
  have hcases := fun i p => @update_some s (s.addPage dev block) s.fresh (newPage dev block) rfl p i
  refine ⟨⟨_, .single (.insert (fun _ => 0) (h.absent _ hkey)), rfl,
    h.ok.addPage hdev hblock hnew, ?_, ?_, ?_, h.disk, fun i => ?_⟩, howes⟩
  · intro i j p q hp hq hmajor
    rcases hcases i p hp with ⟨-, rfl⟩ | ⟨-, hp⟩ <;> rcases hcases j q hq with ⟨-, rfl⟩ | ⟨-, hq⟩
    · rfl
    · exact (hone j q hq hmajor.symm).symm
    · exact hone i p hp hmajor
    · exact h.apart i j p q hp hq hmajor
  · intro i p hp
    dsimp only
    rcases hcases i p hp with ⟨rfl, rfl⟩ | ⟨-, hp⟩
    · rw [howes]
      exact update_self ..
    · rw [update_of_ne (hkey i p hp)]
      exact h.line i p hp
  · intro k hk
    dsimp only
    have hne : k ≠ (major dev, block) := fun hsame => hk _ _ hself hsame.symm
    rw [update_of_ne hne]
    refine h.absent k fun i p hp => hk i p ((hother i ?_).trans hp)
    rintro rfl
    rw [hfresh] at hp
    cases hp
  · by_cases hi : i = s.fresh
    · rw [hi, refcount_eq hself, hzero]
      rfl
    · rw [refcount, hother i hi]
      exact h.counted i

theorem NoNew.setPage (hpage : s.page id = some page) (page' : Page)
    (hdev : page'.dev = page.dev) (hblock : page'.block = page.block)
    (hs : s'.page = Function.update s.page id (some page'))
    (hdirty : s'.dirtyList.length ≤ s.dirtyList.length) : NoNew s s' :=
  ⟨fun _ _ hp => page_old hs hpage hdev hblock hp, hdirty⟩

theorem NoNew.trans {s2 : Cache} (h : NoNew s s1) (h' : NoNew s1 s2) : NoNew s s2 := by
  refine ⟨fun i p hp => ?_, Nat.le_trans h'.dirty h.dirty⟩
  obtain ⟨q, hq, hdev, hblock⟩ := h'.page i p hp
  obtain ⟨q', hq', hdev', hblock'⟩ := h.page i q hq
  exact ⟨q', hq', hdev.trans hdev', hblock.trans hblock'⟩

/-- Block `block` of `dev` has no page, and the device has no other number in the cache. -/
structure Misses (s : Cache) (dev block : Nat) : Prop where
  new : ∀ i p, s.page i = some p → ¬ (p.dev = dev ∧ p.block = block)
  one : ∀ i p, s.page i = some p → major p.dev = major dev → p.dev = dev

theorem Misses.noNew (h : Misses s dev block) (hnew : NoNew s s') :
    Misses s' dev block := by
  constructor
  · intro i p hp
    obtain ⟨q, hq, hdev, hblock⟩ := hnew.page i p hp
    rw [hdev, hblock]
    exact h.new i q hq
  · intro i p hp
    obtain ⟨q, hq, hdev, -⟩ := hnew.page i p hp
    rw [hdev]
    exact h.one i q hq

/-- What comes of `page_cache_alloc`. -/
def Allocs (c : Lines) (refs : List Ref) (s : Cache) (dev block : Nat) : Option Nat × Cache → Prop
  | (none, s') => Comes c s' refs ∧ NoNew s s'
  | (some id, s') => Comes c s' refs ∧ s'.page id = some (newPage dev block) ∧ owes refs id = false

theorem Shows.tick (h : Shows s refs c) (tick : Nat) : Shows { s with tick := tick } refs c :=
  h.congr (h.ok.congr rfl (fun _ => Iff.rfl) rfl rfl rfl) rfl rfl

theorem Comes.kmalloc {s2 : Cache} (h : Comes c s1 refs ∧ NoNew s s1) {mem : Bool}
    (hr : s1.kmalloc = (mem, s2)) : Comes c s2 refs ∧ NoNew s s2 := by
  cases hr
  exact ⟨h.1.next fun c1 h1 => (h1.tick _).comes, h.2.trans (.same rfl rfl)⟩

theorem Shows.alloc (h : Shows s refs c) (hdev : major dev < nrBlockDevices)
    (hblock : block < 2 ^ 61) (hmiss : Misses s dev block) :
    Allocs c refs s dev block (s.pageCacheAlloc dev block) := by
  obtain ⟨⟨room, s1⟩, hr1⟩ : ∃ r, (if s.pages ≥ pageCacheNrPages then s.pageCacheEvictOne
    else (true, s)) = r := ⟨_, rfl⟩
  have h1 : Comes c s1 refs ∧ NoNew s s1 := by
    split_ifs at hr1
    · have hevict := h.evictOne
      rwa [hr1] at hevict
    · cases hr1
      exact ⟨h.comes, .same rfl rfl⟩
  rw [pageCacheAlloc, hr1]
  cases room with
  | false => exact h1
  | true =>
    obtain ⟨⟨mem, s2⟩, hr2⟩ : ∃ r, s1.kmalloc = r := ⟨_, rfl⟩
    have h2 := Comes.kmalloc h1 hr2
    dsimp only
    rw [hr2]
    cases mem with
    | false => exact h2
    | true =>
      obtain ⟨⟨mem, s3⟩, hr3⟩ : ∃ r, s2.kmalloc = r := ⟨_, rfl⟩
      obtain ⟨hcomes, hnoNew⟩ := Comes.kmalloc h2 hr3
      dsimp only
      rw [hr3]
      cases mem with
      | false => exact ⟨hcomes, hnoNew⟩
      | true =>
        have hmiss3 := hmiss.noNew hnoNew
        refine ⟨hcomes.next fun c1 h1 => (h1.addPage hdev hblock hmiss3.new hmiss3.one).1,
          update_self .., ?_⟩
        obtain ⟨c1, -, -, h1⟩ := hcomes
        exact (h1.addPage hdev hblock hmiss3.new hmiss3.one).2

/-- `page_cache_read_physical` of a page that is not up to date and for which nobody owes
anything. -/
theorem Shows.readPhysical (h : Shows s refs c) (hpage : s.page id = some page)
    (hstale : page.uptodate = false) (hfree : owes refs id = false) :
    Comes c (s.pageCacheReadPhysical id).2 refs ∧
      ((s.pageCacheReadPhysical id).1 = .ok () → ∃ page',
        (s.pageCacheReadPhysical id).2.page id = some page' ∧ page'.dev = page.dev ∧
          page'.block = page.block ∧ page'.uptodate = true) := by
  have hfit := h.ok.fit id page hpage
  have hcount := h.counted id
  rw [refcount_eq hpage] at hcount
  have hline := h.line id page hpage
  obtain ⟨moved, hle, htransfer, hfull⟩ := s.transfer_spec (blockSectors * sectorSize)
  rw [pageCacheReadPhysical, hpage]
  dsimp only
  by_cases hdev : s.lookupBlockDevice page.dev = false
  · rw [if_pos hdev]
    exact ⟨h.comes, fun hfalse => by cases hfalse⟩
  rw [if_neg hdev, htransfer]
  -- the page with the bytes that have been moved
  generalize hdata : (fun i : Fin blockSize => if i.val < moved then
    s.disk (major page.dev) (sectorOf page.block * sectorSize + i.val) else page.data i) = data
  have hok : ∀ uptodate, Ok ({ s with tick := s.tick + 1 }.setPage id
      { page with data := data, uptodate := uptodate }) := fun uptodate =>
    @Ok.setPage { s with tick := s.tick + 1 } id page
      (h.ok.congr rfl (fun _ => Iff.rfl) rfl rfl rfl) hpage
      { page with data := data, uptodate := uptodate } rfl rfl
  split_ifs with hio
  · have hread : data = c.disk page.key := by
      rw [← hdata, h.disk]
      funext i
      have hsize : blockSectors * sectorSize = blockSize := rfl
      rw [if_pos (by rw [hfull hio, hsize]; exact i.isLt), sectorOf_bytes hfit.block]
      rfl
    have hshows := h.change hpage { page with data := data, uptodate := true } rfl (hok true) rfl rfl
      (fun _ _ => rfl) (fun _ _ => rfl) hcount c.store
    refine ⟨⟨_, .single (.fill hline hstale hfree), rfl, ?_⟩, fun _ => ⟨_, page_self rfl, rfl, rfl,
      rfl⟩⟩
    rw [← hread]
    exact hshows
  · have hshows := h.change hpage { page with data := data } rfl (hok page.uptodate) rfl rfl
      (fun _ _ => rfl) (fun _ _ => rfl) hcount c.store
    exact ⟨⟨_, .single (.spoil data hline hstale hfree), rfl, hshows⟩, fun hfalse => by cases hfalse⟩

/-- A page of block `block` of `dev` is returned with a reference, or an error. -/
def Gets (c : Lines) (refs : List Ref) (dev block : Nat) (read : Bool) :
    Except Errno Nat × Cache → Prop
  | (.error _, s) => Comes c s refs
  | (.ok id, s) => Comes c s (⟨id, false⟩ :: refs) ∧ ∃ page, s.page id = some page ∧
      page.dev = dev ∧ page.block = block ∧ (read = true → page.uptodate = true)

variable {read : Bool}

theorem Comes.gets {refs1 : List Ref} (h : Comes c s1 refs1) {r : Except Errno Nat × Cache}
    (hnext : ∀ c1, Shows s1 refs1 c1 → Gets c1 refs dev block read r) :
    Gets c refs dev block read r := by
  obtain ⟨ret, s'⟩ := r
  cases ret with
  | error e => exact h.next hnext
  | ok id =>
    refine ⟨h.next fun c1 h1 => (hnext c1 h1).1, ?_⟩
    obtain ⟨c1, -, -, h1⟩ := h
    exact (hnext c1 h1).2

theorem Shows.ready (h : Shows s (⟨id, false⟩ :: refs) c) (hpage : s.page id = some page)
    (hcareful : read = true → page.uptodate = false → owes refs id = false) :
    Gets c refs page.dev page.block read (s.pageCacheReady id read) := by
  rw [pageCacheReady, hpage]
  dsimp only
  split_ifs with hread
  · rw [Bool.and_eq_true, Bool.not_eq_true'] at hread
    have hfree : owes (⟨id, false⟩ :: refs) id = false := by
      rw [owes_cons]
      exact hcareful hread.1 hread.2
    have hphysical := h.readPhysical hpage hread.2 hfree
    obtain ⟨⟨ret, s1⟩, hr⟩ : ∃ r, s.pageCacheReadPhysical id = r := ⟨_, rfl⟩
    rw [hr] at hphysical ⊢
    cases ret with
    | error e => exact hphysical.1.next fun c1 h1 => h1.putPage.comes
    | ok u =>
      obtain ⟨page', hpage', hdev, hblock, huptodate⟩ := hphysical.2 rfl
      exact ⟨hphysical.1, page', hpage', hdev, hblock, fun _ => huptodate⟩
  · refine ⟨h.comes, page, hpage, rfl, rfl, fun htrue => ?_⟩
    rw [htrue, Bool.true_and, Bool.not_eq_true', Bool.not_eq_false] at hread
    exact hread

/-- A reference to a page that is there. -/
theorem Shows.take (h : Shows s refs c) (hpage : s.page id = some page)
    (hcareful : read = true → page.uptodate = false → owes refs id = false) :
    Gets c refs page.dev page.block read (((s.hold id).touch id).pageCacheReady id read) := by
  have hheld := hold_self hpage
  exact @ready _ _ _ _ { page with refcount := page.refcount + 1 } _ ((h.hold hpage).touch hheld)
    hheld hcareful

/-- `page_cache_sync_page` brings no page. -/
theorem NoNew.syncPage (hok : Ok s) (hpage : s.page id = some page) :
    NoNew s (s.pageCacheSyncPage id).2 := by
  obtain ⟨disk, tick, -, ⟨e, hrun⟩ | ⟨-, hrun⟩⟩ := syncPage_spec hok hpage
  · rw [hrun]
    exact .same rfl rfl
  · rw [hrun, @clearDirty_eq { s with disk := disk, tick := tick } id page hpage]
    exact NoNew.setPage hpage page.clean rfl rfl rfl (List.length_filter_le ..)

/-- A dirty page is written to make room. -/
theorem Shows.cleanAny (h : Shows s refs c) (hpage : s.page id = some page)
    (hdirty : page.dirty = true) :
    Comes c (((s.hold id).pageCacheSyncPage id).2.pageCachePutPage id) refs ∧
      NoNew s (((s.hold id).pageCacheSyncPage id).2.pageCachePutPage id) := by
  have hhold : s.hold id = s.setPage id { page with refcount := page.refcount + 1 } :=
    modify_eq hpage _
  have hheld := hold_self hpage
  have hshows := h.hold hpage
  have hsynced : Comes c ((s.hold id).pageCacheSyncPage id).2 (⟨id, false⟩ :: refs) := by
    rcases hshows.syncPage hheld (.inl hdirty) with ⟨e, -, hcomes⟩ | ⟨-, hcomes⟩
    · exact hcomes
    · exact hcomes
  refine ⟨hsynced.next fun c1 h1 => h1.putPage.comes, ?_⟩
  obtain ⟨c1, -, -, h1⟩ := hsynced
  obtain ⟨page1, hpage1, -⟩ := h1.held
  rw [h1.ok.putPage_eq hpage1]
  refine (NoNew.setPage hpage { page with refcount := page.refcount + 1 } rfl rfl ?_ ?_).trans
    ((NoNew.syncPage hshows.ok hheld).trans
      (NoNew.setPage hpage1 { page1 with refcount := page1.refcount - 1 } rfl rfl rfl (Nat.le_refl _)))
  · rw [hhold]
    rfl
  · rw [hhold]
    exact Nat.le_refl _

/-- What the caller has to take care of: the device has one number in the cache, and nobody
reads over an update that has not been marked. -/
structure Careful (s : Cache) (refs : List Ref) (dev block : Nat) (read : Bool) : Prop where
  one : ∀ i p, s.page i = some p → major p.dev = major dev → p.dev = dev
  quiet : read = true → ∀ i p, s.page i = some p → p.dev = dev → p.block = block →
    p.uptodate = false → owes refs i = false

theorem Careful.misses (h : Careful s refs dev block read)
    (hfind : s.pageCacheFind dev block = none) (hok : Ok s) : Misses s dev block :=
  ⟨fun _ _ hp => hok.find_none hfind hp, h.one⟩

theorem Misses.careful (h : Misses s dev block) (refs : List Ref) (read : Bool) :
    Careful s refs dev block read :=
  ⟨h.one, fun _ i p hp hdev hblock => absurd ⟨hdev, hblock⟩ (h.new i p hp)⟩

section Get

section

variable (h : Shows s refs c) (hdev : major dev < nrBlockDevices) (hblock : block < 2 ^ 61)
  (hcareful : Careful s refs dev block read) (create : Bool)
include h hdev hblock hcareful create

/-- A round; a retry comes with the same pages, less those that have been evicted. -/
theorem Shows.getRound {retry : Cache → Except Errno Nat × Cache}
    (hretry : ∀ s', Comes c s' refs → Misses s' dev block → Gets c refs dev block read (retry s')) :
    Gets c refs dev block read (pageCacheGetRound dev block read create retry s) := by
  rw [pageCacheGetRound]
  cases hfind : s.pageCacheFind dev block with
  | some id =>
    obtain ⟨page, hpage, rfl, rfl⟩ := h.ok.find_some hfind
    exact h.take hpage fun hread hstale => hcareful.quiet hread id page hpage rfl rfl hstale
  | none =>
    have hmiss := hcareful.misses hfind h.ok
    have halloc := h.alloc hdev hblock hmiss
    split_ifs
    · exact h.comes
    obtain ⟨⟨got, s1⟩, hr⟩ : ∃ r, s.pageCacheAlloc dev block = r := ⟨_, rfl⟩
    rw [hr] at halloc ⊢
    cases got with
    | none => exact hretry s1 halloc.1 (hmiss.noNew halloc.2)
    | some id =>
      obtain ⟨hcomes, hpage, hfree⟩ := halloc
      exact hcomes.gets fun c1 h1 => h1.take hpage fun _ _ => hfree

theorem Shows.getLoop (rounds : Nat) :
    Gets c refs dev block read (pageCacheGetLoop dev block read create rounds s) := by
  induction rounds generalizing s c with
  | zero => exact h.getRound hdev hblock hcareful create fun s' hcomes _ => hcomes
  | succ rounds ih =>
    refine h.getRound hdev hblock hcareful create fun s' hcomes hmiss => ?_
    rw [pageCacheDirtyAny]
    cases hlist : s'.dirtyList with
    | nil => exact hcomes
    | cons id rest =>
      refine hcomes.gets fun c1 h1 => ?_
      obtain ⟨page, hpage, hdirty⟩ := (h1.ok.dirtyListed id).mp (hlist ▸ List.mem_cons_self)
      have hclean := h1.cleanAny hpage hdirty
      obtain ⟨⟨ret, s2⟩, hr⟩ : ∃ r, (s'.hold id).pageCacheSyncPage id = r := ⟨_, rfl⟩
      dsimp only
      rw [hr] at hclean ⊢
      cases ret with
      | error e => exact hclean.1
      | ok u =>
        exact hclean.1.gets fun c2 h2 => ih h2 ((hmiss.noNew hclean.2).careful refs read)

end

/-! ## References to pages of a mapping -/

theorem Shows.assocAdd (h : Shows s refs c) (hpage : s.page id = some page) (mapping : Mapping)
    (hmapping : page.dev = mapping.dev) (index : Nat) :
    Comes c (s.pageCacheAssocAdd mapping index id).2 refs ∧
      (s.pageCacheAssocAdd mapping index id).2.page = s.page := by
  rw [pageCacheAssocAdd]
  split_ifs
  · exact ⟨h.comes, rfl⟩
  have hmalloc : s.kmalloc = (s.answers.memOk s.tick, { s with tick := s.tick + 1 }) := rfl
  have htick := h.tick (s.tick + 1)
  have hok : Ok { s with
      tick := s.tick + 1
      associations := s.associations ++ [⟨mapping, index, id⟩] } := by
    refine ⟨h.ok.listed, h.ok.dirtyListed, h.ok.keys, fun a ha => ?_, h.ok.fit, h.ok.unused⟩
    rcases List.mem_append.mp ha with hmem | hmem
    · exact h.ok.assoc a hmem
    · rw [List.mem_singleton.mp hmem]
      exact ⟨page, hpage, hmapping⟩
  rw [hmalloc]
  cases s.answers.memOk s.tick with
  | false => exact ⟨htick.comes, rfl⟩
  | true => exact ⟨(htick.congr hok rfl rfl).comes, rfl⟩

/-- `page_cache_get_mapping`, if the mapping has `block` at `index`. -/
theorem Shows.getMapping (h : Shows s refs c) (mapping : Mapping) (index : Nat) (create : Bool)
    {resolved : Except Errno Nat} (hdev : major mapping.dev < nrBlockDevices)
    (hblock : block < 2 ^ 61) (hresolved : ∀ b, resolved = .ok b → b = block)
    (hplace : ∀ a ∈ s.associations, a.mapping = mapping → a.index = index → ∀ p,
      s.page a.page = some p → p.block = block)
    (hcareful : Careful s refs mapping.dev block read) :
    Gets c refs mapping.dev block read
      (s.pageCacheGetMapping mapping index read create resolved) := by
  rw [pageCacheGetMapping, pageCacheFindMapping]
  cases hfind : s.associations.find? fun assoc => assoc.mapping = mapping ∧ assoc.index = index with
  | some assoc =>
    have hmem := List.mem_of_find?_eq_some hfind
    have hmatch := List.find?_some hfind
    rw [decide_eq_true_eq] at hmatch
    obtain ⟨hmapping, hindex⟩ := hmatch
    obtain ⟨page, hpage, hpdev⟩ := h.ok.assoc assoc hmem
    have hpblock := hplace assoc hmem hmapping hindex page hpage
    rw [hmapping] at hpdev
    rw [← hpdev, ← hpblock]
    exact h.take hpage fun hread hstale =>
      hcareful.quiet hread assoc.page page hpage hpdev hpblock hstale
  | none =>
    cases resolved with
    | error e => exact h.comes
    | ok b =>
      obtain rfl := hresolved b rfl
      have hget := h.getLoop hdev hblock hcareful (create || read) (s.dirtyList.length + 1)
      obtain ⟨⟨ret, s1⟩, hr⟩ : ∃ r, s.pageCacheGet mapping.dev b read (create || read) = r :=
        ⟨_, rfl⟩
      rw [← pageCacheGet, hr] at hget
      dsimp only
      rw [hr]
      cases ret with
      | error e => exact hget
      | ok id =>
        obtain ⟨hcomes, page, hpage, hpdev, hpblock, huptodate⟩ := hget
        refine hcomes.gets fun c1 h1 => ?_
        have hadd := h1.assocAdd hpage mapping hpdev index
        obtain ⟨⟨added, s2⟩, hr2⟩ : ∃ r, s1.pageCacheAssocAdd mapping index id = r :=
          ⟨_, rfl⟩
        dsimp only
        rw [hr2] at hadd ⊢
        cases added with
        | error e => exact hadd.1.next fun c2 h2 => h2.putPage.comes
        | ok u => exact ⟨hadd.1, page, hadd.2 ▸ hpage, hpdev, hpblock, huptodate⟩

end Get

end Lemmas

end Cache

end CuteOS.Block
