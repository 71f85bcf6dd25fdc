/-
  Block/CacheOk.lean --- the pages and the lists of the cache agree.
-/
import CuteOS.Block.PageCache

set_option autoImplicit false

namespace CuteOS.Block

open Lib
open Function (update update_idem update_self update_of_ne update_eq_self)

/-- A page between calls: the device number is one that can be registered, the sector number
of the block fits into 64 bits, and no transfer is under way. -/
structure Page.Fit (page : Page) : Prop where
  device : major page.dev < nrBlockDevices
  block : page.block < 2 ^ 61
  idle : page.writeback = false
  kept : page.dropped = false

/-- What stays the same while a page is in the cache. -/
def Page.place (page : Page) : Nat × Nat × Bool × Bool :=
  (page.dev, page.block, page.writeback, page.dropped)

theorem Page.place_eq {page page' : Page} (h : page'.place = page.place) :
    page'.dev = page.dev ∧ page'.block = page.block ∧ (page.Fit → page'.Fit) := by
  simp only [Page.place, Prod.mk.injEq] at h
  obtain ⟨hdev, hblock, hwriteback, hdropped⟩ := h
  exact ⟨hdev, hblock, fun hfit => ⟨hdev ▸ hfit.device, hblock ▸ hfit.block,
    hwriteback.trans hfit.idle, hdropped.trans hfit.kept⟩⟩

namespace Cache

/-- The lists have the pages that they should have, there is one page for a block of a
device, and a mapping has pages of its device. -/
structure Ok (s : Cache) : Prop where
  listed : ∀ id, id ∈ s.lru ↔ ∃ page, s.page id = some page
  dirtyListed : ∀ id, id ∈ s.dirtyList ↔ ∃ page, s.page id = some page ∧ page.dirty = true
  keys : ∀ i j p q, s.page i = some p → s.page j = some q → p.dev = q.dev → p.block = q.block →
    i = j
  assoc : ∀ a ∈ s.associations, ∃ page, s.page a.page = some page ∧ page.dev = a.mapping.dev
  fit : ∀ id page, s.page id = some page → page.Fit
  unused : ∀ id, s.fresh ≤ id → s.page id = none

section Pages

variable {s s' : Cache} {id : Nat} {page : Page}

section

variable {page' : Page} (hs : s'.page = update s.page id (some page'))
include hs

/-- The pages after one has changed. -/
theorem page_self : s'.page id = some page' := by
  rw [hs, update_self]

theorem page_ne {i : Nat} (hi : i ≠ id) : s'.page i = s.page i := by
  rw [hs, update_of_ne hi]

theorem update_some {p : Page} {i : Nat} (hp : s'.page i = some p) :
    i = id ∧ p = page' ∨ i ≠ id ∧ s.page i = some p := by
  by_cases hi : i = id
  · rw [hi, page_self hs] at hp
    exact .inl ⟨hi, (Option.some.inj hp).symm⟩
  · rw [page_ne hs hi] at hp
    exact .inr ⟨hi, hp⟩

/-- Every page has the key that it had. -/
theorem page_old (hpage : s.page id = some page) (hdev : page'.dev = page.dev)
    (hblock : page'.block = page.block) {i : Nat} {p : Page} (hp : s'.page i = some p) :
    ∃ q, s.page i = some q ∧ p.dev = q.dev ∧ p.block = q.block := by
  rcases update_some hs hp with ⟨rfl, rfl⟩ | ⟨-, hp⟩
  · exact ⟨page, hpage, hdev, hblock⟩
  · exact ⟨p, hp, rfl, rfl⟩

end

section

variable (hpage : s.page id = some page)
include hpage

theorem modify_eq (change : Page → Page) : s.modify id change = s.setPage id (change page) := by
  rw [modify, hpage]

theorem clearDirty_eq : s.pageCacheClearDirty id =
      { s with dirtyList := s.dirtyList.filter (· ≠ id) }.setPage id page.clean := by
  rw [pageCacheClearDirty, modify]
  rw [hpage]

theorem hold_self : (s.hold id).page id = some { page with refcount := page.refcount + 1 } := by
  rw [Cache.hold, modify_eq hpage]
  exact page_self rfl

/-- A page that is changed and changed back. -/
theorem setPage_restore (page' : Page) :
    update (update s.page id (some page')) id (some page) = s.page := by
  rw [update_idem, ← hpage, update_eq_self]

end

/-- The pages after one has gone. -/
theorem freePage_some {i : Nat} :
    (s.pageCacheFreePage id).page i = some page ↔ i ≠ id ∧ s.page i = some page := by
  change update s.page id none i = some page ↔ _
  by_cases hi : i = id
  · rw [hi, update_self]
    exact ⟨fun hnone => absurd hnone.symm (Option.some_ne_none page),
      fun hboth => absurd rfl hboth.1⟩
  · rw [update_of_ne hi]
    exact ⟨fun hp => ⟨hi, hp⟩, fun hboth => hboth.2⟩

theorem freePage_rest (s : Cache) (id : Nat) :
    (s.pageCacheFreePage id).dirtyList = s.dirtyList.filter (· ≠ id) ∧
      (s.pageCacheFreePage id).fresh = s.fresh ∧ (s.pageCacheFreePage id).disk = s.disk := by
  rw [pageCacheFreePage, pageCacheClearDirty, modify]
  split <;> exact ⟨rfl, rfl, rfl⟩

namespace Ok

section

variable (h : Ok s)
include h

/-- What `Ok` depends on. -/
theorem congr (hpage : s'.page = s.page) (hlru : ∀ id, id ∈ s'.lru ↔ id ∈ s.lru)
    (hdirty : s'.dirtyList = s.dirtyList) (hassoc : s'.associations = s.associations)
    (hfresh : s'.fresh = s.fresh) : Ok s' := by
  constructor
  · intro id
    rw [hlru, hpage]
    exact h.listed id
  · rw [hdirty, hpage]
    exact h.dirtyListed
  · rw [hpage]
    exact h.keys
  · rw [hassoc, hpage]
    exact h.assoc
  · rw [hpage]
    exact h.fit
  · rw [hfresh, hpage]
    exact h.unused

theorem dirty_iff (hpage : s.page id = some page) : id ∈ s.dirtyList ↔ page.dirty = true := by
  rw [h.dirtyListed, hpage]
  exact ⟨fun ⟨p, hp, hdirty⟩ => by rwa [Option.some.inj hp], fun hdirty => ⟨page, rfl, hdirty⟩⟩

section

variable (hpage : s.page id = some page) (page' : Page) (hplace : page'.place = page.place)
include hpage page' hplace

/-- One page changes, and the list of dirty pages with it. -/
theorem change (hs : s'.page = update s.page id (some page')) (hlru : ∀ i, i ∈ s'.lru ↔ i ∈ s.lru)
    (hdirty : ∀ i, i ∈ s'.dirtyList ↔ if i = id then page'.dirty = true else i ∈ s.dirtyList)
    (hassoc : s'.associations = s.associations) (hfresh : s'.fresh = s.fresh) : Ok s' := by
  obtain ⟨hdev, hblock, hfit⟩ := Page.place_eq hplace
  have hself := page_self hs
  constructor
  · intro i
    rw [hlru, h.listed]
    by_cases hi : i = id
    · rw [hi, hself, hpage]
      exact ⟨fun _ => ⟨page', rfl⟩, fun _ => ⟨page, rfl⟩⟩
    · rw [page_ne hs hi]
  · intro i
    rw [hdirty]
    by_cases hi : i = id
    · rw [if_pos hi, hi, hself]
      exact ⟨fun hdirty => ⟨page', rfl, hdirty⟩, fun ⟨p, hp, hdirty⟩ => by rwa [Option.some.inj hp]⟩
    · rw [if_neg hi, page_ne hs hi]
      exact h.dirtyListed i
  · intro i j p q hp hq hpq hblock'
    obtain ⟨p0, hp0, hpd, hpb⟩ := page_old hs hpage hdev hblock hp
    obtain ⟨q0, hq0, hqd, hqb⟩ := page_old hs hpage hdev hblock hq
    exact h.keys i j p0 q0 hp0 hq0 (by rw [← hpd, ← hqd, hpq]) (by rw [← hpb, ← hqb, hblock'])
  · rw [hassoc]
    intro a ha
    obtain ⟨p, hp, hmapping⟩ := h.assoc a ha
    by_cases hi : a.page = id
    · rw [hi] at hp ⊢
      rw [hpage] at hp
      cases hp
      exact ⟨page', hself, hdev.trans hmapping⟩
    · exact ⟨p, (page_ne hs hi).trans hp, hmapping⟩
  · intro i p hp
    rcases update_some hs hp with ⟨-, rfl⟩ | ⟨-, hp⟩
    · exact hfit (h.fit id page hpage)
    · exact h.fit i p hp
  · intro i hi
    rw [hfresh] at hi
    have hne : i ≠ id := by
      rintro rfl
      rw [h.unused i hi] at hpage
      cases hpage
    rw [page_ne hs hne]
    exact h.unused i hi

theorem setPage (hdirty : page'.dirty = page.dirty) : Ok (s.setPage id page') := by
  refine h.change hpage page' hplace rfl (fun _ => Iff.rfl) (fun i => ?_) rfl rfl
  split_ifs with hi
  · rw [hi, hdirty]
    exact h.dirty_iff hpage
  · exact Iff.rfl

end

theorem clearDirty (id : Nat) : Ok (s.pageCacheClearDirty id) := by
  cases hpage : s.page id with
  | none =>
    have hclean : s.dirtyList.filter (· ≠ id) = s.dirtyList := by
      rw [List.filter_eq_self]
      intro i hi
      obtain ⟨p, hp, -⟩ := (h.dirtyListed i).mp hi
      rw [decide_eq_true_eq]
      rintro rfl
      rw [hpage] at hp
      cases hp
    rw [pageCacheClearDirty, modify]
    rw [hpage, hclean]
    exact h
  | some page =>
    rw [clearDirty_eq hpage]
    refine h.change hpage page.clean rfl rfl (fun _ => Iff.rfl) (fun i => ?_) rfl rfl
    dsimp only [Cache.setPage]
    rw [List.mem_filter, decide_eq_true_eq]
    split_ifs with hi
    · exact ⟨fun hboth => absurd hi hboth.2, fun hfalse => by cases hfalse⟩
    · exact ⟨fun hboth => hboth.1, fun hmem => ⟨hmem, hi⟩⟩

section

variable (hpage : s.page id = some page)
include hpage

theorem markDirty : Ok (s.pageCacheMarkDirty id) := by
  rw [pageCacheMarkDirty, hpage]
  refine h.change hpage { page with dirty := true, uptodate := true } rfl rfl (fun _ => Iff.rfl)
    (fun i => ?_) rfl rfl
  dsimp only [Cache.setPage]
  by_cases hdirty : page.dirty = true
  · split_ifs with hi
    · rw [hi, h.dirty_iff hpage]
      exact iff_of_true hdirty rfl
    · exact Iff.rfl
  · rw [if_neg hdirty, List.mem_append, List.mem_singleton]
    split_ifs with hi
    · exact iff_of_true (.inr hi) rfl
    · exact or_iff_left hi

theorem touch : Ok (s.touch id) := by
  refine h.congr rfl (fun i => ?_) rfl rfl rfl
  change i ∈ s.lru.filter (· ≠ id) ++ [id] ↔ i ∈ s.lru
  rw [List.mem_append, List.mem_filter, List.mem_singleton, decide_eq_true_eq]
  constructor
  · rintro (hboth | rfl)
    · exact hboth.1
    · exact (h.listed i).mpr ⟨page, hpage⟩
  · intro hi
    by_cases hne : i = id
    · exact .inr hne
    · exact .inl ⟨hi, hne⟩

theorem hold : Ok (s.hold id) := by
  rw [Cache.hold, modify_eq hpage]
  exact h.setPage hpage _ rfl rfl

end

theorem freePage (id : Nat) : Ok (s.pageCacheFreePage id) := by
  obtain ⟨hdirty, hfresh, -⟩ := s.freePage_rest id
  constructor
  · intro i
    change i ∈ s.lru.filter (· ≠ id) ↔ _
    simp only [List.mem_filter, decide_eq_true_eq, h.listed, freePage_some]
    exact ⟨fun ⟨⟨p, hp⟩, hi⟩ => ⟨p, hi, hp⟩, fun ⟨p, hi, hp⟩ => ⟨⟨p, hp⟩, hi⟩⟩
  · intro i
    simp only [hdirty, List.mem_filter, decide_eq_true_eq, h.dirtyListed, freePage_some]
    exact ⟨fun ⟨⟨p, hp, hd⟩, hi⟩ => ⟨p, ⟨hi, hp⟩, hd⟩, fun ⟨p, ⟨hi, hp⟩, hd⟩ => ⟨⟨p, hp, hd⟩, hi⟩⟩
  · intro i j p q hp hq
    exact h.keys i j p q (freePage_some.mp hp).2 (freePage_some.mp hq).2
  · intro a ha
    obtain ⟨hmem, hne⟩ := List.mem_filter.mp (show a ∈ s.associations.filter (·.page ≠ id) from ha)
    obtain ⟨p, hp, hmapping⟩ := h.assoc a hmem
    exact ⟨p, freePage_some.mpr ⟨of_decide_eq_true hne, hp⟩, hmapping⟩
  · intro i p hp
    exact h.fit i p (freePage_some.mp hp).2
  · intro i hi
    rw [hfresh] at hi
    rw [Option.eq_none_iff_forall_ne_some]
    intro p hp
    cases (h.unused i hi).symm.trans (freePage_some.mp hp).2

theorem addPage {dev block : Nat} (hdev : major dev < nrBlockDevices) (hblock : block < 2 ^ 61)
    (hnew : ∀ i p, s.page i = some p → ¬ (p.dev = dev ∧ p.block = block)) :
    Ok (s.addPage dev block) := by
  have hself : (s.addPage dev block).page s.fresh = some (newPage dev block) :=
    update_self ..
  have hother : ∀ i, i ≠ s.fresh → (s.addPage dev block).page i = s.page i :=
    fun i hi => update_of_ne hi ..
  have hused : ∀ i p, s.page i = some p → i ≠ s.fresh := by
    rintro i p hp rfl
    rw [h.unused _ (Nat.le_refl _)] at hp
    cases hp
  have hcases := fun i p => @update_some s (s.addPage dev block) s.fresh (newPage dev block) rfl p i
  constructor
  · intro i
    change i ∈ s.lru ++ [s.fresh] ↔ _
    rw [List.mem_append, List.mem_singleton, h.listed]
    constructor
    · rintro (⟨p, hp⟩ | rfl)
      · exact ⟨p, (hother i (hused i p hp)).trans hp⟩
      · exact ⟨_, hself⟩
    · rintro ⟨p, hp⟩
      rcases hcases i p hp with ⟨hi, -⟩ | ⟨-, hp⟩
      · exact .inr hi
      · exact .inl ⟨p, hp⟩
  · intro i
    change i ∈ s.dirtyList ↔ _
    rw [h.dirtyListed]
    constructor
    · rintro ⟨p, hp, hdirty⟩
      exact ⟨p, (hother i (hused i p hp)).trans hp, hdirty⟩
    · rintro ⟨p, hp, hdirty⟩
      rcases hcases i p hp with ⟨-, rfl⟩ | ⟨-, hp⟩
      · cases hdirty
      · exact ⟨p, hp, hdirty⟩
  · intro i j p q hp hq hdev hblock
    rcases hcases i p hp with ⟨hi, rfl⟩ | ⟨-, hp⟩ <;>
      rcases hcases j q hq with ⟨hj, rfl⟩ | ⟨-, hq⟩
    · rw [hi, hj]
    · exact absurd ⟨hdev.symm, hblock.symm⟩ (hnew j q hq)
    · exact absurd ⟨hdev, hblock⟩ (hnew i p hp)
    · exact h.keys i j p q hp hq hdev hblock
  · intro a ha
    obtain ⟨p, hp, hmapping⟩ := h.assoc a ha
    exact ⟨p, (hother _ (hused _ p hp)).trans hp, hmapping⟩
  · intro i p hp
    rcases hcases i p hp with ⟨-, rfl⟩ | ⟨-, hp⟩
    · exact ⟨hdev, hblock, rfl, rfl⟩
    · exact h.fit i p hp
  · intro i hi
    have hlt : s.fresh + 1 ≤ i := hi
    rw [hother i (by omega)]
    exact h.unused i (by omega)

/-- `page_cache_put_page` only counts, since no page has been dropped. -/
theorem putPage_eq (hpage : s.page id = some page) :
    s.pageCachePutPage id = s.setPage id { page with refcount := page.refcount - 1 } := by
  rw [pageCachePutPage, hpage]
  dsimp only
  rw [if_neg]
  rintro ⟨-, hdropped⟩
  rw [(h.fit id page hpage).kept] at hdropped
  cases hdropped

theorem find_some {dev block : Nat} (hfind : s.pageCacheFind dev block = some id) :
    ∃ page, s.page id = some page ∧ page.dev = dev ∧ page.block = block := by
  obtain ⟨page, hpage⟩ := (h.listed id).mp (List.mem_of_find?_eq_some hfind)
  have hmatch := List.find?_some hfind
  rw [hpage] at hmatch
  rw [Bool.and_eq_true, beq_iff_eq, beq_iff_eq] at hmatch
  exact ⟨page, hpage, hmatch⟩

theorem find_none {dev block : Nat} (hfind : s.pageCacheFind dev block = none)
    (hpage : s.page id = some page) : ¬ (page.dev = dev ∧ page.block = block) := by
  rintro ⟨hdev, hblock⟩
  have hno := List.find?_eq_none.mp hfind id ((h.listed id).mpr ⟨page, hpage⟩)
  rw [hpage] at hno
  dsimp only at hno
  rw [hdev, hblock, beq_self_eq_true, beq_self_eq_true] at hno
  exact hno rfl

end

end Ok

end Pages

end Cache

end CuteOS.Block
