/-
  Block/Sync.lean --- a successful sync means that the data are on the devices.
-/
import CuteOS.Block.Writeback

set_option autoImplicit false

namespace CuteOS.Block

open Lib

namespace Cache

/-- Pages that are in scope: all pages, or the pages of a mapping. -/
abbrev InScope (s : Cache) (scope : Option Mapping) (id : Nat) : Prop :=
  s.pageCacheHasMapping id scope = true

/-- What a sync of the pages in scope does, whatever it returns: a page is as before, or it was
dirty and in scope, is clean, and its block has its bytes; and every byte that is new is
a byte of such a page, at its own place. -/
structure Synced (s : Cache) (scope : Option Mapping) (s' : Cache) : Prop where
  kept : ∀ id p, s.page id = some p → s'.page id = some p ∨
    p.dirty = true ∧ s.InScope scope id ∧ s'.page id = some p.clean ∧
      blockOf s'.disk p.key = p.data
  only : ∀ k x, blockOf s'.disk k x = blockOf s.disk k x ∨
    ∃ id p, s.page id = some p ∧ p.dirty = true ∧ s.InScope scope id ∧ p.key = k ∧
      blockOf s'.disk k x = p.data x
  associations : s'.associations = s.associations

/-- No page in scope is dirty. -/
def AllClean (s : Cache) (scope : Option Mapping) : Prop :=
  ∀ id p, s.page id = some p → s.InScope scope id → p.dirty = false

/-- A sync that ends, and that is complete if it returns zero. -/
def SyncsTo (s : Cache) (scope : Option Mapping) (r : Option (Except Errno Unit × Cache)) : Prop :=
  ∃ ret s', r = some (ret, s') ∧ Synced s scope s' ∧ (ret = .ok () → s'.AllClean scope)

/-- Dirty pages in scope that lie on one block of one device have the same bytes. -/
def NoConflict (s : Cache) (scope : Option Mapping) : Prop :=
  ∀ i j p q, s.page i = some p → s.page j = some q → p.dirty = true → q.dirty = true →
    s.InScope scope i → s.InScope scope j → p.key = q.key → p.data = q.data

section Loops

variable {s s' s'' : Cache} {scope : Option Mapping} {id : Nat} {start : Page}

theorem Synced.refl (s : Cache) (scope : Option Mapping) : Synced s scope s :=
  ⟨fun _ _ hp => .inl hp, fun _ _ => .inl rfl, rfl⟩

section

variable (h : Synced s scope s')
include h

theorem Synced.inScope (id : Nat) : s'.InScope scope id ↔ s.InScope scope id := by
  cases scope with
  | none => exact Iff.rfl
  | some mapping => rw [InScope, InScope, pageCacheHasMapping, pageCacheHasMapping, h.associations]

/-- The pages after a sync are pages before it. -/
theorem Synced.dirty {p : Page} (hp : s.page id = some p)
    {q : Page} (hq : s'.page id = some q) (hdirty : q.dirty = true) : q = p := by
  rcases h.kept id p hp with hsame | ⟨-, -, hclean, -⟩
  · exact Option.some.inj (hq.symm.trans hsame)
  · obtain rfl := Option.some.inj (hq.symm.trans hclean)
    cases hdirty

theorem Synced.trans (h' : Synced s' scope s'') (hno : NoConflict s scope)
    (hback : ∀ id q, s'.page id = some q → ∃ p, s.page id = some p) : Synced s scope s'' := by
  have hnew : ∀ k x, blockOf s''.disk k x = blockOf s'.disk k x ∨
      ∃ id p, s.page id = some p ∧ p.dirty = true ∧ s.InScope scope id ∧ p.key = k ∧
        blockOf s''.disk k x = p.data x := by
    intro k x
    rcases h'.only k x with hold | ⟨i, q, hq, hdirty, hscope, hkey, hbyte⟩
    · exact .inl hold
    · obtain ⟨p, hp⟩ := hback i q hq
      obtain rfl := h.dirty hp hq hdirty
      exact .inr ⟨i, q, hp, hdirty, (h.inScope i).mp hscope, hkey, hbyte⟩
  refine ⟨fun i p hp => ?_, fun k x => ?_, h'.associations.trans h.associations⟩
  · rcases h.kept i p hp with hsame | ⟨hdirty, hscope, hclean, hblock⟩
    · rcases h'.kept i p hsame with hsame' | ⟨hdirty, hscope, hclean, hblock⟩
      · exact .inl hsame'
      · exact .inr ⟨hdirty, (h.inScope i).mp hscope, hclean, hblock⟩
    · -- a page that was written stays as it is, and so does its block
      refine .inr ⟨hdirty, hscope, ?_, ?_⟩
      · rcases h'.kept i p.clean hclean with hsame | ⟨hfalse, -⟩
        · exact hsame
        · cases hfalse
      · funext x
        rcases hnew p.key x with hold | ⟨j, q, hq, hqdirty, hqscope, hkey, hbyte⟩
        · rw [hold, hblock]
        · rw [hbyte, hno j i q p hq hp hqdirty hdirty hqscope hscope hkey]
  · rcases hnew k x with hold | hnew
    · rw [hold]
      exact h.only k x
    · exact .inr hnew

end

theorem Wrote.synced {r : Except Errno Unit × Cache} (h : Wrote s scope id start r) :
    Synced s scope r.2 := by
  obtain ⟨ids, disk, tick, buf, hpicked, -, hcases⟩ := h
  have honly : ∀ all, Reached s ids all disk → ∀ k x, blockOf disk k x = blockOf s.disk k x ∨
      ∃ id p, s.page id = some p ∧ p.dirty = true ∧ s.InScope scope id ∧ p.key = k ∧
        blockOf disk k x = p.data x := by
    intro all hreached k x
    by_cases hk : ∀ i ∈ ids, ∀ p, s.page i = some p → p.key ≠ k
    · exact .inl (congrFun (hreached.other k hk) x)
    · push Not at hk
      obtain ⟨i, hi, p, hp, rfl⟩ := hk
      obtain ⟨p', hp', hdirty, hscope⟩ := hpicked.mem hi
      obtain rfl := Option.some.inj (hp.symm.trans hp')
      rcases hreached.mine i hi p hp x with hbyte | ⟨-, hbyte⟩
      · exact .inr ⟨i, p, hp, hdirty, hscope, rfl, hbyte⟩
      · exact .inl hbyte
  rcases hcases with ⟨e, rfl, -, hreached⟩ | ⟨rfl, -, hreached⟩
  · exact ⟨fun _ _ hp => .inl hp, honly false hreached, rfl⟩
  · rw [clearDirty_fold]
    refine ⟨fun i p hp => ?_, honly true hreached, rfl⟩
    by_cases hi : i ∈ ids
    · obtain ⟨p', hp', hdirty, hscope⟩ := hpicked.mem hi
      obtain rfl := Option.some.inj (hp.symm.trans hp')
      refine .inr ⟨hdirty, hscope, ?_, hreached.all hi hp⟩
      dsimp only [mapPages]
      rw [if_pos hi, hp]
      rfl
    · exact .inl ((if_neg hi).trans hp)

/-- `next` finds a dirty page in scope if there is one. -/
structure Finds (scope : Option Mapping) (next : Cache → Option Nat) : Prop where
  some : ∀ s id, Ok s → next s = some id →
    ∃ p, s.page id = some p ∧ p.dirty = true ∧ s.InScope scope id
  none : ∀ s, Ok s → next s = none → s.AllClean scope

theorem finds_dirtyOf (mapping : Mapping) : Finds (some mapping) (dirtyOf mapping) := by
  constructor
  · intro s id hok hnext
    obtain ⟨assoc, hfind, rfl⟩ := Option.map_eq_some_iff.mp hnext
    have hmatch := List.find?_some hfind
    rw [decide_eq_true_eq] at hmatch
    obtain ⟨p, hp, -⟩ := hok.assoc assoc (List.mem_of_find?_eq_some hfind)
    have hdirty := hmatch.2
    rw [hp] at hdirty
    refine ⟨p, hp, hdirty, List.any_eq_true.mpr ⟨assoc, List.mem_of_find?_eq_some hfind, ?_⟩⟩
    exact decide_eq_true ⟨rfl, hmatch.1⟩
  · intro s _ hnext id p hp hscope
    obtain ⟨assoc, hmem, hassoc⟩ := List.any_eq_true.mp hscope
    obtain ⟨hpage, hmapping⟩ := of_decide_eq_true hassoc
    have hno := List.find?_eq_none.mp (Option.map_eq_none_iff.mp hnext) assoc hmem
    rw [← Bool.not_eq_true]
    intro hdirty
    refine hno (decide_eq_true ⟨hmapping, ?_⟩)
    rw [hpage, hp]
    exact hdirty

theorem finds_head : Finds none (·.dirtyList.head?) := by
  constructor
  · intro s id hok hnext
    obtain ⟨p, hp, hdirty⟩ := (hok.dirtyListed id).mp (List.mem_of_mem_head? hnext)
    exact ⟨p, hp, hdirty, rfl⟩
  · intro s hok hnext id p hp _
    rw [← Bool.not_eq_true]
    intro hdirty
    have hmem := (hok.dirty_iff hp).mpr hdirty
    rw [List.head?_eq_none_iff.mp hnext] at hmem
    cases hmem

/-- After a round there are less dirty pages. -/
theorem Wrote.less (hok : Ok s) (hpage : s.page id = some start) (hdirty : start.dirty = true)
    (h : Wrote s scope id start (.ok (), s')) :
    Ok s' ∧ s'.dirtyList.length < s.dirtyList.length ∧
      (∀ i q, s'.page i = some q → ∃ p, s.page i = some p) ∧
      ∀ dev, Works s dev → Works s' dev := by
  obtain ⟨ids, disk, tick, buf, -, hbuf, ⟨e, heq, -⟩ | ⟨heq, hmem, -⟩⟩ := h
  · cases heq
  obtain rfl := congrArg Prod.snd heq
  have hokFold := (hok.written disk tick buf).clearDirty_fold ids
  refine ⟨hokFold, ?_⟩
  rw [clearDirty_fold]
  refine ⟨?_, fun i q hq => ?_, fun dev hworks => ?_⟩
  · refine List.length_filter_lt_length_iff_exists.mpr ⟨id, (hok.dirty_iff hpage).mpr hdirty, ?_⟩
    rw [decide_eq_true_eq]
    exact fun hnot => hnot hmem
  · dsimp only [mapPages] at hq
    split_ifs at hq
    · obtain ⟨p, hp, -⟩ := Option.map_eq_some_iff.mp hq
      exact ⟨p, hp⟩
    · exact ⟨q, hq⟩
  · exact ⟨⟨hbuf hworks.buffer.1, hworks.buffer.2⟩, hworks.device, hworks.transfers⟩

theorem Synced.noConflict (h : Synced s scope s') (hno : NoConflict s scope)
    (hback : ∀ id q, s'.page id = some q → ∃ p, s.page id = some p) : NoConflict s' scope := by
  intro i j p q hp hq hpd hqd hi hj hkey
  obtain ⟨p0, hp0⟩ := hback i p hp
  obtain ⟨q0, hq0⟩ := hback j q hq
  obtain rfl := h.dirty hp0 hp hpd
  obtain rfl := h.dirty hq0 hq hqd
  exact hno i j p q hp0 hq0 hpd hqd ((h.inScope i).mp hi) ((h.inScope j).mp hj) hkey

/-- The loops end, and do what they should.  If nothing fails, they return zero. -/
theorem syncLoop_spec {next : Cache → Option Nat} (hfinds : Finds scope next) (rounds : Nat)
    (hok : Ok s) (hrounds : s.dirtyList.length < rounds) :
    ∃ ret s', syncLoop scope next rounds s = some (ret, s') ∧
      (NoConflict s scope → Synced s scope s' ∧ (ret = .ok () → s'.AllClean scope)) ∧
      ((∀ dev, major dev < nrBlockDevices → Works s dev) → ret = .ok ()) := by
  induction rounds generalizing s with
  | zero => exact absurd hrounds (Nat.not_lt_zero _)
  | succ rounds ih =>
    rw [syncLoop]
    cases hnext : next s with
    | none =>
      exact ⟨.ok (), s, rfl, fun _ => ⟨.refl s scope, fun _ => hfinds.none s hok hnext⟩, fun _ => rfl⟩
    | some id =>
      obtain ⟨start, hpage, hdirty, hscope⟩ := hfinds.some s id hok hnext
      obtain ⟨⟨ret, s1⟩, hr⟩ : ∃ r, (s.hold id).pageCacheWbRun id scope = r := ⟨_, rfl⟩
      have hwrote := round_spec hok hpage hdirty hscope hr
      have hsynced := hwrote.synced
      dsimp only at hwrote hsynced ⊢
      rw [hr]
      cases ret with
      | error e =>
        refine ⟨_, _, rfl, fun _ => ⟨hsynced, fun hfalse => by cases hfalse⟩, fun hworks => ?_⟩
        obtain ⟨ids, disk, tick, buf, -, -, ⟨e', -, hnot, -⟩ | ⟨heq, -⟩⟩ := hwrote
        · exact absurd (hworks _ (hok.fit id start hpage).device) hnot
        · cases heq
      | ok u =>
        obtain ⟨hok1, hless, hback, hworks1⟩ := hwrote.less hok hpage hdirty
        obtain ⟨ret, s2, hrest, hrestSynced, hrestOk⟩ := ih hok1 (by omega)
        refine ⟨ret, s2, hrest, fun hno => ?_,
          fun hworks => hrestOk fun dev hdev => hworks1 dev (hworks dev hdev)⟩
        obtain ⟨hsynced2, hdone⟩ := hrestSynced (hsynced.noConflict hno hback)
        exact ⟨hsynced.trans hsynced2 hno hback, hdone⟩

/-- A sync that returns zero has written every page in scope that was dirty. -/
theorem SyncsTo.noConflict (h : SyncsTo s scope (some (.ok (), s'))) : NoConflict s scope := by
  obtain ⟨ret, s1, heq, hsynced, hdone⟩ := h
  cases heq
  have hwritten : ∀ i p, s.page i = some p → p.dirty = true → s.InScope scope i →
      blockOf s'.disk p.key = p.data := by
    intro i p hp hdirty hscope
    rcases hsynced.kept i p hp with hsame | ⟨-, -, -, hblock⟩
    · have hclean := hdone rfl i p hsame ((hsynced.inScope i).mpr hscope)
      rw [hdirty] at hclean
      cases hclean
    · exact hblock
  intro i j p q hp hq hpd hqd hi hj hkey
  rw [← hwritten i p hp hpd hi, ← hwritten j q hq hqd hj, hkey]

/-- The pages of a mapping are pages of one device number, so they do not conflict. -/
theorem Ok.noConflict (hok : Ok s) (mapping : Mapping) : NoConflict s (some mapping) := by
  have hdev : ∀ i p, s.page i = some p → s.InScope (some mapping) i → p.dev = mapping.dev := by
    intro i p hp hscope
    obtain ⟨assoc, hmem, hassoc⟩ := List.any_eq_true.mp hscope
    obtain ⟨rfl, rfl⟩ := of_decide_eq_true hassoc
    obtain ⟨p', hp', hmapping⟩ := hok.assoc assoc hmem
    rw [Option.some.inj (hp.symm.trans hp'), hmapping]
  intro i j p q hp hq _ _ hi hj hkey
  obtain rfl := hok.keys i j p q hp hq ((hdev i p hp hi).trans (hdev j q hq hj).symm)
    (Prod.mk.inj hkey).2
  rw [Option.some.inj (hp.symm.trans hq)]

end Loops

/-- The same pages in the same lists, over any devices, whatever they answer. -/
structure SamePages (s s' : Cache) : Prop where
  page : s'.page = s.page
  fresh : s'.fresh = s.fresh
  lru : s'.lru = s.lru
  dirtyList : s'.dirtyList = s.dirtyList
  associations : s'.associations = s.associations

theorem Ok.samePages {s s' : Cache} (hok : Ok s) (h : SamePages s s') : Ok s' :=
  hok.congr h.page (fun _ => by rw [h.lru]) h.dirtyList h.associations h.fresh

theorem SamePages.noConflict {s s' : Cache} (h : SamePages s s') :
    NoConflict s' none ↔ NoConflict s none := by
  rw [NoConflict, h.page]
  exact Iff.rfl

/-- `page_cache_sync_mapping` always does what it should.  `page_cache_sync_all` does so on
all devices just when no two dirty pages conflict. -/
theorem sync_reaches_device_iff {s : Cache} (hok : Ok s) :
    (∀ s', SamePages s s' → ∀ mapping rounds, s'.dirtyList.length < rounds →
      SyncsTo s' (some mapping) (pageCacheSyncMapping mapping rounds s')) ∧
    ((∀ s', SamePages s s' → ∀ rounds, s'.dirtyList.length < rounds →
      SyncsTo s' none (pageCacheSyncAll rounds s')) ↔ NoConflict s none) := by
  refine ⟨fun s' hsame mapping rounds hrounds => ?_, fun hall => ?_,
    fun hno s' hsame rounds hrounds => ?_⟩
  · have hok' := hok.samePages hsame
    obtain ⟨ret, s1, hrun, hsyncs, -⟩ := syncLoop_spec (finds_dirtyOf mapping) rounds hok' hrounds
    exact ⟨ret, s1, hrun, hsyncs (hok'.noConflict mapping)⟩
  · -- devices that never fail
    let s' : Cache := { s with
      wbBuf := some fun _ => 0
      wbPages := pageCacheWbMax
      devTable := fun _ => true
      answers := ⟨fun _ => true, fun _ => true, fun _ => 0⟩ }
    have hsame : SamePages s s' := ⟨rfl, rfl, rfl, rfl, rfl⟩
    have hworks : ∀ dev, major dev < nrBlockDevices → Works s' dev := by
      intro dev hdev
      refine ⟨⟨Option.some_ne_none _, (by decide : pageCacheWbMax ≠ 0)⟩, ?_, fun _ => rfl⟩
      rw [lookupBlockDevice, decide_eq_true hdev]
      rfl
    obtain ⟨ret, s'', hrun, -, hret⟩ := syncLoop_spec finds_head (s'.dirtyList.length + 1)
      (hok.samePages hsame) (Nat.lt_succ_self _)
    have hsyncs := hall s' hsame (s'.dirtyList.length + 1) (Nat.lt_succ_self _)
    rw [pageCacheSyncAll, hrun, hret hworks] at hsyncs
    exact hsame.noConflict.mp hsyncs.noConflict
  · obtain ⟨ret, s1, hrun, hsyncs, -⟩ := syncLoop_spec finds_head rounds (hok.samePages hsame) hrounds
    exact ⟨ret, s1, hrun, hsyncs (hsame.noConflict.mpr hno)⟩

/-! ## Two dirty pages -/

/-- A dirty page of block 5. -/
def dirtyPage (dev : Nat) (byte : UInt8) : Page :=
  { newPage dev 5 with data := fun _ => byte, uptodate := true, dirty := true }

/-- A cache of two dirty pages of block 5, for the device numbers `dev` and `dev'`. -/
def twoPages (dev dev' : Nat) : Cache where
  page id := if id = 0 then some (dirtyPage dev 1) else if id = 1 then some (dirtyPage dev' 2) else none
  fresh := 2
  lru := [0, 1]
  dirtyList := [0, 1]
  associations := []
  pages := 2
  wbBuf := some fun _ => 0
  wbPages := pageCacheWbMax
  devTable _ := true
  disk _ _ := 0
  answers := ⟨fun _ => true, fun _ => true, fun _ => 0⟩
  tick := 0

theorem twoPages_page {dev dev' id : Nat} {p : Page} (h : (twoPages dev dev').page id = some p) :
    id = 0 ∧ p = dirtyPage dev 1 ∨ id = 1 ∧ p = dirtyPage dev' 2 := by
  dsimp only [twoPages] at h
  split_ifs at h with h0 h1
  · exact .inl ⟨h0, (Option.some.inj h).symm⟩
  · exact .inr ⟨h1, (Option.some.inj h).symm⟩

theorem ok_twoPages {dev dev' : Nat} (hne : dev ≠ dev') (hdev : major dev < nrBlockDevices)
    (hdev' : major dev' < nrBlockDevices) : Ok (twoPages dev dev') := by
  have hlisted : ∀ id, id ∈ [0, 1] ↔
      ∃ p, (twoPages dev dev').page id = some p ∧ p.dirty = true := by
    intro id
    simp only [List.mem_cons, List.not_mem_nil, or_false]
    constructor
    · rintro (rfl | rfl)
      · exact ⟨_, rfl, rfl⟩
      · exact ⟨_, rfl, rfl⟩
    · rintro ⟨p, hp, -⟩
      exact (twoPages_page hp).imp And.left And.left
  refine ⟨fun id => (hlisted id).trans ?_, hlisted, ?_, fun a ha => (by cases ha), ?_, ?_⟩
  · refine ⟨fun ⟨p, hp, _⟩ => ⟨p, hp⟩, fun ⟨p, hp⟩ => ⟨p, hp, ?_⟩⟩
    rcases twoPages_page hp with ⟨-, rfl⟩ | ⟨-, rfl⟩ <;> rfl
  · intro i j p q hp hq hsame _
    rcases twoPages_page hp with ⟨rfl, rfl⟩ | ⟨rfl, rfl⟩ <;>
      rcases twoPages_page hq with ⟨rfl, rfl⟩ | ⟨rfl, rfl⟩
    · rfl
    · exact absurd hsame hne
    · exact absurd hsame.symm hne
    · rfl
  · intro id p hp
    rcases twoPages_page hp with ⟨-, rfl⟩ | ⟨-, rfl⟩
    · exact ⟨hdev, (by decide : 5 < 2 ^ 61), rfl, rfl⟩
    · exact ⟨hdev', (by decide : 5 < 2 ^ 61), rfl, rfl⟩
  · intro id hid
    have htwo : 2 ≤ id := hid
    dsimp only [twoPages]
    rw [if_neg (by omega), if_neg (by omega)]

/-- Block 5 of the devices with major numbers 8 and 9. -/
theorem sync_reaches_device_iff_twoPages : SyncsTo (twoPages (8 * 2 ^ 20) (9 * 2 ^ 20)) none
      (pageCacheSyncAll 3 (twoPages (8 * 2 ^ 20) (9 * 2 ^ 20))) := by
  have hok : Ok (twoPages (8 * 2 ^ 20) (9 * 2 ^ 20)) :=
    ok_twoPages (by decide) (by decide) (by decide)
  refine (sync_reaches_device_iff hok).2.mpr ?_ _ ⟨rfl, rfl, rfl, rfl, rfl⟩ 3 (by decide)
  intro i j p q hp hq _ _ _ _ hkey
  rcases twoPages_page hp with ⟨-, rfl⟩ | ⟨-, rfl⟩ <;>
    rcases twoPages_page hq with ⟨-, rfl⟩ | ⟨-, rfl⟩
  · rfl
  · exact absurd (congrArg Prod.fst hkey) (by decide)
  · exact absurd (congrArg Prod.fst hkey) (by decide)
  · rfl

/-- Two device numbers with the major number 8: `lookup_block_device` finds one device for
both, and the second page is written over the first one. -/
theorem sync_overwrites : Ok (twoPages (8 * 2 ^ 20) (8 * 2 ^ 20 + 1)) ∧
      ∃ s, pageCacheSyncAll 3 (twoPages (8 * 2 ^ 20) (8 * 2 ^ 20 + 1)) = some (.ok (), s) ∧
        s.disk 8 (5 * blockSize) = 2 ∧
        ¬ SyncsTo (twoPages (8 * 2 ^ 20) (8 * 2 ^ 20 + 1)) none (some (.ok (), s)) := by
  have hvalues : (pageCacheSyncAll 3 (twoPages (8 * 2 ^ 20) (8 * 2 ^ 20 + 1))).map
      (fun r => (r.1, r.2.disk 8 (5 * blockSize))) = some (.ok (), 2) := by decide +kernel
  obtain ⟨⟨ret, s⟩, hrun, hvalue⟩ := Option.map_eq_some_iff.mp hvalues
  obtain ⟨rfl, hbyte⟩ := Prod.mk.inj hvalue
  refine ⟨ok_twoPages (by decide) (by decide) (by decide), s, hrun, hbyte, fun hsyncs => ?_⟩
  have hsame := hsyncs.noConflict 0 1 _ _ rfl rfl rfl rfl rfl rfl rfl
  have hbytes := congrFun hsame ⟨0, by decide⟩
  exact absurd hbytes (by decide)

end Cache

end CuteOS.Block
