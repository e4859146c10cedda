import Rsock.IGroup

/-!
# Proofs: groups of conns

What `Flush` leaves of a group: a child that is alive is flushed and stays, one that is dead is closed.
From this, which traffic keeps a conn open. The verdict a `Flush` acts on was reached at the `Flush`
before it, from the interval that ended there.
-/

namespace Rsock

open CMem TransSys

namespace IGroup

variable {α : Type} {ops : ConnOps α} {g g' : IGroup α} {h h' : Heap α} {p q : Ptr} {c c' : α}
  {k : String}

/-- The group holds the conn at `p`. -/
def Holds (g : IGroup α) (p : Ptr) : Prop := ∃ k, (k, p) ∈ g.mConns.entries

/-- Every conn of the group exists and is stored under its own key. -/
def Inv (ops : ConnOps α) (g : IGroup α) : Prop :=
  ∀ e ∈ g.mConns.entries, ∃ c, g.mHeap.get? e.2 = some c ∧ ops.key c = e.1

/-- It holds of a group without conns. -/
theorem inv_empty (ops : ConnOps α) (key : String) : Inv ops { mKey := key } := by
  intro e he
  cases he

/-- A conn has one entry. -/
theorem Inv.eq_of_ptr (hI : Inv ops g) {e e' : String × Ptr} (he : e ∈ g.mConns.entries)
    (he' : e' ∈ g.mConns.entries) (h : e.2 = e'.2) : e = e' := by
  obtain ⟨c, hc, hk⟩ := hI e he
  obtain ⟨c', hc', hk'⟩ := hI e' he'
  rw [h, hc'] at hc
  obtain rfl : c' = c := Option.some.inj hc
  exact Prod.ext (hk.symm.trans hk') h

theorem Inv.nodup_ptrs (hI : Inv ops g) : (g.mConns.entries.map Prod.snd).Nodup := by
  refine (List.nodup_map_iff_inj_on g.mConns.nodup_entries).mpr ?_
  intro e he e' he' h
  exact hI.eq_of_ptr he he' h

theorem Inv.exists_of_holds (hI : Inv ops g) (hp : g.Holds p) : ∃ c, g.mHeap.get? p = some c := by
  obtain ⟨k, hk⟩ := hp
  obtain ⟨c, hc, -⟩ := hI _ hk
  exact ⟨c, hc⟩

theorem Inv.lt_of_holds (hI : Inv ops g) (hp : g.Holds p) : p < g.mHeap.cells.length := by
  obtain ⟨c, hc⟩ := hI.exists_of_holds hp
  exact Heap.lt_of_get? hc

/-- It is under its own key. -/
theorem Inv.key_of_mem (hI : Inv ops g) (hk : (k, p) ∈ g.mConns.entries)
    (hc : g.mHeap.get? p = some c) : ops.key c = k := by
  obtain ⟨c', hc', hkey⟩ := hI _ hk
  obtain rfl : c' = c := Option.some.inj (hc'.symm.trans hc)
  exact hkey

/-! ## Closing -/

/-- What `CloseConn` does, where it is no fault. -/
theorem closeConn_cases (hr : closeConn ops g p = .ok g') :
    ∃ c h', g.mHeap.get? p = some c ∧ g.connOfKey (ops.key c) = some p ∧
      g.mHeap.free p = .ok h' ∧
      g' = { g with mConns := g.mConns.erase (ops.key c), mHeap := h' } := by
  obtain ⟨c, hc, hr⟩ := bind_eq_ok.mp hr
  obtain ⟨-, -, hr⟩ := bind_eq_ok.mp hr
  obtain ⟨⟨⟩, hfound, hr⟩ := bind_eq_ok.mp hr
  obtain ⟨g₁, hg₁, hr⟩ := bind_eq_ok.mp hr
  obtain ⟨h', hfree, hr⟩ := bind_eq_ok.mp hr
  obtain ⟨c₁, hc₁, hret⟩ := bind_eq_ok.mp hg₁
  obtain rfl : c = c₁ := Except.ok.inj (hc.symm.trans hc₁)
  obtain rfl := Except.ok.inj hret
  exact ⟨c, h', Heap.deref_eq_ok.mp hc, cassert_eq_ok.mp hfound, hfree, (Except.ok.inj hr).symm⟩

theorem mem_of_connOfKey (hf : g.connOfKey k = some p) : (k, p) ∈ g.mConns.entries := by
  obtain ⟨e, he, rfl⟩ := Option.map_eq_some_iff.mp hf
  obtain ⟨hmem, hs⟩ := g.mConns.find?_eq_some_iff.mp he
  rw [same_string] at hs
  subst hs
  exact hmem

/-- Closing the conn at `p` takes out its entry and no other. -/
theorem mem_closeConn (hr : closeConn ops g p = .ok g') {e : String × Ptr} :
    e ∈ g'.mConns.entries ↔ e ∈ g.mConns.entries ∧ ∀ c, g.mHeap.get? p = some c → e.1 ≠ ops.key c := by
  obtain ⟨c, h', hc, -, -, rfl⟩ := closeConn_cases hr
  rw [StdMap.mem_erase, same_string]
  simp [hc]

theorem get?_closeConn_of_ne (hr : closeConn ops g p = .ok g') (hne : p ≠ q) :
    g'.mHeap.get? q = g.mHeap.get? q := by
  obtain ⟨c, h', -, -, hfree, rfl⟩ := closeConn_cases hr
  exact Heap.get?_free_of_ne hfree hne

theorem holds_closeConn_of_ne (hr : closeConn ops g p = .ok g') (hne : p ≠ q) :
    g'.Holds q ↔ g.Holds q := by
  refine exists_congr fun k => ?_
  rw [mem_closeConn hr]
  refine ⟨And.left, fun hk => ⟨hk, ?_⟩⟩
  rintro c hc rfl
  -- the entry under this key is that of `p`
  obtain ⟨c', -, hc', hfound, -, -⟩ := closeConn_cases hr
  obtain rfl : c' = c := Option.some.inj (hc'.symm.trans hc)
  have heq := g.mConns.eq_of_same (mem_of_connOfKey hfound) hk (StdMap.same_refl _)
  exact hne (Prod.ext_iff.mp heq).2

/-- A conn that is closed is not in the group any more. -/
theorem not_holds_closeConn_self (hI : Inv ops g) (hr : closeConn ops g p = .ok g') :
    ¬ g'.Holds p := by
  rintro ⟨k, hk⟩
  obtain ⟨hmem, hne⟩ := (mem_closeConn hr).mp hk
  obtain ⟨c, hc, hkey⟩ := hI _ hmem
  exact hne c hc hkey.symm

/-- The invariant holds without it. -/
theorem inv_closeConn (hI : Inv ops g) (hr : closeConn ops g p = .ok g') : Inv ops g' := by
  intro e he
  have hmem := ((mem_closeConn hr).mp he).1
  obtain ⟨c, hc, hkey⟩ := hI e hmem
  have hne : p ≠ e.2 := by
    intro heq
    exact not_holds_closeConn_self hI hr ⟨e.1, by rw [heq]; exact he⟩
  exact ⟨c, (get?_closeConn_of_ne hr hne).trans hc, hkey⟩

/-- Closing a number of conns. -/
theorem closeConns_spec {ps : List Ptr} (hI : Inv ops g) (hr : ps.foldlM (closeConn ops) g = .ok g') :
    Inv ops g' ∧ (∀ q ∈ ps, ¬ g'.Holds q) ∧
      ∀ q, q ∉ ps → (g'.Holds q ↔ g.Holds q) ∧ g'.mHeap.get? q = g.mHeap.get? q := by
  induction ps generalizing g with
  | nil =>
    obtain rfl : g = g' := Except.ok.inj hr
    exact ⟨hI, by simp, fun q _ => ⟨Iff.rfl, rfl⟩⟩
  | cons p ps ih =>
    rw [List.foldlM_cons] at hr
    obtain ⟨g₁, hg₁, hr⟩ := bind_eq_ok.mp hr
    obtain ⟨hI', hclosed, hothers⟩ := ih (inv_closeConn hI hg₁) hr
    refine ⟨hI', ?_, ?_⟩
    · intro q hq
      by_cases hqs : q ∈ ps
      · exact hclosed q hqs
      · obtain rfl : q = p := (List.mem_cons.mp hq).resolve_right hqs
        rw [(hothers q hqs).1]
        exact not_holds_closeConn_self hI hg₁
    · intro q hq
      rw [List.mem_cons, not_or] at hq
      obtain ⟨hh, hget⟩ := hothers q hq.2
      exact ⟨hh.trans (holds_closeConn_of_ne hg₁ (Ne.symm hq.1)),
        hget.trans (get?_closeConn_of_ne hg₁ (Ne.symm hq.1))⟩

/-- After closing every conn the group is empty. -/
theorem mConns_closeConns (hI : Inv ops g)
    (hr : (g.mConns.entries.map Prod.snd).foldlM (closeConn ops) g = .ok g') :
    g'.mConns = StdMap.empty := by
  obtain ⟨-, hclosed, hothers⟩ := closeConns_spec hI hr
  refine StdMap.eq_empty_of_entries (List.eq_nil_iff_forall_not_mem.mpr ?_)
  rintro ⟨k, p⟩ hmem
  by_cases hp : p ∈ g.mConns.entries.map Prod.snd
  · exact hclosed p hp ⟨k, hmem⟩
  · obtain ⟨k', hk'⟩ := (hothers p hp).1.mp ⟨k, hmem⟩
    exact hp (List.mem_map_of_mem hk')

/-! ## Flushing -/

/-- What a pass finds: those that are not alive. -/
theorem fails_spec {ops : LiveOps α} {l : List (String × Ptr)} {ps : List Ptr}
    (hr : fails ops h l = .ok ps) :
    (∀ e ∈ l, ∃ c b, h.get? e.2 = some c ∧ ops.alive c = .ok b) ∧
      ∀ p, p ∈ ps ↔ ∃ e ∈ l, e.2 = p ∧ ∃ c, h.get? p = some c ∧ ops.alive c = .ok false := by
  induction l generalizing ps with
  | nil =>
    obtain rfl : [] = ps := Except.ok.inj hr
    simp
  | cons e l ih =>
    obtain ⟨c, hc, hr⟩ := bind_eq_ok.mp hr
    obtain ⟨b, hb, hr⟩ := bind_eq_ok.mp hr
    obtain ⟨ps', hps', hr⟩ := bind_eq_ok.mp hr
    obtain rfl := Except.ok.inj hr
    obtain ⟨hall, hmem⟩ := ih hps'
    have hc' := Heap.deref_eq_ok.mp hc
    refine ⟨?_, ?_⟩
    · intro e' he'
      rcases List.mem_cons.mp he' with rfl | he'
      · exact ⟨c, b, hc', hb⟩
      · exact hall e' he'
    · intro p
      simp only [List.mem_cons, exists_eq_or_imp]
      cases b with
      | true =>
        rw [if_pos rfl, hmem p]
        refine ⟨.inr, ?_⟩
        rintro (⟨rfl, c', hc₁, hdead⟩ | hrest)
        · obtain rfl : c = c' := Option.some.inj (hc'.symm.trans hc₁)
          cases hb.symm.trans hdead
        · exact hrest
      | false =>
        rw [if_neg (by decide), List.mem_cons, hmem p]
        refine or_congr_left ⟨?_, ?_⟩
        · rintro rfl
          exact ⟨rfl, c, hc', hb⟩
        · rintro ⟨heq, -⟩
          exact heq.symm

/-- Every conn is flushed once. -/
theorem flushConns_spec {ops : LiveOps α} {l : List (String × Ptr)}
    (hnd : (l.map Prod.snd).Nodup) (hr : flushConns ops h l = .ok h') :
    (∀ e ∈ l, ∃ c c', h.get? e.2 = some c ∧ ops.flush c = .ok c' ∧ h'.get? e.2 = some c') ∧
      ∀ q, q ∉ l.map Prod.snd → h'.get? q = h.get? q := by
  induction l generalizing h with
  | nil =>
    obtain rfl : h = h' := Except.ok.inj hr
    simp
  | cons e l ih =>
    obtain ⟨c, hc, hr⟩ := bind_eq_ok.mp hr
    obtain ⟨c', hc', hr⟩ := bind_eq_ok.mp hr
    rw [List.map_cons, List.nodup_cons] at hnd
    obtain ⟨hall, hothers⟩ := ih hnd.2 hr
    have hget := Heap.deref_eq_ok.mp hc
    refine ⟨?_, ?_⟩
    · intro e' he'
      rcases List.mem_cons.mp he' with rfl | he'
      · exact ⟨c, c', hget, hc', (hothers e'.2 hnd.1).trans (Heap.get?_store_self hget)⟩
      · obtain ⟨d, d', hd, hflush, hd'⟩ := hall e' he'
        have hne : e.2 ≠ e'.2 := by
          intro heq
          exact hnd.1 (heq ▸ List.mem_map_of_mem he')
        exact ⟨d, d', (Heap.get?_store_of_ne hne).symm.trans hd, hflush, hd'⟩
    · intro q hq
      rw [List.map_cons, List.mem_cons, not_or] at hq
      exact (hothers q hq.2).trans (Heap.get?_store_of_ne (Ne.symm hq.1))

/-- What `Flush` does with a conn of the group: it stays and is flushed if it was alive, and it is
    closed if it was not. -/
theorem flush_spec (hkey : ∀ c c', ops.flush c = .ok c' → ops.key c' = ops.key c) (hI : Inv ops g)
    (hr : flush ops g = .ok g') : Inv ops g' ∧ (∀ q, g'.Holds q → g.Holds q) ∧
      ∀ q c, g.Holds q → g.mHeap.get? q = some c →
        (ops.alive c = .ok true ∧ g'.Holds q ∧
          ∃ c', ops.flush c = .ok c' ∧ g'.mHeap.get? q = some c') ∨
        (ops.alive c = .ok false ∧ ¬ g'.Holds q) := by
  obtain ⟨ps, hps, hr⟩ := bind_eq_ok.mp hr
  obtain ⟨g₁, hg₁, hr⟩ := bind_eq_ok.mp hr
  obtain ⟨h', hh', hr⟩ := bind_eq_ok.mp hr
  obtain rfl := Except.ok.inj hr
  obtain ⟨halive, hdead⟩ := fails_spec hps
  obtain ⟨hI₁, hclosed, hothers⟩ := closeConns_spec hI hg₁
  obtain ⟨hflush, -⟩ := flushConns_spec hI₁.nodup_ptrs hh'
  refine ⟨?_, ?_, ?_⟩
  · intro e he
    obtain ⟨c, c', hc, hfl, hc'⟩ := hflush e he
    exact ⟨c', hc', (hkey c c' hfl).trans (hI₁.key_of_mem he hc)⟩
  · intro q hq
    by_cases hqs : q ∈ ps
    · exact absurd hq (hclosed q hqs)
    · exact (hothers q hqs).1.mp hq
  · intro q c hq hc
    obtain ⟨k, hk⟩ := hq
    obtain ⟨c₁, b, hc₁, hb⟩ := halive _ hk
    obtain rfl : c₁ = c := Option.some.inj (hc₁.symm.trans hc)
    cases b with
    | true =>
      have hqs : q ∉ ps := by
        intro hmem
        obtain ⟨-, -, -, c₂, hc₂, hfalse⟩ := (hdead q).mp hmem
        obtain rfl : c₁ = c₂ := Option.some.inj (hc₁.symm.trans hc₂)
        cases hb.symm.trans hfalse
      obtain ⟨k', hk'⟩ : g₁.Holds q := (hothers q hqs).1.mpr ⟨k, hk⟩
      obtain ⟨c₂, c', hc₂, hfl, hc'⟩ := hflush _ hk'
      rw [(hothers q hqs).2, hc] at hc₂
      obtain rfl : c₁ = c₂ := Option.some.inj hc₂
      exact .inl ⟨hb, ⟨k', hk'⟩, c', hfl, hc'⟩
    | false => exact .inr ⟨hb, hclosed q ((hdead q).mpr ⟨_, hk, rfl, c₁, hc, hb⟩)⟩

/-! ## New conns -/

/-- A conn whose key is in use gets no entry. -/
theorem mem_addConn {e : String × Ptr} : e ∈ (g.addConn ops c).mConns.entries ↔
    e ∈ g.mConns.entries ∨
      (g.mConns.find? (ops.key c) = none ∧ e = (ops.key c, g.mHeap.cells.length)) :=
  StdMap.mem_emplace

theorem holds_of_addConn (hp : p < g.mHeap.cells.length) (h : (g.addConn ops c).Holds p) :
    g.Holds p := by
  obtain ⟨k, hk⟩ := h
  rcases mem_addConn.mp hk with hk | ⟨-, heq⟩
  · exact ⟨k, hk⟩
  · exact absurd (Prod.ext_iff.mp heq).2 hp.ne

/-- The invariant holds with one more conn. -/
theorem inv_addConn (hI : Inv ops g) : Inv ops (g.addConn ops c) := by
  intro e he
  rcases mem_addConn.mp he with he | ⟨-, rfl⟩
  · obtain ⟨d, hd, hkey⟩ := hI e he
    exact ⟨d, Heap.get?_alloc_of_get? hd, hkey⟩
  · exact ⟨c, Heap.get?_alloc_self, rfl⟩

/-! ## The conns of a group -/

/-- The group holds the conn `c` at `p`. -/
def Live (g : IGroup α) (p : Ptr) (c : α) : Prop := g.Holds p ∧ g.mHeap.get? p = some c

theorem Live.unique (h : g.Live p c) (h' : g.Live p c') : c = c' :=
  Option.some.inj (h.2.symm.trans h'.2)

theorem Inv.live_of_holds (hI : Inv ops g) (hp : g.Holds p) : ∃ c, g.Live p c := by
  obtain ⟨c, hc⟩ := hI.exists_of_holds hp
  exact ⟨c, hp, hc⟩

/-- A conn is found by its key. -/
theorem Inv.connOfKey_of_live (hI : Inv ops g) (h : g.Live p c) : g.connOfKey (ops.key c) = some p := by
  obtain ⟨⟨k, hk⟩, hc⟩ := h
  rw [hI.key_of_mem hk hc]
  exact (StdMap.get?_eq_some_iff same_string).mpr hk

theorem Inv.live_of_connOfKey (hI : Inv ops g) (h : g.connOfKey k = some p) :
    ∃ c, g.Live p c ∧ ops.key c = k := by
  have hk := mem_of_connOfKey h
  obtain ⟨c, hc, hkey⟩ := hI _ hk
  exact ⟨c, ⟨⟨k, hk⟩, hc⟩, hkey⟩

/-- The others stay as they are. -/
theorem live_closeConn (hI : Inv ops g) (hr : closeConn ops g p = .ok g') :
    g'.Live q c ↔ g.Live q c ∧ q ≠ p := by
  by_cases hqp : q = p
  · subst hqp
    simp [Live, not_holds_closeConn_self hI hr]
  · simp [Live, holds_closeConn_of_ne hr (Ne.symm hqp), get?_closeConn_of_ne hr (Ne.symm hqp), hqp]

/-- A conn of the group can be closed, unless it has the key of the group. -/
theorem closeConn_ok (hI : Inv ops g) (h : g.Live p c) (hkey : ops.key c ≠ g.mKey) :
    ∃ g', closeConn ops g p = .ok g' := by
  have hfree : ∃ h', g.mHeap.free p = .ok h' :=
    ⟨_, Heap.free_eq_ok.mpr ⟨by rw [h.2]; rfl, rfl⟩⟩
  obtain ⟨h', hfree⟩ := hfree
  refine ⟨{ g with mConns := g.mConns.erase (ops.key c), mHeap := h' }, ?_⟩
  rw [closeConn, Heap.deref_eq_ok.mpr h.2, ok_bind, cassert_pos hkey, ok_bind,
    cassert_pos (hI.connOfKey_of_live h), ok_bind, removeConn, Heap.deref_eq_ok.mpr h.2, ok_bind]
  show (g.mHeap.free p >>= _) = _
  rw [hfree]
  rfl

theorem live_of_addConn (hI : Inv ops g) {d : α} (h : (g.addConn ops c).Live q d) :
    g.Live q d ∨ q = g.mHeap.cells.length ∧ d = c := by
  obtain ⟨⟨k, hmem⟩, hd⟩ := h
  rcases mem_addConn.mp hmem with hmem | ⟨-, heq⟩
  · obtain ⟨d', hd', -⟩ := hI _ hmem
    obtain rfl : d' = d := Option.some.inj ((Heap.get?_alloc_of_get? hd').symm.trans hd)
    exact .inl ⟨⟨k, hmem⟩, hd'⟩
  · obtain ⟨rfl, rfl⟩ := Prod.mk.inj heq
    exact .inr ⟨rfl, Option.some.inj (hd.symm.trans Heap.get?_alloc_self)⟩

/-- A new conn with a free key is there with the old ones. -/
theorem live_addConn (hI : Inv ops g) (hk : g.connOfKey (ops.key c) = none) {d : α} :
    (g.addConn ops c).Live q d ↔ g.Live q d ∨ q = g.mHeap.cells.length ∧ d = c := by
  have hnone : g.mConns.find? (ops.key c) = none := Option.map_eq_none_iff.mp hk
  refine ⟨live_of_addConn hI, ?_⟩
  rintro (⟨⟨k, hmem⟩, hd⟩ | ⟨rfl, rfl⟩)
  · exact ⟨⟨k, mem_addConn.mpr (.inl hmem)⟩, Heap.get?_alloc_of_get? hd⟩
  · exact ⟨⟨_, mem_addConn.mpr (.inr ⟨hnone, rfl⟩)⟩, Heap.get?_alloc_self⟩

/-- What a conn that is stored changes: itself. -/
theorem live_store (h : g.Live p c) {d : α} :
    Live { g with mHeap := g.mHeap.store p c' } q d ↔
      q = p ∧ d = c' ∨ q ≠ p ∧ g.Live q d := by
  by_cases hqp : q = p
  · subst hqp
    have hholds : Holds { g with mHeap := g.mHeap.store q c' } q := h.1
    simp [Live, hholds, Heap.get?_store_self h.2, eq_comm]
  · have hholds : Holds { g with mHeap := g.mHeap.store p c' } q ↔ g.Holds q := Iff.rfl
    simp [Live, hholds, Heap.get?_store_of_ne (Ne.symm hqp), hqp]

theorem inv_store (hI : Inv ops g) (h : g.mHeap.get? p = some c) (hkey : ops.key c' = ops.key c) :
    Inv ops { g with mHeap := g.mHeap.store p c' } := by
  intro e he
  obtain ⟨d, hd, hk⟩ := hI e he
  by_cases hpe : p = e.2
  · subst hpe
    obtain rfl : c = d := Option.some.inj (h.symm.trans hd)
    exact ⟨c', Heap.get?_store_self h, hkey.trans hk⟩
  · exact ⟨d, (Heap.get?_store_of_ne hpe).trans hd, hk⟩

/-! ## No conn is forgotten -/

theorem length_closeConns {ps : List Ptr} (hr : ps.foldlM (closeConn ops) g = .ok g') :
    g'.mHeap.cells.length = g.mHeap.cells.length := by
  refine foldlM_invariant (J := fun g' => g'.mHeap.cells.length = g.mHeap.cells.length) ?_ rfl hr
  intro g₁ p g₂ hlen hclose
  obtain ⟨c, h', -, -, hfree, rfl⟩ := closeConn_cases hclose
  exact (Heap.length_free hfree).trans hlen

theorem length_flushConns {ops : LiveOps α} {l : List (String × Ptr)}
    (hr : flushConns ops h l = .ok h') : h'.cells.length = h.cells.length := by
  induction l generalizing h with
  | nil =>
    obtain rfl : h = h' := Except.ok.inj hr
    rfl
  | cons e l ih =>
    obtain ⟨c, -, hr⟩ := bind_eq_ok.mp hr
    obtain ⟨c', -, hr⟩ := bind_eq_ok.mp hr
    exact (ih hr).trans Heap.length_store

theorem length_flush (hr : flush ops g = .ok g') :
    g'.mHeap.cells.length = g.mHeap.cells.length := by
  obtain ⟨ps, -, hr⟩ := bind_eq_ok.mp hr
  obtain ⟨g₁, hg₁, hr⟩ := bind_eq_ok.mp hr
  obtain ⟨h', hh', hr⟩ := bind_eq_ok.mp hr
  obtain rfl := Except.ok.inj hr
  exact (length_flushConns hh').trans (length_closeConns hg₁)

theorem mKey_closeConns {ps : List Ptr} (hr : ps.foldlM (closeConn ops) g = .ok g') :
    g'.mKey = g.mKey := by
  refine foldlM_invariant (J := fun g' => g'.mKey = g.mKey) ?_ rfl hr
  intro g₁ p g₂ hkey hclose
  obtain ⟨c, h', -, -, -, rfl⟩ := closeConn_cases hclose
  exact hkey

theorem mKey_flush (hr : flush ops g = .ok g') : g'.mKey = g.mKey := by
  obtain ⟨ps, -, hr⟩ := bind_eq_ok.mp hr
  obtain ⟨g₁, hg₁, hr⟩ := bind_eq_ok.mp hr
  obtain ⟨h', -, hr⟩ := bind_eq_ok.mp hr
  obtain rfl := Except.ok.inj hr
  have hkey : g₁.mKey = g.mKey := mKey_closeConns hg₁
  exact hkey

/-! ## A conn over a run -/

/-- If the group still holds the conn at `p`, then it held it before, and the conn has changed only as
    `R` says. -/
structure Follows (ops : ConnOps α) (p : Ptr) (R : α → α → Prop) (g g' : IGroup α) : Prop where
  inv : Inv ops g → Inv ops g'
  length : g.mHeap.cells.length ≤ g'.mHeap.cells.length
  held : Inv ops g → p < g.mHeap.cells.length → g'.Holds p → g.Holds p ∧
    ∀ c, g.mHeap.get? p = some c → ∃ c', g'.mHeap.get? p = some c' ∧ R c c'

variable {R R' R'' : α → α → Prop} {g'' : IGroup α}

theorem Follows.refl (hR : ∀ c, R c c) (g : IGroup α) : Follows ops p R g g :=
  ⟨id, le_refl _, fun _ _ hh => ⟨hh, fun c hc => ⟨c, hc, hR c⟩⟩⟩

/-- What happens to a conn happens one after the other. -/
theorem Follows.trans (hR : ∀ a b c, R a b → R' b c → R'' a c) (h₁ : Follows ops p R g g')
    (h₂ : Follows ops p R' g' g'') : Follows ops p R'' g g'' where
  inv hI := h₂.inv (h₁.inv hI)
  length := h₁.length.trans h₂.length
  held hI hp hh := by
    obtain ⟨hh', hobj'⟩ := h₂.held (h₁.inv hI) (hp.trans_le h₁.length) hh
    obtain ⟨hh₀, hobj⟩ := h₁.held hI hp hh'
    refine ⟨hh₀, ?_⟩
    intro c hc
    obtain ⟨c', hc', hRc⟩ := hobj c hc
    obtain ⟨c'', hc'', hRc'⟩ := hobj' c' hc'
    exact ⟨c'', hc'', hR c c' c'' hRc hRc'⟩

/-- A new conn does nothing to it. -/
theorem follows_addConn (hR : ∀ c, R c c) (g : IGroup α) (c : α) :
    Follows ops p R g (g.addConn ops c) where
  inv := inv_addConn
  length := (Nat.le_succ _).trans_eq Heap.length_alloc.symm
  held _ hp hh := by
    refine ⟨holds_of_addConn hp hh, ?_⟩
    intro d hd
    exact ⟨d, Heap.get?_alloc_of_get? hd, hR d⟩

/-- It changes when it is stored, and not when another one is. -/
theorem follows_store (hc : g.mHeap.get? q = some c) (hkey : ops.key c' = ops.key c)
    (hself : q = p → R c c') (hother : q ≠ p → ∀ d, R d d) :
    Follows ops p R g { g with mHeap := g.mHeap.store q c' } where
  inv hI := inv_store hI hc hkey
  length := Heap.length_store.ge
  held _ _ hh := by
    refine ⟨hh, ?_⟩
    intro d hd
    by_cases heq : q = p
    · have hRc := hself heq
      subst heq
      obtain rfl : c = d := Option.some.inj (hc.symm.trans hd)
      exact ⟨c', Heap.get?_store_self hc, hRc⟩
    · exact ⟨d, (Heap.get?_store_of_ne heq).trans hd, hother heq d⟩

/-- The closing of another conn does nothing to it. -/
theorem follows_closeConn (hR : ∀ c, R c c) (hr : closeConn ops g q = .ok g') :
    Follows ops p R g g' where
  inv hI := inv_closeConn hI hr
  length := by
    obtain ⟨c, h', -, -, hfree, rfl⟩ := closeConn_cases hr
    exact (Heap.length_free hfree).ge
  held hI _ hh := by
    have hne : q ≠ p := by
      rintro rfl
      exact not_holds_closeConn_self hI hr hh
    refine ⟨(holds_closeConn_of_ne hr hne).mp hh, ?_⟩
    intro c hc
    exact ⟨c, (get?_closeConn_of_ne hr hne).trans hc, hR c⟩

/-- A flush flushes it. -/
theorem follows_flush (hkey : ∀ c c', ops.flush c = .ok c' → ops.key c' = ops.key c)
    (hr : flush ops g = .ok g') : Follows ops p (fun c c' => ops.flush c = .ok c') g g' where
  inv hI := (flush_spec hkey hI hr).1
  length := (length_flush hr).ge
  held hI _ hh := by
    obtain ⟨-, hheld, hspec⟩ := flush_spec hkey hI hr
    refine ⟨hheld p hh, ?_⟩
    intro c hc
    rcases hspec p c (hheld p hh) hc with ⟨-, -, c', hfl, hc'⟩ | ⟨-, hnot⟩
    · exact ⟨c', hc', hfl⟩
    · exact absurd hh hnot

/-! ## Pointers are not used again -/

section Ages

variable (hR : ∀ c, R c c) (htrans : ∀ a b c, R a b → R b c → R a c)

include hR in
theorem ages_closeConn (hr : closeConn ops g p = .ok g') : Heap.Ages R g.mHeap g'.mHeap := by
  obtain ⟨c, h', -, -, hfree, rfl⟩ := closeConn_cases hr
  exact Heap.ages_free hR hfree

include hR htrans

theorem ages_flushConns {ops : LiveOps α} {l : List (String × Ptr)}
    (hflush : ∀ c c', ops.flush c = .ok c' → R c c') (hr : flushConns ops h l = .ok h') :
    Heap.Ages R h h' := by
  induction l generalizing h with
  | nil =>
    obtain rfl : h = h' := Except.ok.inj hr
    exact Heap.ages_refl hR h
  | cons e l ih =>
    obtain ⟨c, hc, hr⟩ := bind_eq_ok.mp hr
    obtain ⟨c', hc', hr⟩ := bind_eq_ok.mp hr
    have hstore := Heap.ages_store hR (Heap.deref_eq_ok.mp hc) (hflush c c' hc')
    exact hstore.trans htrans (ih hr)

theorem ages_flush (hflush : ∀ c c', ops.flush c = .ok c' → R c c') (hr : flush ops g = .ok g') :
    Heap.Ages R g.mHeap g'.mHeap := by
  obtain ⟨ps, -, hr⟩ := bind_eq_ok.mp hr
  obtain ⟨g₁, hg₁, hr⟩ := bind_eq_ok.mp hr
  obtain ⟨h', hh', hr⟩ := bind_eq_ok.mp hr
  obtain rfl := Except.ok.inj hr
  have hclose : Heap.Ages R g.mHeap g₁.mHeap :=
    foldlM_invariant (J := fun g₂ : IGroup α => Heap.Ages R g.mHeap g₂.mHeap)
      (fun _ _ _ hJ hstep => hJ.trans htrans (ages_closeConn hR hstep)) (Heap.ages_refl hR _) hg₁
  exact hclose.trans htrans (ages_flushConns hR htrans hflush hh')

end Ages

/-- A conn that is alive is kept by `Flush`, one that is not is closed. -/
theorem holds_flush_iff (hkey : ∀ c c', ops.flush c = .ok c' → ops.key c' = ops.key c)
    (hI : Inv ops g) (hr : flush ops g = .ok g') (hh : g.Holds p) (hc : g.mHeap.get? p = some c) :
    g'.Holds p ↔ ops.alive c = .ok true := by
  rcases (flush_spec hkey hI hr).2.2 p c hh hc with ⟨halive, hheld, -⟩ | ⟨hdead, hnot⟩
  · exact iff_of_true hheld halive
  · refine iff_of_false hnot ?_
    rw [hdead]
    decide

end IGroup

/-! ## The traffic of one conn -/

/-- What a conn sees of the calls around it. -/
inductive Beat where
  | send (n : Int)
  | input (n : Int)
  | flush

def DataStat.beat (s : DataStat) : Beat → DataStat
  | .send n => s.afterSend n
  | .input n => s.afterInput n
  | .flush => s.flush

/-- The sends and inputs with a positive result, since the last `Flush` and in the intervals before
    it, the latest first. -/
structure Activity where
  sends : Nat := 0
  inputs : Nat := 0
  past : List (Nat × Nat) := []

namespace Activity

def beat (a : Activity) : Beat → Activity
  | .send n => if n > 0 then { a with sends := a.sends + 1 } else a
  | .input n => if n > 0 then { a with inputs := a.inputs + 1 } else a
  | .flush => { past := (a.sends, a.inputs) :: a.past }

/-- No interval has ended yet, or the last one to end had both sends and inputs, and of neither so
    many that the counter came round to its old value. -/
def Settled (a : Activity) : Prop :=
  ∀ o i, a.past.head? = some (o, i) → ¬ 2 ^ 32 ∣ o ∧ ¬ 2 ^ 32 ∣ i

end Activity

namespace DataStat

/-- The counters and the verdict of a conn with this traffic. -/
structure Tracks (s : DataStat) (a : Activity) : Prop where
  out : s.currOut = s.prevOut + UInt32.ofNat a.sends
  inp : s.currIn = s.prevIn + UInt32.ofNat a.inputs
  alive : s.mAlive = true ↔ a.Settled

/-- A new conn has counted nothing. -/
theorem tracks_new : Tracks {} {} where
  out := rfl
  inp := rfl
  alive := by simp [Activity.Settled]

theorem ofNat_eq_zero_iff {n : Nat} : UInt32.ofNat n = 0 ↔ 2 ^ 32 ∣ n := by
  rw [← UInt32.toNat_inj, UInt32.toNat_ofNat', Nat.dvd_iff_mod_eq_zero]
  rfl

/-- A counter looks as before exactly if it has gone round. -/
theorem ne_add_ofNat_iff {x : UInt32} {n : Nat} : x ≠ x + UInt32.ofNat n ↔ ¬ 2 ^ 32 ∣ n := by
  rw [← ofNat_eq_zero_iff, not_iff_not]
  constructor
  · intro h
    exact (UInt32.add_right_inj x).mp (by rw [← h, UInt32.add_zero])
  · intro h
    rw [h, UInt32.add_zero]

/-- The counters count what the conn does. -/
theorem Tracks.beat {s : DataStat} {a : Activity} (h : s.Tracks a) (b : Beat) :
    (s.beat b).Tracks (a.beat b) := by
  cases b with
  | send n =>
    by_cases hn : n > 0
    · simp only [DataStat.beat, afterSend, Activity.beat, if_pos hn]
      refine ⟨?_, h.inp, h.alive⟩
      rw [h.out, UInt32.ofNat_add, UInt32.add_assoc]
      rfl
    · simp only [DataStat.beat, afterSend, Activity.beat, if_neg hn]
      exact h
  | input n =>
    by_cases hn : n > 0
    · simp only [DataStat.beat, afterInput, Activity.beat, if_pos hn]
      refine ⟨h.out, ?_, h.alive⟩
      rw [h.inp, UInt32.ofNat_add, UInt32.add_assoc]
      rfl
    · simp only [DataStat.beat, afterInput, Activity.beat, if_neg hn]
      exact h
  | flush =>
    refine ⟨(UInt32.add_zero _).symm, (UInt32.add_zero _).symm, ?_⟩
    simp only [DataStat.beat, flush, Activity.beat, Activity.Settled, List.head?_cons,
      Option.some.injEq, Prod.mk.injEq, Bool.and_eq_true, bne_iff_ne]
    rw [h.inp, h.out, ne_add_ofNat_iff, ne_add_ofNat_iff]
    constructor
    · rintro ⟨hi, ho⟩ o i ⟨rfl, rfl⟩
      exact ⟨ho, hi⟩
    · intro hall
      exact (hall _ _ ⟨rfl, rfl⟩).symm

/-- They count all of it. -/
theorem Tracks.foldl {s : DataStat} {a : Activity} (h : s.Tracks a) (bs : List Beat) :
    (bs.foldl DataStat.beat s).Tracks (bs.foldl Activity.beat a) := by
  induction bs generalizing s a with
  | nil => exact h
  | cons b bs ih => exact ih (h.beat b)

end DataStat

/-! ## A conn of a group over a run -/

namespace IConn

variable {β : Type}

theorem key_flush (c c' : IConn β) (h : ops.flush c = .ok c') : ops.key c' = ops.key c := by
  obtain rfl := Except.ok.inj h
  rfl

/-- The counters have gone through `bs`. -/
def Seen (bs : List Beat) (c c' : IConn β) : Prop := c'.mStat = bs.foldl DataStat.beat c.mStat

theorem seen_nil (c : IConn β) : Seen [] c c := rfl

theorem seen_append {bs bs' : List Beat} (a b c : IConn β) (h₁ : Seen bs a b)
    (h₂ : Seen bs' b c) : Seen (bs ++ bs') a c := by
  rw [Seen, h₂, h₁, List.foldl_append]

end IConn

namespace IGroup

variable {β : Type} {g g' : IGroup (IConn β)} {p : Ptr}

/-- What the conn at `p` sees of a call. -/
def Call.beats (p : Ptr) : Call β → List Beat
  | .send q n => if q = p then [.send n] else []
  | .input q n => if q = p then [.input n] else []
  | _ => []

def Event.beats (p : Ptr) : Event β → List Beat
  | .call c => c.beats p
  | .flush => [.flush]

/-- The traffic of the conn at `p` during a run. -/
def activity (p : Ptr) (es : List (Event β)) : Activity :=
  (es.flatMap (Event.beats p)).foldl Activity.beat {}

/-- What a call does to a conn. -/
theorem follows_call {c : Call β} (hr : g.call c = .ok g') :
    Follows IConn.ops p (IConn.Seen (c.beats p)) g g' := by
  cases c with
  | addConn key obj =>
    obtain rfl := Except.ok.inj hr
    exact follows_addConn IConn.seen_nil g _
  | send q n =>
    obtain ⟨c, hc, hr⟩ := bind_eq_ok.mp hr
    obtain rfl := Except.ok.inj hr
    refine follows_store (Heap.deref_eq_ok.mp hc) rfl ?_ ?_
    · intro heq
      rw [Call.beats, if_pos heq]
      rfl
    · intro hne d
      rw [Call.beats, if_neg hne]
      rfl
  | input q n =>
    obtain ⟨c, hc, hr⟩ := bind_eq_ok.mp hr
    obtain rfl := Except.ok.inj hr
    refine follows_store (Heap.deref_eq_ok.mp hc) rfl ?_ ?_
    · intro heq
      rw [Call.beats, if_pos heq]
      rfl
    · intro hne d
      rw [Call.beats, if_neg hne]
      rfl
  | closeConn q => exact follows_closeConn IConn.seen_nil hr

theorem mKey_call {c : Call β} (hr : g.call c = .ok g') : g'.mKey = g.mKey := by
  cases c with
  | addConn key obj =>
    obtain rfl := Except.ok.inj hr
    rfl
  | send q n =>
    obtain ⟨c, -, hr⟩ := bind_eq_ok.mp hr
    obtain rfl := Except.ok.inj hr
    rfl
  | input q n =>
    obtain ⟨c, -, hr⟩ := bind_eq_ok.mp hr
    obtain rfl := Except.ok.inj hr
    rfl
  | closeConn q =>
    obtain ⟨c, h', -, -, -, rfl⟩ := closeConn_cases hr
    rfl

theorem follows_flush_conns (hr : g.flush IConn.ops = .ok g') :
    Follows IConn.ops p (IConn.Seen [.flush]) g g' := by
  refine Follows.trans ?_ (follows_flush IConn.key_flush hr) (Follows.refl (R := Eq) (fun _ => rfl) g')
  rintro a b _ h rfl
  obtain rfl := Except.ok.inj h
  rfl

/-- What a step does to it. -/
theorem follows_step {e : Event β} (hr : g.step e = .ok g') :
    Follows IConn.ops p (IConn.Seen (e.beats p)) g g' := by
  cases e with
  | call c => exact follows_call hr
  | flush => exact follows_flush_conns hr

/-- What a run does to it. -/
theorem follows_run {es : List (Event β)} (hr : run step g es = .ok g') :
    Follows IConn.ops p (IConn.Seen (es.flatMap (Event.beats p))) g g' := by
  induction es generalizing g with
  | nil =>
    obtain rfl : g = g' := Except.ok.inj hr
    exact Follows.refl IConn.seen_nil g
  | cons e es ih =>
    obtain ⟨g₁, hg₁, hrest⟩ := bind_eq_ok.mp hr
    exact Follows.trans IConn.seen_append (follows_step hg₁) (ih hrest)

/-- The invariant holds in a whole run. -/
theorem inv_run {es : List (Event β)} (hI : Inv IConn.ops g)
    (hr : run step g es = .ok g') : Inv IConn.ops g' :=
  -- any conn will do
  (follows_run (p := 0) hr).inv hI

/-- Every conn of the group has a key and members as `P` says. -/
structure Each (P : String → β → Prop) (g : IGroup (IConn β)) : Prop where
  inv : Inv IConn.ops g
  each : ∀ p c, g.Live p c → P c.mKey c.obj

variable {P : String → β → Prop}

theorem each_empty (P : String → β → Prop) (key : String) : Each P { mKey := key } := by
  refine ⟨inv_empty _ _, ?_⟩
  rintro p c ⟨⟨k, hk⟩, -⟩
  cases hk

theorem each_store {c c' : IConn β} (h : Each P g) (hc : g.mHeap.get? p = some c)
    (hkey : c'.mKey = c.mKey) (hobj : c'.obj = c.obj) :
    Each P { g with mHeap := g.mHeap.store p c' } := by
  refine ⟨inv_store h.inv hc hkey, ?_⟩
  rintro q d ⟨hq, hd⟩
  by_cases hpq : p = q
  · subst hpq
    obtain rfl := Option.some.inj ((Heap.get?_store_self hc).symm.trans hd)
    rw [hkey, hobj]
    exact h.each p c ⟨hq, hc⟩
  · exact h.each q d ⟨hq, (Heap.get?_store_of_ne hpq).symm.trans hd⟩

/-- What is true of each conn stays true if it is true of those that are added. -/
theorem each_call {c : Call β} (h : Each P g) (hadd : ∀ key obj, c = .addConn key obj → P key obj)
    (hr : g.call c = .ok g') : Each P g' := by
  cases c with
  | addConn key obj =>
    obtain rfl := Except.ok.inj hr
    refine ⟨inv_addConn h.inv, ?_⟩
    intro q d hd
    rcases live_of_addConn h.inv hd with hd | ⟨-, rfl⟩
    · exact h.each q d hd
    · exact hadd key obj rfl
  | send q n =>
    obtain ⟨c, hc, hr⟩ := bind_eq_ok.mp hr
    obtain rfl := Except.ok.inj hr
    exact each_store h (Heap.deref_eq_ok.mp hc) rfl rfl
  | input q n =>
    obtain ⟨c, hc, hr⟩ := bind_eq_ok.mp hr
    obtain rfl := Except.ok.inj hr
    exact each_store h (Heap.deref_eq_ok.mp hc) rfl rfl
  | closeConn q =>
    refine ⟨inv_closeConn h.inv hr, ?_⟩
    intro r d hd
    exact h.each r d ((live_closeConn h.inv hr).mp hd).1

theorem each_flush (h : Each P g) (hr : g.flush IConn.ops = .ok g') : Each P g' := by
  obtain ⟨hI, hback, hspec⟩ := flush_spec IConn.key_flush h.inv hr
  refine ⟨hI, ?_⟩
  rintro q d ⟨hq, hd⟩
  obtain ⟨c, hc⟩ := h.inv.live_of_holds (hback q hq)
  rcases hspec q c hc.1 hc.2 with ⟨-, -, c', hfl, hc'⟩ | ⟨-, hnot⟩
  · obtain rfl : c' = d := Option.some.inj (hc'.symm.trans hd)
    obtain rfl := Except.ok.inj hfl
    exact h.each q c hc
  · exact absurd hq hnot

theorem mKey_run {es : List (Event β)} (hr : run step g es = .ok g') : g'.mKey = g.mKey := by
  refine run_invariant (J := fun g' : IGroup (IConn β) => g'.mKey = g.mKey) ?_ rfl hr
  intro g₁ e g₂ h hstep
  cases e with
  | call c => exact (mKey_call hstep).trans h
  | flush => exact (mKey_flush hstep).trans h

/-- The closing of several conns is a run. -/
theorem run_closeConns (ps : List Ptr) (g : IGroup (IConn β)) :
    run step g (ps.map fun p => .call (.closeConn p)) = ps.foldlM (closeConn IConn.ops) g := by
  induction ps generalizing g with
  | nil => rfl
  | cons p ps ih =>
    rw [List.map_cons, List.foldlM_cons, run]
    exact bind_congr fun g' => ih g'

theorem each_run {es : List (Event β)} (h : Each P g)
    (hadd : ∀ key obj, .call (.addConn key obj) ∈ es → P key obj)
    (hr : run step g es = .ok g') : Each P g' := by
  induction es generalizing g with
  | nil =>
    obtain rfl : g = g' := Except.ok.inj hr
    exact h
  | cons e es ih =>
    obtain ⟨g₁, hg₁, hr⟩ := bind_eq_ok.mp hr
    refine ih ?_ (fun key obj hmem => hadd key obj (List.mem_cons_of_mem _ hmem)) hr
    cases e with
    | call c =>
      refine each_call h ?_ hg₁
      rintro key obj rfl
      exact hadd key obj List.mem_cons_self
    | flush => exact each_flush h hg₁

/-- From `g` to `g'` the group has done what it can do, and the conns it added are as `P` says. -/
def Runs (P : String → β → Prop) (g g' : IGroup (IConn β)) : Prop :=
  ∃ es, run step g es = .ok g' ∧ ∀ key obj, .call (.addConn key obj) ∈ es → P key obj

theorem Runs.refl (P : String → β → Prop) (g : IGroup (IConn β)) : Runs P g g := ⟨[], rfl, by simp⟩

theorem runs_step {e : Event β} (hr : g.step e = .ok g')
    (hadd : ∀ key obj, e = .call (.addConn key obj) → P key obj) : Runs P g g' := by
  refine ⟨[e], by rw [run, hr]; rfl, ?_⟩
  intro key obj hmem
  exact hadd key obj (List.mem_singleton.mp hmem).symm

theorem Runs.trans {g'' : IGroup (IConn β)} (h₁ : Runs P g g') (h₂ : Runs P g' g'') :
    Runs P g g'' := by
  obtain ⟨es, hr, hadd⟩ := h₁
  obtain ⟨es', hr', hadd'⟩ := h₂
  refine ⟨es ++ es', by rw [run_append, hr]; exact hr', ?_⟩
  intro key obj hmem
  exact (List.mem_append.mp hmem).elim (hadd key obj) (hadd' key obj)

/-- It stays true whatever is done to the group. -/
theorem Each.of_runs (h : Each P g) (hruns : Runs P g g') : Each P g' := by
  obtain ⟨es, hr, hadd⟩ := hruns
  exact each_run h hadd hr

theorem mKey_of_runs (hruns : Runs P g g') : g'.mKey = g.mKey := by
  obtain ⟨es, hr, -⟩ := hruns
  exact mKey_run hr

/-- Whatever a group does, the members of a conn stay what they are. -/
theorem ages_of_runs (hruns : Runs P g g') :
    Heap.Ages (fun c c' : IConn β => c'.obj = c.obj) g.mHeap g'.mHeap := by
  have hR : ∀ c : IConn β, c.obj = c.obj := fun _ => rfl
  have htrans : ∀ a b c : IConn β, b.obj = a.obj → c.obj = b.obj → c.obj = a.obj :=
    fun _ _ _ hab hbc => hbc.trans hab
  obtain ⟨es, hr, -⟩ := hruns
  refine run_invariant (J := fun g₁ : IGroup (IConn β) =>
    Heap.Ages (fun c c' : IConn β => c'.obj = c.obj) g.mHeap g₁.mHeap) ?_ (Heap.ages_refl hR _) hr
  intro g₁ e g₂ h hstep
  refine h.trans htrans ?_
  cases e with
  | call c =>
    cases c with
    | addConn key obj =>
      obtain rfl := Except.ok.inj hstep
      exact Heap.ages_alloc hR _ _
    | send q n =>
      obtain ⟨c, hc, hstep⟩ := bind_eq_ok.mp hstep
      obtain rfl := Except.ok.inj hstep
      exact Heap.ages_store hR (Heap.deref_eq_ok.mp hc) rfl
    | input q n =>
      obtain ⟨c, hc, hstep⟩ := bind_eq_ok.mp hstep
      obtain rfl := Except.ok.inj hstep
      exact Heap.ages_store hR (Heap.deref_eq_ok.mp hc) rfl
    | closeConn q => exact ages_closeConn hR hstep
  | flush =>
    refine ages_flush hR htrans ?_ hstep
    intro c c' hc
    obtain rfl := Except.ok.inj hc
    rfl

/-- The conn that was added first in a run, if the group still holds it. -/
theorem tracks_of_added {key : String} {obj : β}
    {es : List (Event β)} (hI : Inv IConn.ops g)
    (hr : run step g (.call (.addConn key obj) :: es) = .ok g')
    (hh : g'.Holds g.mHeap.cells.length) :
    ∃ c, g'.mHeap.get? g.mHeap.cells.length = some c ∧
      c.mStat.Tracks (activity g.mHeap.cells.length es) := by
  obtain ⟨g₁, hg₁, hrest⟩ := bind_eq_ok.mp hr
  obtain rfl := Except.ok.inj hg₁
  have hlt : g.mHeap.cells.length <
      (g.addConn IConn.ops { mKey := key, obj := obj }).mHeap.cells.length :=
    (Nat.lt_succ_self _).trans_eq Heap.length_alloc.symm
  obtain ⟨-, hstat⟩ := (follows_run hrest).held (inv_addConn hI) hlt hh
  obtain ⟨c, hc, hs⟩ := hstat _ Heap.get?_alloc_self
  refine ⟨c, hc, ?_⟩
  rw [hs]
  exact DataStat.tracks_new.foldl _

end IGroup

/-! ## A conn of a `SubGroup` over a run of the server -/

namespace IAppGroup

variable {ν β : Type} {net : LiveOps ν} {g g' : IAppGroup ν β} {q : Ptr}

/-- Its conversations are flushed as in any group. -/
theorem flush_cases (hr : g.flush net = .ok g') : g.toIGroup.flush IConn.ops = .ok g'.toIGroup := by
  obtain ⟨conns, hconns, hr⟩ := bind_eq_ok.mp hr
  obtain ⟨n, -, hr⟩ := bind_eq_ok.mp hr
  obtain rfl := Except.ok.inj hr
  exact hconns

/-- A `SubGroup` with one conn is alive if its net group and that conn are. -/
theorem alive_of_single {c : IConn β} (hq : g.mConns.entries.map Prod.snd = [q])
    (hc : g.mHeap.get? q = some c) (hnet : net.alive g.mFakeNetGroup = .ok true) :
    g.alive net = .ok c.mStat.mAlive := by
  obtain ⟨e, he, rfl⟩ := List.map_eq_singleton_iff.mp hq
  have hsize : g.mConns.size ≠ 0 := by
    rw [StdMap.size, he]
    exact one_ne_zero
  rw [alive, if_pos hsize, hnet, ok_bind, if_pos rfl, IGroup.alive, he, IGroup.anyAlive,
    Heap.deref_eq_ok.mpr hc, ok_bind]
  cases hb : c.mStat.mAlive with
  | true => simp [IConn.ops, hb, pure, Except.pure]
  | false => simp [IConn.ops, hb, pure, Except.pure, IGroup.anyAlive]

end IAppGroup

namespace SubGroups

open IAppGroup

variable {ν β : Type} {net : LiveOps ν} {s s' : SubGroups ν β} {p q : Ptr}

/-- What the conn at `q` of the `SubGroup` at `p` sees of an event. -/
def Event.beats (p q : Ptr) : Event ν β → List Beat
  | .call p' c => if p' = p then c.beats q else []
  | .flush => [.flush]
  | _ => []

/-- The traffic of the conn at `q` of the `SubGroup` at `p` during a run. -/
def activity (p q : Ptr) (es : List (Event ν β)) : Activity :=
  (es.flatMap (Event.beats p q)).foldl Activity.beat {}

/-- The conn at `q` of a `SubGroup` is followed. -/
def Seen (q : Ptr) (bs : List Beat) (g g' : IAppGroup ν β) : Prop :=
  IGroup.Follows IConn.ops q (IConn.Seen bs) g.toIGroup g'.toIGroup

theorem seen_refl (g : IAppGroup ν β) : Seen q [] g g :=
  IGroup.Follows.refl IConn.seen_nil _

theorem seen_append {bs bs' : List Beat} (a b c : IAppGroup ν β) (h₁ : Seen q bs a b)
    (h₂ : Seen q bs' b c) : Seen q (bs ++ bs') a c :=
  IGroup.Follows.trans IConn.seen_append h₁ h₂

theorem key_flush (net : LiveOps ν) (g g' : IAppGroup ν β) (h : (ops net).flush g = .ok g') :
    (ops net).key g' = (ops net).key g :=
  IGroup.mKey_flush (flush_cases h)

/-- What a step of the server does to a conversation. -/
theorem follows_step {e : Event ν β} (hr : s.step net e = .ok s') :
    IGroup.Follows (ops net) p (Seen q (e.beats p q)) s s' := by
  cases e with
  | newConn groupId n =>
    obtain rfl := Except.ok.inj hr
    exact IGroup.follows_addConn seen_refl s _
  | call p' c =>
    obtain ⟨g, hg, hr⟩ := bind_eq_ok.mp hr
    obtain ⟨conns, hconns, hr⟩ := bind_eq_ok.mp hr
    obtain rfl := Except.ok.inj hr
    have hkey : conns.mKey = g.mKey := IGroup.mKey_call hconns
    refine IGroup.follows_store (Heap.deref_eq_ok.mp hg) hkey ?_ ?_
    · intro heq
      rw [Event.beats, if_pos heq]
      exact IGroup.follows_call hconns
    · intro hne d
      rw [Event.beats, if_neg hne]
      exact seen_refl d
  | netGroup p' n =>
    obtain ⟨g, hg, hr⟩ := bind_eq_ok.mp hr
    obtain rfl := Except.ok.inj hr
    exact IGroup.follows_store (Heap.deref_eq_ok.mp hg) rfl (fun _ => seen_refl g) fun _ => seen_refl
  | flush =>
    have hflush := IGroup.follows_flush (p := p) (key_flush net) hr
    refine IGroup.Follows.trans ?_ hflush (IGroup.Follows.refl (R := Eq) (fun _ => rfl) s')
    rintro a b _ h rfl
    exact IGroup.follows_flush_conns (flush_cases h)

/-- What a run does to it. -/
theorem follows_run {es : List (Event ν β)} (hr : run (step net) s es = .ok s') :
    IGroup.Follows (ops net) p (Seen q (es.flatMap (Event.beats p q))) s s' := by
  induction es generalizing s with
  | nil =>
    obtain rfl : s = s' := Except.ok.inj hr
    exact IGroup.Follows.refl seen_refl s
  | cons e es ih =>
    obtain ⟨s₁, hs₁, hrest⟩ := bind_eq_ok.mp hr
    exact IGroup.Follows.trans seen_append (follows_step hs₁) (ih hrest)

/-- The `SubGroup`s are stored under their ids, and their conns under their keys. -/
structure Inv (net : LiveOps ν) (s : SubGroups ν β) : Prop where
  groups : IGroup.Inv (ops net) s
  conns : ∀ p g, IGroup.Holds s p → s.mHeap.get? p = some g → IGroup.Inv IConn.ops g.toIGroup

theorem inv_empty (key : String) : Inv (β := β) net { mKey := key } where
  groups := IGroup.inv_empty _ _
  conns := by
    rintro p g ⟨k, hk⟩
    cases hk

/-- Every step keeps the groups in order. -/
theorem inv_step {e : Event ν β} (hI : Inv net s) (hr : s.step net e = .ok s') : Inv net s' := by
  refine ⟨(follows_step (p := 0) (q := 0) hr).inv hI.groups, ?_⟩
  intro p g' hh hg'
  by_cases hp : p < s.mHeap.cells.length
  · obtain ⟨hh₀, hobj⟩ := (follows_step (q := 0) hr).held hI.groups hp hh
    obtain ⟨g, hg⟩ := hI.groups.exists_of_holds hh₀
    obtain ⟨g'', hg'', hseen⟩ := hobj g hg
    obtain rfl : g'' = g' := Option.some.inj (hg''.symm.trans hg')
    exact hseen.inv (hI.conns p g hh₀ hg)
  · -- only a new `SubGroup` has a new pointer, and it has no conns
    cases e with
    | newConn groupId n =>
      obtain rfl := Except.ok.inj hr
      obtain ⟨k, hk⟩ := hh
      rcases IGroup.mem_addConn.mp hk with hk | ⟨-, heq⟩
      · exact absurd (hI.groups.lt_of_holds ⟨k, hk⟩) hp
      · obtain rfl : p = s.mHeap.cells.length := (Prod.ext_iff.mp heq).2
        obtain rfl := Option.some.inj (Heap.get?_alloc_self.symm.trans hg')
        exact IGroup.inv_empty _ _
    | call p' c =>
      obtain ⟨g, -, hr⟩ := bind_eq_ok.mp hr
      obtain ⟨conns, -, hr⟩ := bind_eq_ok.mp hr
      obtain rfl := Except.ok.inj hr
      exact absurd (hI.groups.lt_of_holds hh) hp
    | netGroup p' n =>
      obtain ⟨g, -, hr⟩ := bind_eq_ok.mp hr
      obtain rfl := Except.ok.inj hr
      exact absurd (hI.groups.lt_of_holds hh) hp
    | flush =>
      have hheld := (IGroup.flush_spec (key_flush net) hI.groups hr).2.1 p hh
      exact absurd (hI.groups.lt_of_holds hheld) hp

theorem inv_run {es : List (Event ν β)} (hI : Inv net s) (hr : run (step net) s es = .ok s') :
    Inv net s' :=
  run_invariant (fun _ _ _ h hr => inv_step h hr) hI hr

/-- The conn added to the `SubGroup` at `p` first in a run, if that group is still there and still
    holds it. -/
theorem tracks_of_added {key : String} {obj : β} {es : List (Event ν β)} {g g' : IAppGroup ν β}
    (hI : Inv net s) (hg : s.mHeap.get? p = some g)
    (hr : run (step net) s (.call p (.addConn key obj) :: es) = .ok s') (hh : IGroup.Holds s' p)
    (hg' : s'.mHeap.get? p = some g') (hq : g'.Holds g.mHeap.cells.length) :
    ∃ c, g'.mHeap.get? g.mHeap.cells.length = some c ∧
      c.mStat.Tracks (activity p g.mHeap.cells.length es) := by
  obtain ⟨s₁, hs₁, hrest⟩ := bind_eq_ok.mp hr
  have hI₁ : Inv net s₁ := inv_step hI hs₁
  obtain ⟨hh₀, -⟩ := (follows_run (q := 0) hr).held hI.groups (Heap.lt_of_get? hg) hh
  have hIg := hI.conns p g hh₀ hg
  obtain ⟨g₀, hg₀, hcall⟩ := bind_eq_ok.mp hs₁
  obtain rfl : g = g₀ := Option.some.inj (hg.symm.trans (Heap.deref_eq_ok.mp hg₀))
  obtain rfl := Except.ok.inj hcall
  obtain ⟨-, hobj⟩ := (follows_run (q := g.mHeap.cells.length) hrest).held hI₁.groups
    ((Heap.lt_of_get? hg).trans_eq Heap.length_store.symm) hh
  obtain ⟨g'', hg'', hseen⟩ := hobj _ (Heap.get?_store_self hg)
  obtain rfl : g'' = g' := Option.some.inj (hg''.symm.trans hg')
  have hlt : g.mHeap.cells.length <
      (g.toIGroup.addConn IConn.ops { mKey := key, obj := obj }).mHeap.cells.length :=
    (Nat.lt_succ_self _).trans_eq Heap.length_alloc.symm
  obtain ⟨-, hstat⟩ := hseen.held (IGroup.inv_addConn hIg) hlt hq
  obtain ⟨c, hc, hs⟩ := hstat _ Heap.get?_alloc_self
  refine ⟨c, hc, ?_⟩
  rw [hs]
  exact DataStat.tracks_new.foldl _

end SubGroups

/-! ## What keeps a conn open -/

/-- A conn with sends and inputs since the last `Flush` is kept by the next one, and so is the
    `SubGroup` whose only conn it is and whose net group is alive, exactly when no interval had ended
    before or the last one to end had sends and inputs too. -/
theorem flush_keeps_active_iff {ν β : Type} (net : LiveOps ν) (id : String) :
    (∀ (es₁ es₂ : List (IGroup.Event β)) (key : String) (obj : β) (g₁ g₂ g₃ : IGroup (IConn β)),
      run IGroup.step { mKey := id } es₁ = .ok g₁ →
      run IGroup.step g₁ (.call (.addConn key obj) :: es₂) = .ok g₂ →
      g₂.Holds g₁.mHeap.cells.length →
      0 < (IGroup.activity g₁.mHeap.cells.length es₂).sends →
      0 < (IGroup.activity g₁.mHeap.cells.length es₂).inputs →
      g₂.step .flush = .ok g₃ →
      (g₃.Holds g₁.mHeap.cells.length ↔ (IGroup.activity g₁.mHeap.cells.length es₂).Settled)) ∧
    (∀ (es₁ es₂ : List (SubGroups.Event ν β)) (p : Ptr) (key : String) (obj : β)
        (s₁ s₂ s₃ : SubGroups ν β) (g₁ g₂ : IAppGroup ν β),
      run (SubGroups.step net) { mKey := id } es₁ = .ok s₁ →
      s₁.mHeap.get? p = some g₁ →
      run (SubGroups.step net) s₁ (.call p (.addConn key obj) :: es₂) = .ok s₂ →
      IGroup.Holds s₂ p → s₂.mHeap.get? p = some g₂ →
      g₂.mConns.entries.map Prod.snd = [g₁.mHeap.cells.length] →
      net.alive g₂.mFakeNetGroup = .ok true →
      0 < (SubGroups.activity p g₁.mHeap.cells.length es₂).sends →
      0 < (SubGroups.activity p g₁.mHeap.cells.length es₂).inputs →
      s₂.step net .flush = .ok s₃ →
      (IGroup.Holds s₃ p ↔ (SubGroups.activity p g₁.mHeap.cells.length es₂).Settled)) := by
  constructor
  · intro es₁ es₂ key obj g₁ g₂ g₃ h₁ h₂ hh _ _ hflush
    have hI₁ := IGroup.inv_run (IGroup.inv_empty _ _) h₁
    obtain ⟨c, hc, htracks⟩ := IGroup.tracks_of_added hI₁ h₂ hh
    rw [← htracks.alive, IGroup.holds_flush_iff IConn.key_flush (IGroup.inv_run hI₁ h₂) hflush hh hc]
    show (Except.ok c.mStat.mAlive : Except Fault Bool) = .ok true ↔ _
    rw [Except.ok.injEq]
  · intro es₁ es₂ p key obj s₁ s₂ s₃ g₁ g₂ h₁ hg₁ h₂ hh hg₂ hsingle hnet _ _ hflush
    have hI₁ := SubGroups.inv_run (SubGroups.inv_empty id) h₁
    have hq : g₂.Holds g₁.mHeap.cells.length := by
      have hmem : g₁.mHeap.cells.length ∈ g₂.mConns.entries.map Prod.snd := by
        rw [hsingle]
        exact List.mem_singleton_self _
      obtain ⟨e, he, heq⟩ := List.mem_map.mp hmem
      exact ⟨e.1, heq ▸ he⟩
    obtain ⟨c, hc, htracks⟩ := SubGroups.tracks_of_added hI₁ hg₁ h₂ hh hg₂ hq
    have halive : (IAppGroup.ops net).alive g₂ = .ok c.mStat.mAlive :=
      IAppGroup.alive_of_single hsingle hc hnet
    rw [← htracks.alive, IGroup.holds_flush_iff (SubGroups.key_flush net)
      (SubGroups.inv_run hI₁ h₂).groups hflush hh hg₂, halive, Except.ok.injEq]

/-- Two busy intervals in a row. -/
theorem flush_keeps_busy_conn : ∃ g₂ g₃ : IGroup (IConn Unit),
    run IGroup.step { mKey := "group" } [.call (.addConn "conn" ()), .call (.send 0 10),
      .call (.input 0 10), .flush, .call (.send 0 10), .call (.input 0 10)] = .ok g₂ ∧
    g₂.step .flush = .ok g₃ ∧ g₃.Holds 0 := by
  have h := (flush_keeps_active_iff (β := Unit) (⟨fun _ => .ok true, .ok⟩ : LiveOps Unit) "group").1
    [] [.call (.send 0 10), .call (.input 0 10), .flush, .call (.send 0 10), .call (.input 0 10)]
    "conn" () _ _ _ rfl rfl ⟨"conn", .head _⟩ (by decide) (by decide) rfl
  refine ⟨_, _, rfl, rfl, h.mpr ?_⟩
  intro o i hpast
  obtain ⟨rfl, rfl⟩ : 1 = o ∧ 1 = i := Prod.ext_iff.mp (Option.some.inj hpast)
  decide

/-- An idle interval and then a busy one: the `Flush` at the end of the busy one closes the conn. -/
theorem flush_closes_active_conn : ∃ g₂ g₃ : IGroup (IConn Unit),
    run IGroup.step { mKey := "group" } [.call (.addConn "conn" ()), .flush, .call (.send 0 10),
      .call (.input 0 10)] = .ok g₂ ∧ g₂.Holds 0 ∧
    (0 < (IGroup.activity (β := Unit) 0
        [.flush, .call (.send 0 10), .call (.input 0 10)]).sends ∧
      0 < (IGroup.activity (β := Unit) 0
        [.flush, .call (.send 0 10), .call (.input 0 10)]).inputs) ∧
    g₂.step .flush = .ok g₃ ∧ ¬ g₃.Holds 0 := by
  refine ⟨_, _, rfl, ⟨"conn", .head _⟩, by decide, rfl, ?_⟩
  rintro ⟨k, hk⟩
  cases hk

end Rsock
