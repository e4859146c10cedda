import Rsock.NetGroupLife
import Rsock.Proofs.NetGroupProofs

/-!
# Proofs: the life of a net conn

A ledger of the conns of a net group: each is in the tables, in a waiting message or closed, and in one
of these only. No operation but `Close` and the dispatch of a message deletes a conn, and none of
them uses a deleted one. The ledger is complete as long as no conn is added under a key that is taken.
-/

namespace Rsock

open CMem TransSys

namespace INetGroup

variable {P : NetConn → Prop} {g g' : INetGroup} {h h' : Heap NetConn} {p : ConnPtr} {c : NetConn}

/-- Any conn. -/
abbrev Any : NetConn → Prop := fun _ => True

/-- The conns in the tables and in the waiting messages. -/
def tracked (g : INetGroup) : List ConnPtr := g.mConns.entries.map Prod.snd ++ g.mHandler

/-- The heaps hold conns at the same places. -/
def SameCells (h h' : Heap NetConn) : Prop :=
  h'.cells.length = h.cells.length ∧ ∀ p, h'.get? p = none ↔ h.get? p = none

theorem sameCells_refl (h : Heap NetConn) : SameCells h h := ⟨rfl, fun _ => Iff.rfl⟩

theorem SameCells.trans {h'' : Heap NetConn} (h₁ : SameCells h h') (h₂ : SameCells h' h'') :
    SameCells h h'' :=
  ⟨h₂.1.trans h₁.1, fun p => (h₂.2 p).trans (h₁.2 p)⟩

/-- A store frees no cell. -/
theorem sameCells_store {c' : NetConn} (hc : h.get? p = some c) : SameCells h (h.store p c') := by
  refine ⟨Heap.length_store, ?_⟩
  intro q
  by_cases hpq : p = q
  · subst hpq
    rw [Heap.get?_store_self hc, hc]
    simp
  · rw [Heap.get?_store_of_ne hpq]

/-- A dead conn goes from the tables to the queue. -/
theorem perm_tracked_childConnErrCb {k : String} (hI : Inv P g h) (hnd : g.tracked.Nodup)
    (hk : (k, p) ∈ g.mConns.entries) (hr : g.childConnErrCb h p = .ok g') :
    g'.tracked.Perm g.tracked := by
  obtain ⟨c, hc, rfl⟩ := childConnErrCb_cases hr
  obtain ⟨c', hc', hkey⟩ := hI.exists_of_mem hk
  obtain rfl : c' = c := Option.some.inj (hc'.symm.trans hc)
  have hfind : g.mConns.find? c'.key = some (k, p) := by
    rw [hkey]
    exact StdMap.mem_iff_find?.mp hk
  have hout : (g.mConns.entries.map Prod.snd).Perm
      (p :: (g.mConns.erase c'.key).entries.map Prod.snd) :=
    (StdMap.entries_erase_perm hfind).map Prod.snd
  have hnot : p ∉ g.mHandler := by
    intro hq
    exact (List.nodup_append.mp hnd).2.2 p (List.mem_map_of_mem hk) p hq rfl
  unfold tracked
  rw [List.erase_of_not_mem hnot]
  have hlast : ((g.mConns.erase c'.key).entries.map Prod.snd ++ (g.mHandler ++ [p])).Perm
      (p :: ((g.mConns.erase c'.key).entries.map Prod.snd ++ g.mHandler)) := by
    rw [← List.append_assoc]
    exact List.perm_append_singleton p _
  exact hlast.trans (hout.append_right g.mHandler).symm

/-- From `g` and `h` to `g'` and `h'` conns have only moved from the tables to the messages. -/
def Moves (g : INetGroup) (h : Heap NetConn) (g' : INetGroup) (h' : Heap NetConn) : Prop :=
  Inv Any g h → g.tracked.Nodup → Inv Any g' h' ∧ g'.tracked.Perm g.tracked ∧ SameCells h h'

theorem moves_of_does {a : ConnAct} (hdoes : Does g h a g' h') : Moves g h g' h' := by
  intro hI hnd
  have hkeeps : Keeps Any g h g' h' := keeps_doesAll (fun _ _ _ _ => trivial) (.single hdoes)
  refine ⟨hkeeps.inv hI, ?_⟩
  cases hdoes with
  | childConnErr hk hc _ hr => exact ⟨perm_tracked_childConnErrCb hI hnd hk hr, sameCells_refl _⟩
  | output _ hc _ _ => exact ⟨List.Perm.refl _, sameCells_store hc⟩
  | onRecv hc _ => exact ⟨List.Perm.refl _, sameCells_store hc⟩
  | notifyErr hc => exact ⟨List.Perm.refl _, sameCells_store hc⟩

/-- Conns of a group are not lost while it works. -/
theorem moves_of_doesAll {as : List ConnAct} (hall : DoesAll g h as g' h') : Moves g h g' h' := by
  refine DoesAll.induct (T := Moves) ?_ ?_ (fun _ _ _ _ _ => moves_of_does) hall
  · intro g h hI _
    exact ⟨hI, List.Perm.refl _, sameCells_refl h⟩
  · intro g h g' h' g'' h'' h₁ h₂ hI hnd
    obtain ⟨hI', hperm, hcells⟩ := h₁ hI hnd
    obtain ⟨hI'', hperm', hcells'⟩ := h₂ hI' (hperm.nodup_iff.mpr hnd)
    exact ⟨hI'', hperm'.trans hperm, hcells.trans hcells'⟩

/-! ## Sending and flushing return -/

/-- A conn can always send. -/
theorem output_ok (c : NetConn) (o : OutCall) :
    ∃ c' n, c.output o.hd o.payload o.toSendCall.below = .ok (c', n, ()) := by
  cases c with
  | fakeTcp c => exact ⟨_, _, rfl⟩
  | fakeUdp c => exact ⟨_, _, rfl⟩

theorem childConnErrCb_ok (hI : Inv P g h) (hc : h.get? p = some c) :
    ∃ g', g.childConnErrCb h p = .ok g' := by
  obtain ⟨g', hg', -⟩ := removeConn_spec hI hc
  exact ⟨_, by rw [childConnErrCb, hg']; rfl⟩

/-- A pass is no fault. -/
theorem doSendPass_ok (o : OutCall) (pick : Nat) (hI : Inv Any g h) (hsize : g.mConns.size ≠ 0) :
    ∃ g' h' r, doSendPass o.toSendCall pick g h = .ok (g', h', r) := by
  have hlt : pick % g.mConns.size < g.mConns.entries.length :=
    Nat.mod_lt _ (Nat.pos_of_ne_zero hsize)
  obtain ⟨⟨k, p⟩, hk⟩ : ∃ e, g.mConns.entries[pick % g.mConns.size]? = some e :=
    ⟨_, List.getElem?_eq_getElem hlt⟩
  obtain ⟨c, hc, -⟩ := hI.exists_of_mem (List.mem_of_getElem? hk)
  simp only [doSendPass, hk, Heap.deref_eq_ok.mpr hc, ok_bind]
  split
  · split
    · exact ⟨_, _, _, rfl⟩
    · obtain ⟨c', n, hout⟩ := output_ok c o
      have hout' : c.output o.toSendCall.hd o.toSendCall.payload o.toSendCall.below =
        .ok (c', n, ()) := hout
      rw [hout']
      exact ⟨_, _, _, rfl⟩
  · obtain ⟨g', hg'⟩ := childConnErrCb_ok hI hc
    rw [hg']
    exact ⟨_, _, _, rfl⟩

theorem doSendLoop_ok {o : OutCall} {picks : List Nat} (hI : Inv Any g h) :
    ∃ r, doSendLoop o.toSendCall picks g h = .ok r := by
  induction picks generalizing g h with
  | nil =>
    unfold doSendLoop
    split <;> exact ⟨_, rfl⟩
  | cons pick picks ih =>
    unfold doSendLoop
    split
    · exact ⟨_, rfl⟩
    next hsize =>
    obtain ⟨g₁, h₁, r, hpass⟩ := doSendPass_ok o pick hI hsize
    obtain ⟨as, hall, -⟩ := doesAll_doSendPass hpass
    simp only [hpass, ok_bind]
    cases r with
    | some n => exact ⟨_, rfl⟩
    | none => exact ih ((keeps_doesAll (fun _ _ _ _ => trivial) hall).inv hI)

/-- Sending is no fault. -/
theorem doSend_ok (o : OutCall) (hI : Inv Any g h) : ∃ r, g.doSend h o.toSendCall = .ok r := by
  unfold doSend
  split
  · exact doSendLoop_ok hI
  · exact ⟨_, rfl⟩

theorem doSends_ok (os : List OutCall) (hI : Inv Any g h) :
    ∃ r, g.doSends h (os.map OutCall.toSendCall) = .ok r := by
  induction os generalizing g h with
  | nil => exact ⟨_, rfl⟩
  | cons o os ih =>
    obtain ⟨⟨g₁, h₁, r⟩, hr⟩ := doSend_ok o hI
    obtain ⟨as, hall, -⟩ := doesAll_doSend hr
    have hI₁ : Inv Any g₁ h₁ := (keeps_doesAll (fun _ _ _ _ => trivial) hall).inv hI
    rw [List.map_cons, doSends, hr]
    exact ih hI₁

theorem fails_ok {l : List (String × ConnPtr)} (hl : ∀ e ∈ l, ∃ c, h.get? e.2 = some c) :
    ∃ ps, fails h l = .ok ps := by
  induction l with
  | nil => exact ⟨_, rfl⟩
  | cons e l ih =>
    obtain ⟨c, hc⟩ := hl e List.mem_cons_self
    obtain ⟨ps, hps⟩ := ih fun e' he' => hl e' (List.mem_cons_of_mem _ he')
    rw [fails, Heap.deref_eq_ok.mpr hc, ok_bind, hps]
    exact ⟨_, rfl⟩

theorem onConnsDead_ok {ps : List ConnPtr} (hI : Inv Any g h)
    (hps : ∀ p ∈ ps, ∃ c, h.get? p = some c) : ∃ g', g.onConnsDead h ps = .ok g' := by
  induction ps generalizing g with
  | nil => exact ⟨_, rfl⟩
  | cons p ps ih =>
    obtain ⟨c, hc⟩ := hps p List.mem_cons_self
    obtain ⟨g₁, hg₁⟩ := childConnErrCb_ok hI hc
    rw [onConnsDead, hg₁]
    exact ih ((keeps_childConnErrCb hg₁).inv hI) fun q hq => hps q (List.mem_cons_of_mem _ hq)

/-- A flush is no fault. -/
theorem flush_ok (hI : Inv Any g h) : ∃ g', g.flush h = .ok g' := by
  obtain ⟨ps, hps⟩ : ∃ ps, fails h g.mConns.entries = .ok ps := by
    apply fails_ok
    intro e he
    obtain ⟨c, hc, -⟩ := hI.exists_of_mem he
    exact ⟨c, hc⟩
  rw [flush, hps]
  apply onConnsDead_ok hI
  intro p hp
  obtain ⟨c, hc, -⟩ := (fails_spec hps).2 p hp
  exact ⟨c, hc⟩

end INetGroup

/-! ## The ledger -/

namespace ConnLife

open INetGroup

variable {s s' : ConnLife} {p : ConnPtr}

/-- Every conn that was ever added. -/
def Added (s : ConnLife) (p : ConnPtr) : Prop := p < s.heap.cells.length

/-- The tables are in order, no conn is in two places, and the closed conns are the deleted ones. -/
structure Ledger (s : ConnLife) : Prop where
  inv : Inv Any s.group s.heap
  nodup : (s.group.tracked ++ s.closes).Nodup
  added : ∀ p ∈ s.group.tracked ++ s.closes, s.Added p
  deleted : ∀ p, s.Added p → (s.heap.get? p = none ↔ p ∈ s.closes)

/-- No conn is missing. -/
def Complete (s : ConnLife) : Prop := ∀ p, s.Added p → p ∈ s.group.tracked ++ s.closes

/-- It holds of a group without conns. -/
theorem ledger_empty : Ledger {} where
  inv := inv_empty _ _
  nodup := List.nodup_nil
  added := by
    intro p hp
    cases hp
  deleted := by
    intro p hp
    cases hp

/-- Operations that neither add nor delete a conn. -/
theorem ledger_of_moves {g' : INetGroup} {h' : Heap NetConn} (hL : s.Ledger)
    (hm : Moves s.group s.heap g' h') :
    Ledger { s with group := g', heap := h' } ∧
      (Complete { s with group := g', heap := h' } ↔ s.Complete) := by
  obtain ⟨hI, hperm, hlen, hcells⟩ := hm hL.inv (List.nodup_append.mp hL.nodup).1
  have hall : (g'.tracked ++ s.closes).Perm (s.group.tracked ++ s.closes) :=
    hperm.append_right s.closes
  have hadded : ∀ p, Added { s with group := g', heap := h' } p ↔ s.Added p := by
    intro p
    rw [Added, Added, hlen]
  refine ⟨⟨hI, hall.nodup_iff.mpr hL.nodup, ?_, ?_⟩, ?_⟩
  · intro p hp
    exact (hadded p).mpr (hL.added p (hall.mem_iff.mp hp))
  · intro p hp
    exact (hcells p).trans (hL.deleted p ((hadded p).mp hp))
  · refine forall_congr' fun p => ?_
    rw [hadded]
    exact imp_congr_right fun _ => hall.mem_iff

/-! ### New conns -/

theorem addNetConn_eq {conn : NetConn} (hr : s.addNetConn conn = .ok s') :
    s' = { s with
      group.mConns := s.group.mConns.emplace conn.key s.heap.cells.length
      group.mConnMap := s.group.mConnMap.emplace conn.intKey s.heap.cells.length
      heap := (s.heap.alloc conn).1 } := by
  obtain ⟨g', hg', hr⟩ := bind_eq_ok.mp hr
  obtain rfl := Except.ok.inj hr
  obtain ⟨c, hc, hg'⟩ := bind_eq_ok.mp hg'
  have hself : (s.heap.alloc conn).1.get? (s.heap.alloc conn).2 = some conn := Heap.get?_alloc_self
  obtain rfl : conn = c := Option.some.inj (hself.symm.trans (Heap.deref_eq_ok.mp hc))
  obtain ⟨-, -, hg'⟩ := bind_eq_ok.mp hg'
  obtain rfl := Except.ok.inj hg'
  rfl

/-- A conn that is added is in the tables, or nowhere if its key was in use. -/
theorem addNetConn_cases {conn : NetConn} (hI : Inv Any s.group s.heap)
    (hr : s.addNetConn conn = .ok s') :
    s'.heap = (s.heap.alloc conn).1 ∧ s'.closes = s.closes ∧ Inv Any s'.group s'.heap ∧
      (s.group.mConns.find? conn.key = none →
        s'.group.tracked.Perm (s.heap.cells.length :: s.group.tracked)) ∧
      (s.group.mConns.find? conn.key ≠ none → s'.group.tracked = s.group.tracked) := by
  have hinv : Inv Any s'.group s'.heap := by
    obtain ⟨g', hg', hr⟩ := bind_eq_ok.mp hr
    obtain rfl := Except.ok.inj hr
    exact (keeps_addNetConn (fun _ _ _ _ => trivial) trivial hg').inv hI
  obtain rfl := addNetConn_eq hr
  refine ⟨rfl, rfl, hinv, ?_, ?_⟩
  · intro hfree
    exact ((StdMap.entries_emplace_perm hfree _).map Prod.snd).append_right _
  · intro htaken
    obtain ⟨e, he⟩ := Option.ne_none_iff_exists'.mp htaken
    show ((s.group.mConns.emplace conn.key _).entries.map Prod.snd) ++ s.group.mHandler = _
    rw [StdMap.emplace_of_find? he]
    rfl

/-- The only conn that can come into the tables is the new one. -/
theorem mem_ptrs_addNetConn {conn : NetConn} (hr : s.addNetConn conn = .ok s')
    (hp : p ∈ s'.group.mConns.entries.map Prod.snd) :
    p ∈ s.group.mConns.entries.map Prod.snd ∨ p = s.heap.cells.length := by
  obtain rfl := addNetConn_eq hr
  obtain ⟨e, he, rfl⟩ := List.mem_map.mp hp
  rcases StdMap.mem_emplace.mp he with he | ⟨-, rfl⟩
  · exact .inl (List.mem_map_of_mem he)
  · exact .inr rfl

theorem mHandler_addNetConn {conn : NetConn} (hr : s.addNetConn conn = .ok s') :
    s'.group.mHandler = s.group.mHandler := by
  rw [addNetConn_eq hr]

theorem get?_alloc_eq_none {h : Heap NetConn} {c : NetConn} {p : ConnPtr}
    (hp : p < h.cells.length) : (h.alloc c).1.get? p = none ↔ h.get? p = none := by
  rw [Heap.get?, Heap.get?, Heap.alloc, List.getElem?_append_left hp]

/-- The ledger is complete with a new conn exactly if its key was free. -/
theorem ledger_addNetConn {conn : NetConn} (hL : s.Ledger) (hr : s.addNetConn conn = .ok s') :
    s'.Ledger ∧ (s'.Complete ↔ s.Complete ∧ s.group.mConns.find? conn.key = none) := by
  obtain ⟨hheap, hcloses, hI, hfree, htaken⟩ := addNetConn_cases hL.inv hr
  have hadded : ∀ p, s'.Added p ↔ s.Added p ∨ p = s.heap.cells.length := by
    intro p
    rw [Added, Added, hheap, Heap.length_alloc, Nat.lt_succ_iff_lt_or_eq]
  have hnew : s.heap.cells.length ∉ s.group.tracked ++ s.closes := by
    intro hmem
    exact lt_irrefl _ (hL.added _ hmem)
  have hdeleted : ∀ p, s'.Added p → (s'.heap.get? p = none ↔ p ∈ s'.closes) := by
    intro p hp
    rw [hcloses, hheap]
    rcases (hadded p).mp hp with hp | rfl
    · rw [get?_alloc_eq_none hp]
      exact hL.deleted p hp
    · have hsome : (s.heap.alloc conn).1.get? s.heap.cells.length = some conn := Heap.get?_alloc_self
      rw [hsome]
      refine iff_of_false (by simp) ?_
      intro hmem
      exact hnew (List.mem_append_right _ hmem)
  by_cases hkey : s.group.mConns.find? conn.key = none
  · have hall : (s'.group.tracked ++ s'.closes).Perm
        (s.heap.cells.length :: (s.group.tracked ++ s.closes)) := by
      rw [hcloses]
      exact (hfree hkey).append_right s.closes
    refine ⟨⟨hI, ?_, ?_, hdeleted⟩, ?_⟩
    · exact hall.nodup_iff.mpr (List.nodup_cons.mpr ⟨hnew, hL.nodup⟩)
    · intro p hp
      rw [hadded]
      rcases List.mem_cons.mp (hall.mem_iff.mp hp) with rfl | hp
      · exact .inr rfl
      · exact .inl (hL.added p hp)
    · rw [and_iff_left hkey]
      constructor
      · intro hC p hp
        rcases List.mem_cons.mp (hall.mem_iff.mp (hC p ((hadded p).mpr (.inl hp)))) with rfl | hmem
        · exact absurd hp (lt_irrefl _)
        · exact hmem
      · intro hC p hp
        rw [hall.mem_iff, List.mem_cons]
        rcases (hadded p).mp hp with hp | rfl
        · exact .inr (hC p hp)
        · exact .inl rfl
  · have hall : s'.group.tracked ++ s'.closes = s.group.tracked ++ s.closes := by
      rw [hcloses, htaken hkey]
    refine ⟨⟨hI, hall ▸ hL.nodup, ?_, hdeleted⟩, iff_of_false ?_ fun h => hkey h.2⟩
    · intro p hp
      rw [hall] at hp
      exact (hadded p).mpr (.inl (hL.added p hp))
    · -- the new conn is in no table and in no message
      intro hC
      have hmem := hC _ ((hadded _).mpr (.inr rfl))
      rw [hall] at hmem
      exact hnew hmem

/-! ### Closed conns -/

theorem closeAndDelete_cases (hr : s.closeAndDelete p = .ok s') :
    ∃ h', s.heap.free p = .ok h' ∧ s' = { s with heap := h', closes := p :: s.closes } := by
  obtain ⟨h', hh', hr⟩ := bind_eq_ok.mp hr
  exact ⟨h', hh', (Except.ok.inj hr).symm⟩

/-- A conn that has been taken out of the tables or the messages is closed and deleted. -/
theorem ledger_closeAndDelete {g : INetGroup} (hL : s.Ledger) (hI : Inv Any g s.heap)
    (hg : s.group.tracked.Perm (p :: g.tracked))
    (hr : closeAndDelete { s with group := g } p = .ok s') :
    s'.Ledger ∧ (s'.Complete ↔ s.Complete) ∧ s'.closes = p :: s.closes ∧ s'.group = g ∧
      s'.heap.cells.length = s.heap.cells.length := by
  obtain ⟨h', hfree, rfl⟩ := closeAndDelete_cases hr
  have hall : (g.tracked ++ p :: s.closes).Perm (s.group.tracked ++ s.closes) :=
    List.perm_middle.trans (hg.append_right s.closes).symm
  have hnd : (p :: g.tracked ++ s.closes).Nodup :=
    (hg.append_right s.closes).nodup_iff.mp hL.nodup
  have hadded : ∀ q, Added { s with group := g, heap := h', closes := p :: s.closes } q ↔
      s.Added q := by
    intro q
    rw [Added, Added, Heap.length_free hfree]
  refine ⟨⟨?_, hall.nodup_iff.mpr hL.nodup, ?_, ?_⟩, ?_, rfl, rfl, Heap.length_free hfree⟩
  · -- no table refers to the deleted conn
    refine ⟨hI.perm, ?_⟩
    intro e he
    obtain ⟨c, hc, hk, -⟩ := hI.conn e he
    have hne : p ≠ e.2 := by
      rintro rfl
      have hmem : textEntry e ∈ g.mConns.entries := hI.perm.mem_iff.mpr (List.mem_map_of_mem he)
      have htab : e.2 ∈ g.mConns.entries.map Prod.snd := List.mem_map_of_mem hmem
      exact (List.nodup_cons.mp hnd).1 (List.mem_append_left _ (List.mem_append_left _ htab))
    exact ⟨c, (Heap.get?_free_of_ne hfree hne).trans hc, hk, trivial⟩
  · intro q hq
    exact (hadded q).mpr (hL.added q (hall.mem_iff.mp hq))
  · intro q hq
    by_cases hpq : p = q
    · subst hpq
      exact iff_of_true (Heap.get?_free_self hfree) List.mem_cons_self
    · rw [Heap.get?_free_of_ne hfree hpq, List.mem_cons, or_iff_right (Ne.symm hpq)]
      exact hL.deleted q ((hadded q).mp hq)
  · refine forall_congr' fun q => ?_
    rw [hadded]
    exact imp_congr_right fun _ => hall.mem_iff

/-- A conn that is tracked exists. -/
theorem Ledger.get?_of_tracked (hL : s.Ledger) (hp : p ∈ s.group.tracked) :
    ∃ c, s.heap.get? p = some c := by
  have hadd := hL.added p (List.mem_append_left _ hp)
  rw [← Option.ne_none_iff_exists', Ne, hL.deleted p hadd]
  intro hcl
  exact (List.nodup_append.mp hL.nodup).2.2 p hp p hcl rfl

/-! ### One event -/

/-- The conn an event hands to `AddNetConn`. -/
def adds (s : ConnLife) : Event → Option NetConn
  | .addNetConn conn => some conn
  | .input info created _ _ =>
    match info.base.head with
    | some head => if s.group.mConnMap.get? head.mConnKey = none then created else none
    | none => none
  | _ => none

/-- No conn has the key of a conn that is added. -/
def FreeKey (s : ConnLife) (e : Event) : Prop :=
  ∀ c, s.adds e = some c → s.group.mConns.find? c.key = none

theorem freeKey_of_adds_none {e : Event} (h : s.adds e = none) : s.FreeKey e := by
  intro c hc
  rw [h] at hc
  cases hc

/-- A packet may bring a conn. -/
theorem input_cases {info : Info} {created : Option NetConn} {ups : List OutCall} {n : Int}
    (hI : Inv Any s.group s.heap) (hr : s.input info created ups n = .ok s') :
    (s.adds (.input info created ups n) = none ∧ s'.closes = s.closes ∧
      ∃ as, DoesAll s.group s.heap as s'.group s'.heap) ∨
    ∃ c s₁, s.adds (.input info created ups n) = some c ∧ s.addNetConn c = .ok s₁ ∧
      s'.closes = s₁.closes ∧ ∃ as, DoesAll s₁.group s₁.heap as s'.group s'.heap := by
  obtain ⟨⟨st, g', h', n'⟩, hin, hr⟩ := bind_eq_ok.mp hr
  obtain rfl := Except.ok.inj hr
  obtain ⟨head, hhead, hcases⟩ := input_eq_ok_iff.mp hin
  have hadds : s.adds (.input info created ups n) =
      if s.group.mConnMap.get? head.mConnKey = none then created else none := by
    simp only [adds, hhead]
  rw [hadds]
  simp only [hI.connOfIntKey_eq, Except.ok.injEq] at hcases
  rcases hcases with ⟨p, hfind, -, hconn⟩ | ⟨c, g₁, hfind, hnew, hadd, hconn⟩ |
    ⟨hfind, hnew, hups, -⟩
  · exact .inl ⟨by simp [hfind], rfl, doesAll_connInput hconn⟩
  · cases hnew
    refine .inr ⟨c, { s with group := g₁, heap := (s.heap.alloc c).1 }, by simp [hfind], ?_, rfl,
      doesAll_connInput hconn⟩
    rw [addNetConn]
    simp only [hadd, ok_bind]
    rfl
  · cases hnew
    exact .inl ⟨by simp [hfind], rfl, doesAll_doSends hups⟩

/-- An event that neither adds nor deletes a conn. -/
theorem doesAll_step {e : Event} (hI : Inv Any s.group s.heap) (hadds : s.adds e = none)
    (he : e ≠ .handleMessage) (hr : s.step e = .ok s') :
    s'.closes = s.closes ∧ ∃ as, DoesAll s.group s.heap as s'.group s'.heap := by
  cases e with
  | addNetConn conn => cases hadds
  | input info created ups n =>
    rcases input_cases hI hr with ⟨-, hcl, hall⟩ | ⟨c, s₁, hadds', -⟩
    · exact ⟨hcl, hall⟩
    · rw [hadds] at hadds'
      cases hadds'
  | send call =>
    obtain ⟨⟨g', h', r⟩, hsend, hr⟩ := bind_eq_ok.mp hr
    obtain rfl := Except.ok.inj hr
    obtain ⟨as, hall, -⟩ := doesAll_doSend hsend
    exact ⟨rfl, as, hall⟩
  | flush =>
    obtain ⟨g', hflush, hr⟩ := bind_eq_ok.mp hr
    obtain rfl := Except.ok.inj hr
    obtain ⟨as, hall, -⟩ := doesAll_flush hI hflush
    exact ⟨rfl, as, hall⟩
  | notifyErr key err =>
    obtain ⟨⟨h', b⟩, herr, hr⟩ := bind_eq_ok.mp hr
    obtain rfl := Except.ok.inj hr
    obtain ⟨as, hall, -⟩ := doesAll_notifyErr herr
    exact ⟨rfl, as, hall⟩
  | onTcpError p =>
    by_cases hp : p ∈ s.closes
    · rw [step, if_pos hp] at hr
      obtain rfl := Except.ok.inj hr
      exact ⟨rfl, [], .nil _ _⟩
    · rw [step, if_neg hp] at hr
      obtain ⟨h', herr, hr⟩ := bind_eq_ok.mp hr
      obtain rfl := Except.ok.inj hr
      obtain ⟨c, hc, herr⟩ := bind_eq_ok.mp herr
      cases c with
      | fakeTcp c =>
        cases herr
        exact ⟨rfl, _, .single (.notifyErr (Heap.deref_eq_ok.mp hc))⟩
      | fakeUdp c => cases herr
  | handleMessage => exact absurd rfl he

/-- The dispatch of a message: the conn is closed and deleted. -/
theorem handleMessage_cases {info : Option Info} (hr : s.handleMessage = .ok (s', info)) :
    (s.group.mHandler = [] ∧ s' = s ∧ info = none) ∨
    ∃ p ps c, s.group.mHandler = p :: ps ∧ s.heap.get? p = some c ∧ info = some c.getInfo ∧
      closeAndDelete { s with group := { s.group with mHandler := ps } } p = .ok s' := by
  unfold handleMessage at hr
  split at hr
  · next hq =>
    cases hr
    exact .inl ⟨hq, rfl, rfl⟩
  · next p ps hq =>
    obtain ⟨c, hc, hr⟩ := bind_eq_ok.mp hr
    obtain ⟨s₁, hclose, hr⟩ := bind_eq_ok.mp hr
    cases hr
    exact .inr ⟨p, ps, c, hq, Heap.deref_eq_ok.mp hc, rfl, hclose⟩

theorem perm_tracked_of_handler {ps : List ConnPtr} (hq : s.group.mHandler = p :: ps) :
    s.group.tracked.Perm (p :: tracked { s.group with mHandler := ps }) := by
  rw [tracked, hq]
  exact List.perm_middle

/-- The same, seen from the conns that are left. -/
theorem handleMessage_spec {info : Option Info} (hL : s.Ledger)
    (hr : s.handleMessage = .ok (s', info)) :
    (s' = s ∧ info = none) ∨
    ∃ p c, s.group.mHandler = p :: s'.group.mHandler ∧ s.heap.get? p = some c ∧
      info = some c.getInfo ∧ s.group.tracked.Perm (p :: s'.group.tracked) ∧
      (∀ q ∈ s'.group.tracked, s'.heap.get? q = s.heap.get? q) ∧
      s'.heap.cells.length = s.heap.cells.length ∧
      ∀ q c, s'.heap.get? q = some c → s.heap.get? q = some c := by
  rcases handleMessage_cases hr with ⟨-, rfl, rfl⟩ | ⟨p, ps, c, hq, hc, rfl, hclose⟩
  · exact .inl ⟨rfl, rfl⟩
  · obtain ⟨h', hfree, rfl⟩ := closeAndDelete_cases hclose
    have hfree' : s.heap.free p = .ok h' := hfree
    have hperm := perm_tracked_of_handler hq
    have hnd := hperm.nodup_iff.mp (List.nodup_append.mp hL.nodup).1
    refine .inr ⟨p, c, hq, hc, rfl, hperm, ?_, Heap.length_free hfree', ?_⟩
    · intro q hmem
      exact Heap.get?_free_of_ne hfree' fun hpq => (List.nodup_cons.mp hnd).1 (hpq ▸ hmem)
    · intro q d hd
      have hd' : h'.get? q = some d := hd
      by_cases hpq : p = q
      · rw [← hpq, Heap.get?_free_self hfree'] at hd'
        cases hd'
      · exact (Heap.get?_free_of_ne hfree' hpq).symm.trans hd'

/-- Every step keeps the ledger, and keeps it complete exactly if a conn it adds has a free key. -/
theorem ledger_step {e : Event} (hL : s.Ledger) (hr : s.step e = .ok s') :
    s'.Ledger ∧ (s'.Complete ↔ s.Complete ∧ s.FreeKey e) := by
  have hdoes : s.adds e = none → e ≠ .handleMessage →
      s'.Ledger ∧ (s'.Complete ↔ s.Complete ∧ s.FreeKey e) := by
    intro hadds he
    obtain ⟨hcl, as, hall⟩ := doesAll_step hL.inv hadds he hr
    obtain ⟨hL', hC⟩ := ledger_of_moves hL (moves_of_doesAll hall)
    rw [← hcl] at hL' hC
    exact ⟨hL', hC.trans (and_iff_left (freeKey_of_adds_none hadds)).symm⟩
  cases e with
  | addNetConn conn =>
    obtain ⟨hL', hC⟩ := ledger_addNetConn hL hr
    refine ⟨hL', hC.trans (and_congr_right fun _ => ?_)⟩
    simp [FreeKey, adds]
  | input info created ups n =>
    rcases input_cases hL.inv hr with ⟨hadds, -⟩ | ⟨c, s₁, hadds, hadd, hcl, as, hall⟩
    · exact hdoes hadds (by simp)
    · obtain ⟨hL₁, hC₁⟩ := ledger_addNetConn hL hadd
      obtain ⟨hL', hC⟩ := ledger_of_moves hL₁ (moves_of_doesAll hall)
      rw [← hcl] at hL' hC
      refine ⟨hL', hC.trans (hC₁.trans (and_congr_right fun _ => ?_))⟩
      simp [FreeKey, hadds]
  | send call => exact hdoes rfl (by simp)
  | flush => exact hdoes rfl (by simp)
  | notifyErr key err => exact hdoes rfl (by simp)
  | onTcpError p => exact hdoes rfl (by simp)
  | handleMessage =>
    have hC : s.Complete ↔ s.Complete ∧ s.FreeKey .handleMessage :=
      (and_iff_left (freeKey_of_adds_none rfl)).symm
    obtain ⟨⟨s₁, info⟩, hmsg, hr⟩ := bind_eq_ok.mp hr
    obtain rfl := Except.ok.inj hr
    rcases handleMessage_cases hmsg with ⟨-, rfl, -⟩ | ⟨p, ps, c, hq, -, -, hclose⟩
    · exact ⟨hL, hC⟩
    · obtain ⟨hL', hC', -⟩ :=
        ledger_closeAndDelete (g := { s.group with mHandler := ps }) hL
          ⟨hL.inv.perm, hL.inv.conn⟩ (perm_tracked_of_handler hq) hclose
      exact ⟨hL', hC'.trans hC⟩

/-! ### No conn is used after its deletion -/

theorem cassert_ne_useAfterFree {c : Prop} [Decidable c] : cassert c ≠ .error .useAfterFree := by
  by_cases hc : c
  · rw [cassert_pos hc]
    simp
  · rw [cassert_neg hc]
    simp

theorem onRecv_ne_useAfterFree {c : NetConn} {info : Info} {n : Int} :
    c.onRecv info n ≠ .error .useAfterFree := by
  cases c with
  | fakeTcp c =>
    cases info with
    | tcp i =>
      refine bind_ne_error (bind_ne_error cassert_ne_useAfterFree ?_) ?_
      · intro _ _ h
        cases h
      · intro _ _ h
        cases h
    | udp i =>
      refine bind_ne_error cassert_ne_useAfterFree ?_
      intro _ _
      split <;> simp [pure, Except.pure]
  | fakeUdp c =>
    refine bind_ne_error cassert_ne_useAfterFree ?_
    intro _ _ h
    cases h

/-- A conn that gets a packet is used before it is deleted. -/
theorem connInput_ne_useAfterFree {g : INetGroup} {h : Heap NetConn} {c : NetConn} {info : Info}
    {ups : List OutCall} {n : Int} (hI : Inv Any g h) (hnd : g.tracked.Nodup)
    (hc : h.get? p = some c) :
    g.connInput h p info (ups.map OutCall.toSendCall) n ≠ .error .useAfterFree := by
  obtain ⟨⟨g₁, h₁⟩, hups⟩ := doSends_ok ups hI
  obtain ⟨as, hall⟩ := doesAll_doSends hups
  obtain ⟨-, -, -, hcells⟩ := moves_of_doesAll hall hI hnd
  obtain ⟨c₁, hc₁⟩ : ∃ c₁, h₁.get? p = some c₁ := by
    rw [← Option.ne_none_iff_exists', Ne, hcells p, hc]
    simp
  rw [connInput, hups, ok_bind]
  simp only [Heap.deref_eq_ok.mpr hc₁, ok_bind]
  refine bind_ne_error onRecv_ne_useAfterFree ?_
  intro _ _ h
  cases h

theorem addNetConn_ok (conn : NetConn) (hI : Inv Any s.group s.heap) :
    ∃ s', s.addNetConn conn = .ok s' := by
  have hI' : Inv Any s.group (s.heap.alloc conn).1 :=
    hI.evolves (fun _ _ _ _ => trivial) (Heap.evolves_alloc NetConn.like_refl _ _)
  obtain ⟨g', hg', -⟩ := addNetConn_spec hI' Heap.get?_alloc_self (p := (s.heap.alloc conn).2) trivial
  rw [addNetConn]
  simp only [hg', ok_bind]
  exact ⟨_, rfl⟩

/-- So is every conn that a packet concerns. -/
theorem input_ne_useAfterFree {info : Info} {created : Option NetConn} {ups : List OutCall} {n : Int}
    (hL : s.Ledger) : s.input info created ups n ≠ .error .useAfterFree := by
  refine bind_ne_error ?_ fun _ _ h => by cases h
  unfold INetGroup.input
  split
  · simp
  next head hhead =>
  rw [hL.inv.connOfIntKey_eq, ok_bind]
  have hnd : s.group.tracked.Nodup := (List.nodup_append.mp hL.nodup).1
  cases hfind : s.group.mConnMap.get? head.mConnKey with
  | some p =>
    obtain ⟨c, hc, -⟩ := hL.inv.get?_conn hfind
    exact bind_ne_error (connInput_ne_useAfterFree hL.inv hnd hc) fun _ _ h => by cases h
  | none =>
    cases created with
    | none =>
      obtain ⟨r, hr⟩ := doSends_ok ups hL.inv
      simp only [ok_bind, hr]
      simp [pure, Except.pure]
    | some c =>
      obtain ⟨s₁, hs₁⟩ := addNetConn_ok c hL.inv
      obtain ⟨hL₁, -⟩ := ledger_addNetConn hL hs₁
      obtain ⟨g₁, hg₁, hret⟩ := bind_eq_ok.mp hs₁
      obtain rfl := Except.ok.inj hret
      have hg₁' : s.group.addNetConn (s.heap.alloc c).1 (s.heap.alloc c).2 = .ok g₁ := hg₁
      simp only [ok_bind, hg₁']
      refine bind_ne_error ?_ fun _ _ h => by cases h
      exact connInput_ne_useAfterFree hL₁.inv (List.nodup_append.mp hL₁.nodup).1 Heap.get?_alloc_self

theorem closeAndDelete_ok {c : NetConn} (hc : s.heap.get? p = some c) :
    ∃ s', s.closeAndDelete p = .ok s' := by
  rw [closeAndDelete, Heap.free, Heap.deref_eq_ok.mpr hc]
  exact ⟨_, rfl⟩

/-- No step uses a conn that has been deleted. -/
theorem step_ne_useAfterFree {e : Event} (hL : s.Ledger) : s.step e ≠ .error .useAfterFree := by
  cases e with
  | addNetConn conn =>
    obtain ⟨s', hs'⟩ := addNetConn_ok conn hL.inv
    rw [step, hs']
    simp
  | input info created ups n => exact input_ne_useAfterFree hL
  | send call =>
    obtain ⟨r, hr⟩ := doSend_ok call hL.inv
    rw [step, hr]
    simp [pure, Except.pure]
  | flush =>
    obtain ⟨g', hg'⟩ := flush_ok hL.inv
    rw [step, hg']
    simp [pure, Except.pure]
  | notifyErr key err =>
    refine bind_ne_error (bind_ne_error ?_ ?_) fun _ _ h => by cases h
    · rw [hL.inv.connOfIntKey_eq]
      simp
    · intro conn hconn
      rw [hL.inv.connOfIntKey_eq] at hconn
      cases conn with
      | none => simp [pure, Except.pure]
      | some p =>
        obtain ⟨c, hc, -⟩ := hL.inv.get?_conn (Except.ok.inj hconn)
        simp [Heap.deref_eq_ok.mpr hc, pure, Except.pure]
  | onTcpError p =>
    by_cases hp : p ∈ s.closes
    · rw [step, if_pos hp]
      simp [pure, Except.pure]
    · rw [step, if_neg hp]
      refine bind_ne_error (bind_ne_error ?_ ?_) fun _ _ h => by cases h
      · -- a conn that is not closed is not deleted
        intro huaf
        by_cases hadd : s.Added p
        · obtain ⟨c, hc⟩ : ∃ c, s.heap.get? p = some c := by
            rw [← Option.ne_none_iff_exists', Ne, hL.deleted p hadd]
            exact hp
          rw [Heap.deref_eq_ok.mpr hc] at huaf
          cases huaf
        · rw [Heap.deref, List.getElem?_eq_none (Nat.le_of_not_lt hadd)] at huaf
          cases huaf
      · intro c _
        cases c <;> simp [pure, Except.pure]
  | handleMessage =>
    refine bind_ne_error ?_ fun _ _ h => by cases h
    unfold handleMessage
    split
    · simp [pure, Except.pure]
    · next p ps hq =>
      have hp : p ∈ s.group.tracked := by
        rw [tracked, hq]
        exact List.mem_append_right _ List.mem_cons_self
      obtain ⟨c, hc⟩ := hL.get?_of_tracked hp
      obtain ⟨s₁, hs₁⟩ := closeAndDelete_ok (s := { s with group.mHandler := ps }) hc
      rw [Heap.deref_eq_ok.mpr hc, ok_bind, hs₁]
      simp [pure, Except.pure]

/-! ## `INetGroup::Close` -/

/-- `CloseConn` of a conn in the tables: it is closed, unless its key is that of the group. -/
theorem closeConn_spec (key : String) {k : String} (hL : s.Ledger) (hk : (k, p) ∈ s.group.mConns.entries) :
    (k = key ∧ s.closeConn key p = .error .assertFailed) ∨
    ∃ s', s.closeConn key p = .ok s' ∧ s'.Ledger ∧ (s'.Complete ↔ s.Complete) ∧
      s'.closes = p :: s.closes ∧ s'.heap.cells.length = s.heap.cells.length ∧
      s'.group.mConns = s.group.mConns.erase k := by
  obtain ⟨c, hc, rfl⟩ := hL.inv.exists_of_mem hk
  have hfind : s.group.mConns.find? c.key = some (c.key, p) := StdMap.mem_iff_find?.mp hk
  have hget : s.group.mConns.get? c.key = some p := by
    rw [StdMap.get?, hfind]
    rfl
  unfold closeConn
  rw [Heap.deref_eq_ok.mpr hc, ok_bind]
  by_cases hkey : c.key = key
  · rw [cassert_neg (not_not_intro hkey)]
    exact .inl ⟨hkey, rfl⟩
  · right
    obtain ⟨g', hg', hI'⟩ := removeConn_spec hL.inv hc
    rw [cassert_pos hkey, ok_bind, cassert_pos hget, ok_bind, hg', ok_bind]
    obtain ⟨s', hs'⟩ := closeAndDelete_ok (s := { s with group := g' }) hc
    have hg'' : g' = { s.group with mConns := s.group.mConns.erase c.key,
                                    mConnMap := s.group.mConnMap.erase c.intKey } := by
      obtain ⟨c', hc', hret⟩ := bind_eq_ok.mp hg'
      obtain rfl : c' = c := Option.some.inj ((Heap.deref_eq_ok.mp hc').symm.trans hc)
      obtain ⟨-, -, hret⟩ := bind_eq_ok.mp hret
      obtain ⟨-, -, hret⟩ := bind_eq_ok.mp hret
      exact (Except.ok.inj hret).symm
    have htracked : s.group.tracked.Perm (p :: g'.tracked) := by
      rw [hg'']
      exact ((StdMap.entries_erase_perm hfind).map Prod.snd).append_right s.group.mHandler
    obtain ⟨hL', hC', hcl, hgr, hlen⟩ := ledger_closeAndDelete hL hI' htracked hs'
    exact ⟨s', hs', hL', hC', hcl, hlen, by rw [hgr, hg'']⟩

/-- The conns are closed one after the other, unless one has the key of the group. -/
theorem closeConns_spec (key : String) {ps : List ConnPtr} (hL : s.Ledger) (hnd : ps.Nodup)
    (hps : ∀ p ∈ ps, p ∈ s.group.mConns.entries.map Prod.snd) :
    ((∃ e ∈ s.group.mConns.entries, e.1 = key) ∧
      ps.foldlM (closeConn key) s = .error .assertFailed) ∨
    ∃ s', ps.foldlM (closeConn key) s = .ok s' ∧ s'.closes = ps.reverse ++ s.closes ∧
      s'.heap.cells.length = s.heap.cells.length := by
  induction ps generalizing s with
  | nil => exact .inr ⟨s, rfl, rfl, rfl⟩
  | cons p ps ih =>
    obtain ⟨hp, hnd'⟩ := List.nodup_cons.mp hnd
    obtain ⟨⟨k, q⟩, hk, rfl⟩ := List.mem_map.mp (hps p List.mem_cons_self)
    rw [List.foldlM_cons]
    rcases closeConn_spec key hL hk with ⟨hkey, herr⟩ | ⟨s₁, hs₁, hL₁, -, hcl, hlen, htab⟩
    · rw [herr]
      exact .inl ⟨⟨_, hk, hkey⟩, rfl⟩
    · have hps₁ : ∀ p' ∈ ps, p' ∈ s₁.group.mConns.entries.map Prod.snd := by
        intro p' hp'
        obtain ⟨e, he, rfl⟩ := List.mem_map.mp (hps p' (List.mem_cons_of_mem _ hp'))
        rw [htab]
        refine List.mem_map_of_mem (StdMap.mem_erase.mpr ⟨he, ?_⟩)
        intro hs
        exact hp (s.group.mConns.eq_of_same he hk hs ▸ hp')
      rw [hs₁, ok_bind]
      rcases ih hL₁ hnd' hps₁ with ⟨⟨e, he, hkey⟩, herr⟩ | ⟨s', hs', hcl', hlen'⟩
      · rw [htab] at he
        exact .inl ⟨⟨e, (StdMap.mem_erase.mp he).1, hkey⟩, herr⟩
      · refine .inr ⟨s', hs', ?_, hlen'.trans hlen⟩
        rw [hcl', hcl]
        simp

/-- `Close` closes the conns that are in the tables. -/
theorem close_spec (key : String) (hL : s.Ledger) :
    ((∃ e ∈ s.group.mConns.entries, e.1 = key) ∧ s.close key = .error .assertFailed) ∨
    ∃ s', s.close key = .ok s' ∧ s'.heap.cells.length = s.heap.cells.length ∧
      s'.closes = (s.group.mConns.entries.map Prod.snd).reverse ++ s.closes := by
  unfold close
  rcases closeConns_spec key hL hL.inv.nodup_ptrs fun _ => id with
    ⟨hkey, herr⟩ | ⟨s', hs', hcl, hlen⟩
  · rw [herr]
    exact .inl ⟨hkey, rfl⟩
  · rw [hs']
    exact .inr ⟨_, rfl, hlen, hcl⟩

/-- None of them has been closed before. -/
theorem nodup_closed (hL : s.Ledger) :
    ((s.group.mConns.entries.map Prod.snd).reverse ++ s.closes).Nodup := by
  have hsub : (s.group.mConns.entries.map Prod.snd ++ s.closes).Sublist
      (s.group.tracked ++ s.closes) := (List.sublist_append_left _ _).append_right _
  have hperm : ((s.group.mConns.entries.map Prod.snd).reverse ++ s.closes).Perm
      (s.group.mConns.entries.map Prod.snd ++ s.closes) := (List.reverse_perm _).append_right _
  exact hperm.nodup_iff.mpr (hsub.nodup hL.nodup)

/-- `Close` closes every conn that is left exactly when none is missing and no message waits. -/
theorem all_closed_iff (hL : s.Ledger) :
    (∀ p, s.Added p → p ∈ (s.group.mConns.entries.map Prod.snd).reverse ++ s.closes) ↔
      s.Complete ∧ s.group.mHandler = [] := by
  simp only [List.mem_append, List.mem_reverse]
  constructor
  · intro hall
    refine ⟨?_, ?_⟩
    · intro p hp
      rw [tracked, List.mem_append, List.mem_append]
      exact (hall p hp).imp_left .inl
    · rw [List.eq_nil_iff_forall_not_mem]
      intro p hp
      have htr : p ∈ s.group.tracked := List.mem_append_right _ hp
      have hnd := List.nodup_append.mp hL.nodup
      rcases hall p (hL.added p (List.mem_append_left _ htr)) with htab | hcl
      · exact (List.nodup_append.mp hnd.1).2.2 p htab p hp rfl
      · exact hnd.2.2 p htr p hcl rfl
  · rintro ⟨hC, hq⟩ p hp
    have hmem := hC p hp
    rw [tracked, hq, List.append_nil, List.mem_append] at hmem
    exact hmem

theorem ledger_run {es : List Event} (hr : run step {} es = .ok s) : s.Ledger :=
  run_invariant (fun _ _ _ h hr => (ledger_step h hr).1) ledger_empty hr

/-- No run uses a conn that has been deleted. -/
theorem run_ne_useAfterFree {es : List Event} (hL : s.Ledger) :
    run step s es ≠ .error .useAfterFree := by
  induction es generalizing s with
  | nil => simp [run]
  | cons e es ih =>
    refine bind_ne_error (step_ne_useAfterFree hL) ?_
    intro s₁ hs₁
    exact ih (ledger_step hL hs₁).1

/-- In every run of a net group no conn is used after its deletion and none is closed twice. When
    `Close` has returned, all conns that were ever added are closed, exactly when each of them was
    added under a free key and no message was waiting. `Close` does return if no conn has the key of
    the group. -/
theorem conns_closed_once (key : String) (es : List Event) :
    run step {} es ≠ .error .useAfterFree ∧
    ∀ s, run step {} es = .ok s →
      s.closes.Nodup ∧ s.close key ≠ .error .useAfterFree ∧
      ((∀ e ∈ s.group.mConns.entries, e.1 ≠ key) → ∃ s', s.close key = .ok s') ∧
      ∀ s', s.close key = .ok s' → s'.closes.Nodup ∧
        ((∀ p, s'.Added p → p ∈ s'.closes) ↔
          EachStep step FreeKey {} es ∧ s.group.mHandler = []) := by
  refine ⟨run_ne_useAfterFree ledger_empty, ?_⟩
  intro s hr
  have hL : s.Ledger := ledger_run hr
  have hcomplete : s.Complete ↔ EachStep step FreeKey {} es := by
    have hempty : Complete {} := by
      intro p hp
      cases hp
    rw [run_iff_eachStep (fun _ _ _ h hr => (ledger_step h hr).1)
      (fun _ _ _ h hr => (ledger_step h hr).2) ledger_empty hr, and_iff_right hempty]
  refine ⟨(List.nodup_append.mp hL.nodup).2.1, ?_⟩
  rcases close_spec key hL with ⟨⟨e, he, hkey⟩, herr⟩ | ⟨s₁, hs₁, hlen, hcl⟩
  · rw [herr]
    exact ⟨by simp, fun hall => absurd hkey (hall e he), by simp⟩
  · rw [hs₁]
    refine ⟨by simp, fun _ => ⟨s₁, rfl⟩, ?_⟩
    intro s' hs'
    obtain rfl : s₁ = s' := Except.ok.inj hs'
    have hadded : ∀ p, s₁.Added p ↔ s.Added p := by
      intro p
      rw [Added, Added, hlen]
    refine ⟨hcl ▸ nodup_closed hL, ?_⟩
    rw [← hcomplete, ← all_closed_iff hL, hcl]
    exact forall_congr' fun p => imp_congr_left (hadded p)

/-- A `FakeTcp` from port 40000 to port 10001. -/
def conn10001 : FakeTcp where
  mIntKey := KeyGenerator.portKey KeyGenerator.typeTcp 40000 10001
  mInfo := { src := 1, sp := 40000, dst := 2, dp := 10001 }

/-- A `FakeTcp` from port 40001 to port 10002. -/
def conn10002 : FakeTcp where
  mIntKey := KeyGenerator.portKey KeyGenerator.typeTcp 40001 10002
  mInfo := { src := 1, sp := 40001, dst := 2, dp := 10002 }

/-- A `FakeTcp` from port 40002 to port 10003. -/
def conn10003 : FakeTcp where
  mIntKey := KeyGenerator.portKey KeyGenerator.typeTcp 40002 10003
  mInfo := { src := 1, sp := 40002, dst := 2, dp := 10003 }

/-- One conn waits for its message, one is dead and not found yet, and one is alive. -/
def threeConns : List Event := [
  .addNetConn (.fakeTcp conn10001), .addNetConn (.fakeTcp conn10002), .addNetConn (.fakeTcp conn10003),
  .notifyErr conn10001.mIntKey .finRst, .flush, .notifyErr conn10002.mIntKey .finRst]

/-- Each of the three conns is added under a free key. -/
theorem freeKey_threeConns (es : List Event) (hes : ∀ s, EachStep step FreeKey s es) :
    EachStep step FreeKey {} (threeConns ++ es) := by
  have hadd : ∀ {s : ConnLife} {c : NetConn}, s.group.mConns.find? c.key = none →
      s.FreeKey (.addNetConn c) := by
    intro s c hfree c' hc
    obtain rfl := Option.some.inj hc
    exact hfree
  refine ⟨hadd rfl, fun s hs => ?_⟩
  obtain rfl := Except.ok.inj hs
  refine ⟨hadd (by decide), fun s hs => ?_⟩
  obtain rfl := Except.ok.inj hs
  refine ⟨hadd (by decide), fun s _ => ?_⟩
  -- no conn is added any more
  refine ⟨freeKey_of_adds_none rfl, fun s _ => ⟨freeKey_of_adds_none rfl, fun s _ => ?_⟩⟩
  exact ⟨freeKey_of_adds_none rfl, fun s _ => hes s⟩

/-- `Close` gets all three if the message is dispatched before, and misses the first one if it is not. -/
theorem conns_closed_once_three : ∃ s s' t t',
    run step {} threeConns = .ok s ∧ s.close "group" = .ok s' ∧ (¬ ∀ p, s'.Added p → p ∈ s'.closes) ∧
    run step {} (threeConns ++ [.handleMessage]) = .ok t ∧ t.close "group" = .ok t' ∧
    ∀ p, t'.Added p → p ∈ t'.closes := by
  have hwait : (run step {} threeConns).toOption.map (fun s => decide
      ((∀ e ∈ s.group.mConns.entries, e.1 ≠ "group") ∧ s.group.mHandler ≠ [])) = some true := by
    decide +kernel
  have hdone : (run step {} (threeConns ++ [.handleMessage])).toOption.map (fun s => decide
      ((∀ e ∈ s.group.mConns.entries, e.1 ≠ "group") ∧ s.group.mHandler = [])) = some true := by
    decide +kernel
  obtain ⟨s, hs, hwait⟩ := exists_of_toOption hwait
  obtain ⟨t, ht, hdone⟩ := exists_of_toOption hdone
  obtain ⟨hkeys, hwait⟩ := of_decide_eq_true hwait
  obtain ⟨hkeys', hdone⟩ := of_decide_eq_true hdone
  obtain ⟨-, -, hclose, hall⟩ := (conns_closed_once "group" threeConns).2 s hs
  obtain ⟨-, -, hclose', hall'⟩ := (conns_closed_once "group" _).2 t ht
  obtain ⟨s', hs'⟩ := hclose hkeys
  obtain ⟨t', ht'⟩ := hclose' hkeys'
  refine ⟨s, s', t, t', hs, hs', fun h => hwait ((hall s' hs').2.mp h).2, ht, ht', ?_⟩
  exact (hall' t' ht').2.mpr
    ⟨freeKey_threeConns [.handleMessage] fun s => ⟨freeKey_of_adds_none rfl, fun _ _ => trivial⟩, hdone⟩

/-- A conn dies and is found by `Flush`; the group is closed before the message is dispatched. -/
theorem dead_conn_not_closed : ∃ s s', run step {} [.addNetConn (.fakeTcp conn10001),
      .notifyErr conn10001.mIntKey .finRst, .flush] = .ok s ∧ s.close "group" = .ok s' ∧
    s'.Added 0 ∧ 0 ∉ s'.closes :=
  ⟨_, _, rfl, rfl, Nat.lt_succ_self 0, List.not_mem_nil⟩

end ConnLife

end Rsock
