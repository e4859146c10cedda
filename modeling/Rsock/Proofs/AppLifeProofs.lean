import Rsock.AppLife

/-!
# What the parts of the application own

`Sound v h w`: the services of `w` exist and are visited `v` times each, and `h` says of every object
whether it exists and whether it may be registered, at its own service only. `new_spec`, `delete_spec`,
`registerObserver_spec` and `unRegisterObserver_spec` say what becomes of `h`. The status of the objects
that a part owns can be read from the pointers of the part (`own`), and each operation of the part takes
`own` of what it is given to `own` of what it returns: the objects of others are not touched.
-/

namespace Rsock

open CMem

namespace AppLife

/-- The service at which the object registers, if it does so. -/
def Obj.home : Obj → ServiceName
  | .appTimer | .tcpAckPool | .netManagerTimer | .netConnKeepAlive _ => .timerService
  | .clientNetManager | .rcap | .rawTcp | .keepAliveRouteObserver _ => .routeService
  | _ => .netService

/-- The object registers somewhere. -/
def Obj.observes : Obj → Bool
  | .appNetObserver | .clientNetObserver | .serverGroup => true
  | .appTimer | .tcpAckPool | .netManagerTimer | .netConnKeepAlive _ => true
  | .clientNetManager | .rcap | .rawTcp | .keepAliveRouteObserver _ => true
  | _ => false

/-- The status of an object to which the pointer `p` of its owner points. -/
def held (o : Obj) (p : Bool) : Status :=
  if p then if o.observes then .watched else .idle else .gone

@[simp] theorem held_false (o : Obj) : held o false = .gone := rfl

theorem held_true_ne_gone (o : Obj) : held o true ≠ .gone := by
  unfold held
  cases o.observes <;> decide

/-- The observers of a service. -/
def watch (w : World) (name : ServiceName) : List Obj :=
  match w.services with
  | none => []
  | some services => (services name).mObserver

/-- The services are there, and the objects are what `h` says. `v` counts who visits a service. -/
structure Sound (v : ServiceName → Nat) (h : Obj → Status) (w : World) : Prop where
  up : ∃ services, w.services = some services ∧
    ∀ name, (services name).mInited = true ∧ (services name).mVisitCount = v name
  tidy : Tidy Obj.home h w.live (watch w)

section Ops

variable {v : ServiceName → Nat} {h h' : Obj → Status} {w : World} {o : Obj}

/-- An object may be called watched before it is registered. -/
theorem Sound.weaken (hs : Sound v h w) (hle : ∀ o, h' o = h o ∨ h o = .idle ∧ h' o = .watched) :
    Sound v h' w :=
  ⟨hs.up, hs.tidy.weaken hle⟩

theorem Sound.live_ne_zero (hs : Sound v h w) (ho : h o ≠ .gone) : w.live o ≠ 0 := by
  rw [hs.tidy.live_eq, if_neg ho]
  exact one_ne_zero

/-- A new object is one its owner's pointer points to. -/
theorem new_spec (hs : Sound v h w) (ho : h o = .gone) :
    Ends (new o) w fun _ => Sound v (Function.update h o (held o true)) := by
  refine ⟨(), _, rfl, ⟨hs.up, (hs.tidy.create ho).weaken ?_⟩⟩
  intro b
  by_cases hb : b = o
  · rw [hb, Function.update_self, Function.update_self]
    unfold held
    cases o.observes
    · exact Or.inl rfl
    · exact Or.inr ⟨rfl, rfl⟩
  · rw [Function.update_of_ne hb, Function.update_of_ne hb]
    exact Or.inl rfl

/-- An object that no service knows may be deleted. -/
theorem delete_spec (hs : Sound v h w) (ho : h o = .idle) :
    Ends (delete o) w fun _ => Sound v (Function.update h o (held o false)) := by
  have hlive : w.live o ≠ 0 := hs.live_ne_zero (by rw [ho]; decide)
  exact ⟨(), _, if_neg hlive, hs.up, hs.tidy.delete ho⟩

/-- An object that is there may be called. -/
theorem call_spec (hs : Sound v h w) (ho : h o ≠ .gone) : Ends (call o) w fun _ => Sound v h :=
  ⟨(), w, if_neg (hs.live_ne_zero ho), hs⟩

theorem deref_spec (hs : Sound v h w) (ho : h o ≠ .gone) {p : Bool} (hp : p = true) :
    Ends (deref p o) w fun _ => Sound v h := by
  subst hp
  exact call_spec hs ho

/-- An assertion that holds. -/
theorem ends_cassert {c : Prop} [Decidable c] {σ α : Type} {s : σ} {m : Unit → StateT σ (Except Fault) α}
    {Q : α → σ → Prop} (hc : c) (hm : Ends (m ()) s Q) : Ends (liftM (cassert c) >>= m) s Q :=
  (ends_lift (Q := fun _ s' => s' = s) (cassert_pos hc) rfl).bind fun _ _ heq => heq ▸ hm

/-- The service `name` gets other observers. -/
theorem setService_spec (hs : Sound v h w) {name : ServiceName} {s : IService Obj}
    (hinited : s.mInited = true) {v' : ServiceName → Nat} (hvisit : v' = Function.update v name s.mVisitCount)
    (htidy : Tidy Obj.home h' w.live (Function.update (watch w) name s.mObserver)) :
    Ends (setService name s) w fun _ => Sound v' h' := by
  obtain ⟨services, hservices, hup⟩ := hs.up
  refine ⟨(), _, rfl, ⟨Function.update services name s, by rw [hservices]; rfl, ?_⟩, ?_⟩
  · intro n
    rw [hvisit]
    by_cases hn : n = name
    · rw [hn, Function.update_self, Function.update_self]
      exact ⟨hinited, rfl⟩
    · rw [Function.update_of_ne hn, Function.update_of_ne hn]
      exact hup n
  · have hwatch : watch { w with services := w.services.map fun services => Function.update services name s } =
        Function.update (watch w) name s.mObserver := by
      funext n
      unfold watch
      rw [hservices]
      by_cases hn : n = name
      · simp [hn]
      · simp [Function.update_of_ne hn]
    rw [hwatch]
    exact htidy

/-- A service knows the objects it watches. -/
theorem getService_spec (hs : Sound v h w) (name : ServiceName) :
    Ends (getService name) w fun s w' => w' = w ∧ s.mObserver = watch w name ∧ s.mInited = true ∧
      s.mVisitCount = v name := by
  obtain ⟨services, hservices, hup⟩ := hs.up
  refine ⟨services name, w, ?_, rfl, ?_, hup name⟩
  · unfold getService
    rw [hservices]
  · unfold watch
    rw [hservices]

/-- What registering and unregistering have in common: the service `name` gets the observers `l`. -/
theorem observers_spec (hs : Sound v h w) {name : ServiceName} {l : List Obj}
    {f : IService Obj → Except Fault (IService Obj × Int)}
    (hf : ∀ s : IService Obj, s.mObserver = watch w name → s.mInited = true → s.mVisitCount = v name →
      ∃ n, f s = .ok ({ s with mObserver := l }, n))
    (htidy : Tidy Obj.home h' w.live (Function.update (watch w) name l)) :
    Ends (do
      let s ← getService name
      let (s, nret) ← f s
      setService name s
      return nret : M Int) w fun _ => Sound v h' := by
  refine (getService_spec hs name).bind ?_
  rintro s w' ⟨rfl, hobs, hinited, hvisit⟩
  obtain ⟨n, hfs⟩ := hf s hobs hinited hvisit
  refine Ends.bind (Q := fun r w => r = ({ s with mObserver := l }, n) ∧ w = w') (ends_lift hfs ⟨rfl, rfl⟩) ?_
  rintro _ _ ⟨rfl, rfl⟩
  have hvisit' : v = Function.update v name s.mVisitCount := by rw [hvisit, Function.update_eq_self]
  refine (setService_spec (s := { s with mObserver := l }) hs hinited hvisit' htidy).bind ?_
  intro _ _ hs'
  exact ends_pure hs'

/-- An observer is registered at its service while nobody visits it. -/
theorem registerObserver_spec (hs : Sound v h w) (ho : h o = .watched) (hv : v o.home = 0) :
    Ends (registerObserver o.home o) w fun _ => Sound v h := by
  have hne : h o ≠ .gone := by
    rw [ho]
    decide
  have hnodup := hs.tidy.nodup o.home
  rw [← Function.update_eq_self o h, ho]
  by_cases hmem : o ∈ watch w o.home
  · refine observers_spec (l := watch w o.home) hs ?_ (hs.tidy.register hne hnodup fun b hb => Or.inl hb)
    rintro ⟨_, _, _, mBlock⟩ rfl rfl rfl
    exact ⟨-1, by simp [IService.registerObserver, hv, hmem]⟩
  · have hnodup' : (watch w o.home ++ [o]).Nodup := by
      rw [List.nodup_append_comm]
      exact List.nodup_cons.mpr ⟨hmem, hnodup⟩
    refine observers_spec hs ?_ (hs.tidy.register hne hnodup' fun b hb => by simpa using hb)
    rintro ⟨_, _, _, mBlock⟩ rfl rfl rfl
    exact ⟨0, by simp [IService.registerObserver, hv, hmem]⟩

/-- An observer is unregistered, if it was registered or not. -/
theorem unRegisterObserver_spec (hs : Sound v h w) (ho : h o ≠ .gone) (hv : v o.home = 0) :
    Ends (unRegisterObserver o.home o) w fun _ => Sound v (Function.update h o .idle) := by
  refine observers_spec hs ?_ (hs.tidy.unregister ho)
  rintro ⟨_, _, _, mBlock⟩ rfl rfl rfl
  by_cases hmem : o ∈ watch w o.home
  · exact ⟨0, by simp [IService.unRegisterObserver, hv, hmem]⟩
  · exact ⟨-1, by simp [IService.unRegisterObserver, hv, hmem, List.erase_of_not_mem hmem]⟩

theorem registerTimer_spec (conf : Conf) (hs : Sound v h w) (ho : h o = .watched) (hhome : o.home = .timerService)
    (hv : v .timerService = 0) : Ends (registerTimer conf o) w fun _ => Sound v h := by
  unfold registerTimer
  split
  · exact ends_pure hs
  · have hreg := registerObserver_spec hs ho (hhome ▸ hv)
    rw [hhome] at hreg
    exact hreg

/-- A pointer that is null points to no object. -/
theorem Sound.update_false (hs : Sound v h w) (ho : h o = .gone) : Sound v (Function.update h o (held o false)) w := by
  rw [held_false, ← ho, Function.update_eq_self]
  exact hs

/-- What a pointer points to is deleted, if there is anything. -/
theorem deletePtr_spec (hs : Sound v h w) {p : Bool} (ho : h o = held o p) (hobs : o.observes = false) :
    Ends (deletePtr p o) w fun _ => Sound v (Function.update h o (held o false)) := by
  cases p with
  | false => exact ends_pure (hs.update_false ho)
  | true =>
    refine delete_spec hs ?_
    rw [ho, held, hobs]
    rfl

/-- An observer is closed and deleted, if there is one. -/
theorem closeObserver_spec (hs : Sound v h w) {p : Bool} (ho : h o = held o p) {name : ServiceName}
    (hhome : o.home = name) (hv : v name = 0) :
    Ends (closeObserver name p o) w fun _ => Sound v (Function.update h o (held o false)) := by
  cases p with
  | false => exact ends_pure (hs.update_false ho)
  | true =>
    subst hhome
    refine (unRegisterObserver_spec hs ?_ hv).bind ?_
    · rw [ho]
      exact held_true_ne_gone o
    · intro _ w₁ hs₁
      refine (delete_spec hs₁ (Function.update_self ..)).imp ?_
      intro _ w₂ hs₂
      rw [Function.update_idem] at hs₂
      exact hs₂

end Ops

/-! ## Groups -/

namespace IAppGroup

variable {v : ServiceName → Nat} {h : Obj → Status} {w : World} {g : GroupId} {a : IAppGroup}

/-- The status of the objects the group owns; that of the others is `h`. -/
def own (g : GroupId) (a : IAppGroup) (h : Obj → Status) : Obj → Status
  | .netGroup g' => if g' = g then held (.netGroup g') a.mFakeNetGroup else h (.netGroup g')
  | .connReset g' => if g' = g then held (.connReset g') a.mResetHelper else h (.connReset g')
  | .netConnKeepAlive g' => if g' = g then held (.netConnKeepAlive g') a.mKeepAlive else h (.netConnKeepAlive g')
  | .keepAliveRouteObserver g' =>
    if g' = g then held (.keepAliveRouteObserver g') a.mRouteObserver else h (.keepAliveRouteObserver g')
  | o => h o

theorem own_netGroup (p : Bool) :
    Function.update (own g a h) (.netGroup g) (held (.netGroup g) p) = own g { a with mFakeNetGroup := p } h := by
  funext o
  cases o <;> grind [own]

theorem own_connReset (p : Bool) :
    Function.update (own g a h) (.connReset g) (held (.connReset g) p) = own g { a with mResetHelper := p } h := by
  funext o
  cases o <;> grind [own]

theorem own_netConnKeepAlive (p : Bool) :
    Function.update (own g a h) (.netConnKeepAlive g) (held (.netConnKeepAlive g) p) =
      own g { a with mKeepAlive := p } h := by
  funext o
  cases o <;> grind [own]

theorem own_keepAliveRouteObserver (p : Bool) :
    Function.update (own g a h) (.keepAliveRouteObserver g) (held (.keepAliveRouteObserver g) p) =
      own g { a with mRouteObserver := p } h := by
  funext o
  cases o <;> grind [own]

theorem own_apply_netGroup : own g a h (.netGroup g) = held (.netGroup g) a.mFakeNetGroup := if_pos rfl

theorem own_apply_connReset : own g a h (.connReset g) = held (.connReset g) a.mResetHelper := if_pos rfl

theorem own_apply_netConnKeepAlive :
    own g a h (.netConnKeepAlive g) = held (.netConnKeepAlive g) a.mKeepAlive := if_pos rfl

theorem own_apply_keepAliveRouteObserver :
    own g a h (.keepAliveRouteObserver g) = held (.keepAliveRouteObserver g) a.mRouteObserver := if_pos rfl

/-- `NetConnKeepAlive::Init`, which may fail after the route observer is registered. -/
theorem keepAliveInit_spec (conf : Conf) (hs : Sound v (own g a h) w) (ha : a.mKeepAlive = true)
    (hv : ∀ name, v name = 0) :
    Ends (keepAliveInit conf g a) w fun r w' =>
      r.1 = { a with mRouteObserver := true } ∧ Sound v (own g r.1 h) w' := by
  have htimer : ∀ {a : IAppGroup} {w : World}, Sound v (own g a h) w → a.mKeepAlive = true →
      Ends (registerTimer conf (.netConnKeepAlive g)) w fun _ => Sound v (own g a h) := by
    intro a w hs ha
    refine registerTimer_spec conf hs ?_ rfl (hv _)
    rw [own_apply_netConnKeepAlive, ha]
    rfl
  unfold keepAliveInit
  split
  · next hro =>
    refine (htimer hs ha).bind ?_
    intro _ w₁ hs₁
    refine ends_pure ⟨?_, hs₁⟩
    rw [← hro]
  · next hro =>
    refine (new_spec (o := .keepAliveRouteObserver g) hs ?_).bind ?_
    · rw [own_apply_keepAliveRouteObserver, Bool.eq_false_iff.mpr hro]
      rfl
    · intro _ w₁ hs₁
      rw [own_keepAliveRouteObserver] at hs₁
      refine (registerObserver_spec (o := .keepAliveRouteObserver g) hs₁ ?_ (hv _)).bind ?_
      · rw [own_apply_keepAliveRouteObserver]
        rfl
      · intro nret w₂ hs₂
        split
        · exact ends_pure ⟨rfl, hs₂⟩
        · refine (htimer hs₂ ha).bind ?_
          intro _ w₃ hs₃
          exact ends_pure ⟨rfl, hs₃⟩

/-- `NetConnKeepAlive::Close`, however far `Init` has come. -/
theorem keepAliveClose_spec (hs : Sound v (own g a h) w) (ha : a.mKeepAlive = true) (hv : ∀ name, v name = 0) :
    Ends (keepAliveClose g a) w fun r w' => r = { a with mRouteObserver := false } ∧
      Sound v (Function.update (own g r h) (.netConnKeepAlive g) .idle) w' := by
  refine (closeObserver_spec hs own_apply_keepAliveRouteObserver rfl (hv _)).bind ?_
  intro _ w₁ hs₁
  rw [own_keepAliveRouteObserver] at hs₁
  refine (unRegisterObserver_spec (o := .netConnKeepAlive g) hs₁ ?_ (hv _)).bind ?_
  · rw [own_apply_netConnKeepAlive, ha]
    exact held_true_ne_gone _
  · intro _ w₂ hs₂
    exact ends_pure ⟨rfl, hs₂⟩

theorem closeKeepAlive_spec (hs : Sound v (own g a h) w) (ha : a.mKeepAlive = false → a.mRouteObserver = false)
    (hv : ∀ name, v name = 0) :
    Ends (closeKeepAlive g a) w fun r w' =>
      r = { a with mKeepAlive := false, mRouteObserver := false } ∧ Sound v (own g r h) w' := by
  unfold closeKeepAlive
  split
  · next hka =>
    refine (call_spec hs ?_).bind ?_
    · rw [own_apply_netConnKeepAlive, hka]
      exact held_true_ne_gone _
    · intro _ w₁ hs₁
      refine (keepAliveClose_spec hs₁ hka hv).bind ?_
      rintro r w₂ ⟨rfl, hs₂⟩
      refine (delete_spec hs₂ (Function.update_self ..)).bind ?_
      intro _ w₃ hs₃
      rw [Function.update_idem, own_netConnKeepAlive] at hs₃
      exact ends_pure ⟨rfl, hs₃⟩
  · next hka =>
    refine ends_pure ⟨?_, hs⟩
    obtain ⟨ng, rh, ka, ro⟩ := a
    cases Bool.eq_false_iff.mpr hka
    cases ha rfl
    rfl

/-- All that `Init` creates is there. -/
def Whole (a : IAppGroup) : Prop := a = ⟨true, true, true, true⟩

/-- `IAppGroup::Init`: if it succeeds, all four parts are there. -/
theorem init_spec (conf : Conf) (hs : Sound v (own g {} h) w) (hconf : conf.keepAliveMs > 0)
    (hv : ∀ name, v name = 0) (netGroupInit : Int) :
    Ends (init conf g netGroupInit {}) w fun r w' =>
      (r.1 = {} ∧ r.2 ≠ 0 ∨ Whole r.1) ∧ Sound v (own g r.1 h) w' := by
  refine (deref_spec (o := .netGroup g) hs ?_ rfl).bind ?_
  · rw [own_apply_netGroup]
    exact held_true_ne_gone _
  · intro _ w₁ hs₁
    split
    · next hinit => exact ends_pure ⟨Or.inl ⟨rfl, hinit⟩, hs₁⟩
    · refine (new_spec (o := .connReset g) hs₁ own_apply_connReset).bind ?_
      intro _ w₂ hs₂
      rw [own_connReset] at hs₂
      refine ends_cassert hconf ?_
      refine (new_spec (o := .netConnKeepAlive g) hs₂ own_apply_netConnKeepAlive).bind ?_
      intro _ w₃ hs₃
      rw [own_netConnKeepAlive] at hs₃
      refine (keepAliveInit_spec conf hs₃ rfl hv).imp ?_
      rintro r w₄ ⟨hr, hs₄⟩
      exact ⟨Or.inr hr, hs₄⟩

/-- `IAppGroup::Close`: none of the four parts is left. -/
theorem close_spec (hs : Sound v (own g a h) w) (ha : a.mKeepAlive = false → a.mRouteObserver = false)
    (hv : ∀ name, v name = 0) :
    Ends (close g a) w fun _ => Sound v (own g ⟨false, false, false, false⟩ h) := by
  refine (deletePtr_spec hs own_apply_netGroup rfl).bind ?_
  intro _ w₁ hs₁
  rw [own_netGroup] at hs₁
  refine (closeKeepAlive_spec hs₁ ha hv).bind ?_
  rintro r w₂ ⟨rfl, hs₂⟩
  refine (deletePtr_spec hs₂ own_apply_connReset rfl).bind ?_
  intro _ w₃ hs₃
  rw [own_connReset] at hs₃
  exact ends_pure hs₃

/-- What a group that is there points to can be called. -/
theorem deref_own {p : Bool} {o : Obj} (hs : Sound v h w) (hown : own g a h = h) (ho : own g a h o = held o p)
    (hp : p = true) : Ends (deref p o) w fun _ => Sound v h := by
  refine deref_spec hs ?_ hp
  rw [← hown, ho, hp]
  exact held_true_ne_gone o

section Whole

variable (hs : Sound v h w) (ha : Whole a) (hgroup : h (.group g) ≠ .gone) (hown : own g a h = h)

include hs ha hown

theorem Whole.deref_netGroup : Ends (deref a.mFakeNetGroup (.netGroup g)) w fun _ => Sound v h :=
  deref_own hs hown own_apply_netGroup (by rw [ha])

theorem Whole.deref_connReset : Ends (deref a.mResetHelper (.connReset g)) w fun _ => Sound v h :=
  deref_own hs hown own_apply_connReset (by rw [ha])

theorem Whole.deref_netConnKeepAlive : Ends (deref a.mKeepAlive (.netConnKeepAlive g)) w fun _ => Sound v h :=
  deref_own hs hown own_apply_netConnKeepAlive (by rw [ha])

theorem Whole.deref_keepAliveRouteObserver :
    Ends (deref a.mRouteObserver (.keepAliveRouteObserver g)) w fun _ => Sound v h :=
  deref_own hs hown own_apply_keepAliveRouteObserver (by rw [ha])

include hgroup

theorem askNetGroup_spec : Ends (askNetGroup g a) w fun _ => Sound v h := by
  refine (call_spec hs hgroup).bind ?_
  intro _ w₁ hs₁
  exact ha.deref_netGroup hs₁ hown

theorem keepAliveOnFlush_spec : Ends (keepAliveOnFlush g a) w fun _ => Sound v h := by
  have hka := ha.deref_netConnKeepAlive hs hown
  rw [ha] at hka
  refine hka.bind ?_
  intro _ w₁ hs₁
  refine (askNetGroup_spec hs₁ ha hgroup hown).bind ?_
  intro _ w₂ hs₂
  exact ha.deref_keepAliveRouteObserver hs₂ hown

/-- A packet is for parts that are there. -/
theorem input_spec (cmd : Cmd) : Ends (input g cmd a) w fun _ => Sound v h := by
  have hreset : ∀ {w : World}, Sound v h w → Ends (do
      deref a.mResetHelper (.connReset g)
      deref a.mFakeNetGroup (.netGroup g)) w fun _ => Sound v h := by
    intro w hs
    refine (ha.deref_connReset hs hown).bind ?_
    intro _ w₁ hs₁
    exact ha.deref_netGroup hs₁ hown
  refine (call_spec hs hgroup).bind ?_
  intro _ w₁ hs₁
  cases cmd with
  | data noConn =>
    refine (ha.deref_netGroup hs₁ hown).bind ?_
    intro _ w₂ hs₂
    cases noConn with
    | false => exact ends_pure hs₂
    | true => exact hreset hs₂
  | convRst => exact ha.deref_connReset hs₁ hown
  | netConnRst => exact hreset hs₁
  | keepAlive noConn =>
    refine (ha.deref_netConnKeepAlive hs₁ hown).bind ?_
    intro _ w₂ hs₂
    refine (ha.deref_netGroup hs₂ hown).bind ?_
    intro _ w₃ hs₃
    cases noConn with
    | false => exact ends_pure hs₃
    | true => exact hreset hs₃
  | shortRst => exact ha.deref_connReset hs₁ hown
  | shortKeepAlive => exact ha.deref_netConnKeepAlive hs₁ hown
  | other => exact ends_pure hs₁

end Whole

end IAppGroup

/-! ## The capture -/

namespace RCap

variable {v : ServiceName → Nat} {h : Obj → Status} {w : World} {c : RCap} {e : PcapEnv}

/-- The capture has been initialized and its loop has been entered before. -/
structure Ready (c : RCap) : Prop where
  inited : c.mInited = true
  handler : c.mHandler = true
  thread : c.mCap = false → c.mCapThread = false

/-- The device is opened, if there is a filter. -/
theorem openLive_spec (hs : Sound v h w) (hdev : c.mDev.isEmpty = false) (he : e.opened = true) :
    Ends (openLive e c) w fun r w' =>
      (∃ cap, r.1 = { c with mCap := cap } ∧ (r.2 = 0 → cap = true)) ∧ Sound v h w' := by
  unfold openLive
  split
  · refine ends_cassert hdev ?_
    exact ends_pure ⟨⟨true, rfl, fun _ => rfl⟩, hs⟩
  · refine ends_pure ⟨⟨c.mCap, rfl, ?_⟩, hs⟩
    intro h0
    cases h0

/-- `doInit` changes nothing but `mCap` and `mDstIp`. -/
theorem doInit_spec (hs : Sound v h w) (hdev : c.mDev.isEmpty = false) (he : e.opened = true) :
    Ends (doInit e c) w fun r w' => (∃ dstIp cap, r.1 = { c with mDstIp := dstIp, mCap := cap } ∧
      (r.2 = 0 → cap = true)) ∧ Sound v h w' := by
  have hopen : ∀ dstIp, Ends (openLive e { c with mDstIp := dstIp }) w fun r w' =>
      (∃ dstIp cap, r.1 = { c with mDstIp := dstIp, mCap := cap } ∧ (r.2 = 0 → cap = true)) ∧
        Sound v h w' := by
    intro dstIp
    refine (openLive_spec (c := { c with mDstIp := dstIp }) hs hdev he).imp ?_
    rintro r w' ⟨⟨cap, hr, hcap⟩, hs'⟩
    exact ⟨⟨dstIp, cap, hr, hcap⟩, hs'⟩
  have hkeep : ∀ {nret : Int}, nret ≠ 0 → (∃ dstIp cap, c = { c with mDstIp := dstIp, mCap := cap } ∧
      (nret = 0 → cap = true)) ∧ Sound v h w :=
    fun hne => ⟨⟨c.mDstIp, c.mCap, rfl, fun h0 => absurd h0 hne⟩, hs⟩
  unfold doInit
  split
  · exact ends_pure (hkeep (show (-1 : Int) ≠ 0 by decide))
  · split
    · unfold initDevAndIp
      rw [hdev]
      by_cases hip : e.ipv4OfDev.1 = 0
      · simp only [Bool.false_eq_true, if_false, hip, ne_eq, not_true_eq_false]
        exact hopen e.ipv4OfDev.2
      · simp only [Bool.false_eq_true, if_false, hip, ne_eq, not_false_eq_true, if_true]
        exact ends_pure (hkeep hip)
    · exact hopen c.mDstIp

/-- `RCap::Init` registers the `RCap` whether the device is opened or not. -/
theorem init_spec (hs : Sound v h w) (hc : c.mInited = false) (hdev : c.mDev.isEmpty = false)
    (he : e.opened = true) (hrcap : h .rcap = .watched) (hv : v .routeService = 0) :
    Ends (init e c) w fun r w' => (r.1.mInited = true ∧ r.1.mCapThread = c.mCapThread ∧
      (r.2 = 0 → r.1.mCap = true)) ∧ Sound v h w' := by
  refine ends_cassert hc ?_
  refine (doInit_spec hs hdev he).bind ?_
  rintro ⟨_, nret⟩ w₁ ⟨⟨dstIp, cap, rfl, hcap⟩, hs₁⟩
  refine (registerObserver_spec (o := .rcap) hs₁ hrcap hv).bind ?_
  intro _ w₂ hs₂
  exact ends_pure ⟨⟨rfl, rfl, hcap⟩, hs₂⟩

theorem start_spec (hs : Sound v h w) (hc : c.mInited = true) (hthread : c.mCapThread = false) :
    Ends (start true c) w fun r w' =>
      r = { c with mHandler := true, mCapThread := true } ∧ Sound v h w' := by
  refine ends_cassert hthread ?_
  have hrun : Ends (run true c) w fun r w' => r = { c with mHandler := true } ∧ w' = w :=
    ends_cassert hc (ends_cassert rfl (ends_pure ⟨rfl, rfl⟩))
  refine hrun.bind ?_
  rintro _ _ ⟨rfl, rfl⟩
  exact ends_pure ⟨rfl, hs⟩

/-- An `RCap` that is closed is not watched any more. -/
theorem waitAndClose_spec (hs : Sound v h w) (hrcap : h .rcap = .watched) (hv : v .routeService = 0) :
    Ends (waitAndClose c) w fun _ => Sound v (Function.update h .rcap .idle) := by
  refine Ends.bind (Q := fun _ => Sound v (Function.update h .rcap .idle)) ?_ fun _ _ hs₁ => ends_pure hs₁
  refine (unRegisterObserver_spec (o := .rcap) hs ?_ hv).bind fun _ _ hs₁ => ends_pure hs₁
  rw [hrcap]
  decide

end RCap

/-! ## The conn below the bridge -/

namespace RConn

variable {v : ServiceName → Nat} {h : Obj → Status} {w : World} {c : RConn}

def own (c : RConn) (h : Obj → Status) : Obj → Status
  | .rconnReset => held .rconnReset c.mReset
  | .rawTcp => held .rawTcp c.mRawTcp
  | .libnet => held .libnet c.mTcpNet
  | .syncConn => held .syncConn c.mSyncConn
  | o => h o

theorem own_rconnReset (p : Bool) :
    Function.update (own c h) .rconnReset (held .rconnReset p) = own { c with mReset := p } h := by
  funext o
  cases o <;> grind [own]

theorem own_rawTcp (p : Bool) :
    Function.update (own c h) .rawTcp (held .rawTcp p) = own { c with mRawTcp := p } h := by
  funext o
  cases o <;> grind [own]

theorem own_libnet (p : Bool) :
    Function.update (own c h) .libnet (held .libnet p) = own { c with mTcpNet := p } h := by
  funext o
  cases o <;> grind [own]

theorem own_syncConn (p : Bool) :
    Function.update (own c h) .syncConn (held .syncConn p) = own { c with mSyncConn := p } h := by
  funext o
  cases o <;> grind [own]

/-- An `RConn` comes with its `RawTcp` and its `RConnReset`. -/
theorem create_spec (hs : Sound v h w) (hrconn : h .rconn = .gone) (hnull : own ⟨false, false, false, false⟩ h = h) :
    Ends create w fun c w' => c = ⟨true, true, false, false⟩ ∧
      Sound v (own c (Function.update h .rconn (held .rconn true))) w' := by
  refine (new_spec hs hrconn).bind ?_
  intro _ w₁ hs₁
  have hown : Function.update h .rconn (held .rconn true) =
      own ⟨false, false, false, false⟩ (Function.update h .rconn (held .rconn true)) := by
    nth_rewrite 1 [← hnull]
    funext o
    cases o <;> grind [own]
  rw [hown] at hs₁
  refine (new_spec (o := .rawTcp) hs₁ rfl).bind ?_
  intro _ w₂ hs₂
  rw [own_rawTcp] at hs₂
  refine (new_spec (o := .rconnReset) hs₂ rfl).bind ?_
  intro _ w₃ hs₃
  rw [own_rconnReset] at hs₃
  exact ends_pure ⟨rfl, hs₃⟩

/-- `RConn::Init`: the `RawTcp` is registered, and has its parts if libnet could be initialized. -/
theorem init_spec {libnet : Bool} {syncConn : Int} (hs : Sound v (own ⟨true, true, false, false⟩ h) w)
    (hv : v .routeService = 0) :
    Ends (init libnet syncConn ⟨true, true, false, false⟩) w fun r w' =>
      r.1.mRawTcp = true ∧ Sound v (own r.1 h) w' := by
  refine (deref_spec (o := .rawTcp) hs (held_true_ne_gone _) rfl).bind ?_
  intro _ w₁ hs₁
  refine (registerObserver_spec (o := .rawTcp) hs₁ rfl hv).bind ?_
  intro _ w₂ hs₂
  split
  · refine (new_spec (o := .libnet) hs₂ rfl).bind ?_
    intro _ w₃ hs₃
    rw [own_libnet] at hs₃
    refine (new_spec (o := .syncConn) hs₃ rfl).bind ?_
    intro _ w₄ hs₄
    rw [own_syncConn] at hs₄
    exact ends_pure ⟨rfl, hs₄⟩
  · exact ends_pure ⟨rfl, hs₂⟩

/-- All that the conn owns goes with it. -/
theorem close_spec (hs : Sound v (own c h) w) (hc : c.mRawTcp = true) (hv : v .routeService = 0) :
    Ends (close c) w fun _ => Sound v (own ⟨false, false, false, false⟩ h) := by
  obtain ⟨reset, raw, net, sync⟩ := c
  cases hc
  refine (deletePtr_spec (o := .rconnReset) (p := reset) hs rfl rfl).bind ?_
  intro _ w₁ hs₁
  rw [own_rconnReset] at hs₁
  refine (call_spec (o := .rawTcp) hs₁ (held_true_ne_gone _)).bind ?_
  intro _ w₂ hs₂
  have hclose : Ends (rawTcpClose ⟨false, true, net, sync⟩) w₂ fun c w' => c = ⟨false, true, false, false⟩ ∧
      Sound v (Function.update (own c h) .rawTcp .idle) w' := by
    refine (unRegisterObserver_spec (o := .rawTcp) hs₂ (held_true_ne_gone _) hv).bind ?_
    intro _ w₃ hs₃
    refine (deletePtr_spec (o := .syncConn) (p := sync) hs₃ rfl rfl).bind ?_
    intro _ w₄ hs₄
    refine (deletePtr_spec (o := .libnet) (p := net) hs₄ rfl rfl).bind ?_
    intro _ w₅ hs₅
    refine ends_pure ⟨rfl, ?_⟩
    have heq : Function.update (Function.update (Function.update (own ⟨false, true, net, sync⟩ h) .rawTcp .idle)
        .syncConn (held .syncConn false)) .libnet (held .libnet false) =
          Function.update (own ⟨false, true, false, false⟩ h) .rawTcp .idle := by
      funext o
      cases o <;> grind [own]
    rw [← heq]
    exact hs₅
  refine hclose.bind ?_
  rintro _ w₃ ⟨rfl, hs₃⟩
  refine (delete_spec (o := .rawTcp) hs₃ (Function.update_self ..)).bind ?_
  intro _ w₄ hs₄
  rw [Function.update_idem, own_rawTcp] at hs₄
  exact ends_pure hs₄

end RConn

/-! ## The net manager -/

namespace INetManager

variable {conf : Conf} {v : ServiceName → Nat} {h : Obj → Status} {w : World} {m : INetManager}

def own (m : INetManager) (h : Obj → Status) : Obj → Status
  | .netManagerTimer => held .netManagerTimer m.mTimer
  | o => h o

theorem own_netManagerTimer (p : Bool) :
    Function.update (own m h) .netManagerTimer (held .netManagerTimer p) = own { m with mTimer := p } h := by
  funext o
  cases o <;> grind [own]

theorem own_update {o : Obj} (ho : o ≠ .netManagerTimer) (st : Status) :
    Function.update (own m h) o st = own m (Function.update h o st) := by
  funext b
  cases b <;> grind [own]

/-- `INetManager::Init`: the timer is registered, and the manager of a client at the route service. -/
theorem init_spec {listen : Int} (hs : Sound v (own {} h) w) (hmanager : h conf.netManager = held conf.netManager true)
    (hv : ∀ name, v name = 0) :
    Ends (init conf listen) w fun r w' => Sound v (own r.1 h) w' := by
  refine (new_spec (o := .netManagerTimer) hs rfl).bind ?_
  intro _ w₁ hs₁
  rw [own_netManagerTimer] at hs₁
  refine (registerTimer_spec conf (o := .netManagerTimer) hs₁ rfl rfl (hv _)).bind ?_
  intro nret w₂ hs₂
  split
  · exact ends_pure hs₂
  · split
    · exact ends_pure hs₂
    · next hserver =>
      rw [Conf.netManager, if_neg hserver] at hmanager
      refine (registerObserver_spec (o := .clientNetManager) hs₂ hmanager (hv _)).bind ?_
      intro _ w₃ hs₃
      exact ends_pure hs₃

/-- After its `Close` the net manager is not registered. -/
theorem close_spec (hs : Sound v (own m h) w) (hmanager : h conf.netManager = held conf.netManager true)
    (hv : ∀ name, v name = 0) :
    Ends (close conf m) w fun _ => Sound v (own {} (Function.update h conf.netManager .idle)) := by
  refine (closeObserver_spec (o := .netManagerTimer) (p := m.mTimer) hs rfl rfl (hv _)).bind ?_
  intro _ w₁ hs₁
  rw [own_netManagerTimer] at hs₁
  unfold Conf.netManager at hmanager ⊢
  split
  · next hserver =>
    rw [if_pos hserver] at hmanager
    have hidle : Function.update h .serverNetManager .idle = h := by
      rw [← Function.update_eq_self (.serverNetManager : Obj) h, hmanager, Function.update_idem]
      rfl
    rw [hidle]
    exact ends_pure hs₁
  · next hserver =>
    rw [if_neg hserver] at hmanager
    refine (unRegisterObserver_spec (o := .clientNetManager) hs₁ ?_ (hv _)).bind ?_
    · show h .clientNetManager ≠ .gone
      rw [hmanager]
      exact held_true_ne_gone _
    · intro _ w₂ hs₂
      rw [own_update (by decide)] at hs₂
      exact ends_pure hs₂

end INetManager

/-! ## The groups of a server -/

namespace ServerGroup

variable {conf : Conf} {v : ServiceName → Nat} {h : Obj → Status} {w : World} {b : ServerGroup} {key : String}
  {a : IAppGroup}

/-- The status of the `SubGroup`s and of what they own. -/
def own (b : ServerGroup) (h : Obj → Status) : Obj → Status
  | .group (.sub key) => held (.group (.sub key)) (b.mConns.get? key).isSome
  | .netGroup (.sub key) => held (.netGroup (.sub key)) ((b.mConns.get? key).any IAppGroup.mFakeNetGroup)
  | .connReset (.sub key) => held (.connReset (.sub key)) ((b.mConns.get? key).any IAppGroup.mResetHelper)
  | .netConnKeepAlive (.sub key) => held (.netConnKeepAlive (.sub key)) ((b.mConns.get? key).any IAppGroup.mKeepAlive)
  | .keepAliveRouteObserver (.sub key) =>
    held (.keepAliveRouteObserver (.sub key)) ((b.mConns.get? key).any IAppGroup.mRouteObserver)
  | o => h o

/-- Every `SubGroup` is whole, and none has the key of the server. -/
def Groups (conf : Conf) (b : ServerGroup) : Prop :=
  ∀ key a, b.mConns.get? key = some a → a.Whole ∧ key ≠ conf.id

/-- What a `SubGroup` owns is part of what the `ServerGroup` owns. -/
theorem own_of_get? (hget : b.mConns.get? key = some a) : IAppGroup.own (.sub key) a (own b h) = own b h := by
  funext o
  cases o with
  | netGroup g => cases g <;> grind [own, IAppGroup.own]
  | connReset g => cases g <;> grind [own, IAppGroup.own]
  | netConnKeepAlive g => cases g <;> grind [own, IAppGroup.own]
  | keepAliveRouteObserver g => cases g <;> grind [own, IAppGroup.own]
  | _ => rfl

theorem group_ne_gone (hget : b.mConns.get? key = some a) : own b h (.group (.sub key)) ≠ .gone := by
  rw [own, hget]
  exact held_true_ne_gone _

/-- A group whose parts are all gone, and then the group itself. -/
theorem own_erase (b : ServerGroup) (key : String) :
    Function.update (IAppGroup.own (.sub key) ⟨false, false, false, false⟩ (own b h)) (.group (.sub key))
      (held (.group (.sub key)) false) = own { b with mConns := b.mConns.erase key } h := by
  funext o
  cases o with
  | group g => cases g <;> grind [own, IAppGroup.own, StdMap.get?_erase same_string]
  | netGroup g => cases g <;> grind [own, IAppGroup.own, StdMap.get?_erase same_string]
  | connReset g => cases g <;> grind [own, IAppGroup.own, StdMap.get?_erase same_string]
  | netConnKeepAlive g => cases g <;> grind [own, IAppGroup.own, StdMap.get?_erase same_string]
  | keepAliveRouteObserver g => cases g <;> grind [own, IAppGroup.own, StdMap.get?_erase same_string]
  | _ => rfl

/-- A new group, not yet in the map. -/
theorem own_new (hget : b.mConns.get? key = none) :
    Function.update (Function.update (own b h) (.netGroup (.sub key)) (held (.netGroup (.sub key)) true))
        (.group (.sub key)) (held (.group (.sub key)) true) =
      IAppGroup.own (.sub key) {} (Function.update (own b h) (.group (.sub key)) (held (.group (.sub key)) true)) := by
  funext o
  cases o with
  | group g => cases g <;> grind [own, IAppGroup.own]
  | netGroup g => cases g <;> grind [own, IAppGroup.own]
  | connReset g => cases g <;> grind [own, IAppGroup.own]
  | netConnKeepAlive g => cases g <;> grind [own, IAppGroup.own]
  | keepAliveRouteObserver g => cases g <;> grind [own, IAppGroup.own]
  | _ => rfl

theorem own_emplace (hget : b.mConns.get? key = none) :
    IAppGroup.own (.sub key) a (Function.update (own b h) (.group (.sub key)) (held (.group (.sub key)) true)) =
      own { b with mConns := b.mConns.emplace key a } h := by
  have hemplace : ∀ key', (b.mConns.emplace key a).get? key' = if key = key' then some a else b.mConns.get? key' :=
    fun key' => StdMap.get?_emplace same_string hget key' a
  funext o
  cases o with
  | group g => cases g <;> grind [own, IAppGroup.own]
  | netGroup g => cases g <;> grind [own, IAppGroup.own]
  | connReset g => cases g <;> grind [own, IAppGroup.own]
  | netConnKeepAlive g => cases g <;> grind [own, IAppGroup.own]
  | keepAliveRouteObserver g => cases g <;> grind [own, IAppGroup.own]
  | _ => rfl

/-- A `SubGroup` is closed with all that it owns. -/
theorem closeConn_spec (hs : Sound v (own b h) w) (hget : b.mConns.get? key = some a) (ha : a.Whole)
    (hkey : key ≠ conf.id) (hv : ∀ name, v name = 0) :
    Ends (closeConn conf b key) w fun r w' =>
      r = { b with mConns := b.mConns.erase key } ∧ Sound v (own r h) w' := by
  refine (call_spec hs (group_ne_gone hget)).bind ?_
  intro _ w₁ hs₁
  refine ends_cassert hkey ?_
  rw [hget]
  have hclosable : a.mKeepAlive = false → a.mRouteObserver = false := by
    rw [ha]
    intro hfalse
    cases hfalse
  rw [← own_of_get? hget] at hs₁
  refine (IAppGroup.close_spec hs₁ hclosable hv).bind ?_
  intro _ w₂ hs₂
  refine (delete_spec (o := .group (.sub key)) hs₂ ?_).bind ?_
  · show own b h (.group (.sub key)) = .idle
    rw [own, hget]
    rfl
  · intro _ w₃ hs₃
    rw [own_erase] at hs₃
    exact ends_pure ⟨rfl, hs₃⟩

theorem Groups.erase (hb : Groups conf b) (key : String) :
    Groups conf { b with mConns := b.mConns.erase key } := by
  intro key' a hget
  have hget' : (b.mConns.erase key).get? key' = some a := hget
  rw [StdMap.get?_erase same_string] at hget'
  split at hget'
  · cases hget'
  · exact hb key' a hget'

/-- The groups with the keys are closed one after the other. -/
theorem closeLoop_spec {keys : List String} (hs : Sound v (own b h) w) (hb : Groups conf b) (hnodup : keys.Nodup)
    (hkeys : ∀ key ∈ keys, b.mConns.get? key ≠ none) (hv : ∀ name, v name = 0) :
    Ends (keys.foldlM (closeConn conf) b) w fun r w' => r.mBtm = b.mBtm ∧ Groups conf r ∧
      (∀ key, r.mConns.get? key ≠ none → b.mConns.get? key ≠ none ∧ key ∉ keys) ∧ Sound v (own r h) w' := by
  -- of the keys, those before the rest have been closed
  refine (ends_foldlM (I := fun rest r w' => r.mBtm = b.mBtm ∧ Groups conf r ∧ rest.Nodup ∧
    (∀ key ∈ rest, r.mConns.get? key ≠ none) ∧
    (∀ key, r.mConns.get? key ≠ none → b.mConns.get? key ≠ none ∧ (key ∈ keys → key ∈ rest)) ∧
    Sound v (own r h) w') ?_ ⟨rfl, hb, hnodup, hkeys, fun key hkey => ⟨hkey, id⟩, hs⟩).imp ?_
  · rintro key rest r w' ⟨hbtm, hr, hrest, hin, hout, hs'⟩
    obtain ⟨hnot, hrest'⟩ := List.nodup_cons.mp hrest
    obtain ⟨a, hget⟩ := Option.ne_none_iff_exists'.mp (hin key List.mem_cons_self)
    obtain ⟨ha, hid⟩ := hr key a hget
    refine (closeConn_spec hs' hget ha hid hv).imp ?_
    rintro _ w'' ⟨rfl, hs''⟩
    have herase : ∀ key', (r.mConns.erase key).get? key' = if key = key' then none else r.mConns.get? key' :=
      StdMap.get?_erase same_string r.mConns key
    refine ⟨hbtm, hr.erase key, hrest', ?_, ?_, hs''⟩
    · intro key' hkey'
      have hne : key ≠ key' := by
        rintro rfl
        exact hnot hkey'
      show (r.mConns.erase key).get? key' ≠ none
      rw [herase, if_neg hne]
      exact hin key' (List.mem_cons_of_mem key hkey')
    · intro key' hkey'
      have hkey'' : (r.mConns.erase key).get? key' ≠ none := hkey'
      rw [herase] at hkey''
      split at hkey''
      · exact absurd rfl hkey''
      · next hne =>
        obtain ⟨hold, hmem⟩ := hout key' hkey''
        refine ⟨hold, fun hk => ?_⟩
        exact (List.mem_cons.mp (hmem hk)).resolve_left fun heq => hne heq.symm
  · rintro r w' ⟨hbtm, hr, -, -, hout, hs'⟩
    refine ⟨hbtm, hr, fun key hkey => ?_, hs'⟩
    obtain ⟨hold, hmem⟩ := hout key hkey
    exact ⟨hold, fun hk => List.not_mem_nil (hmem hk)⟩

/-- No `SubGroup` is left, nor anything that it owned. -/
theorem closeConns_spec (hs : Sound v (own b h) w) (hb : Groups conf b) (hv : ∀ name, v name = 0) :
    Ends (closeConns conf b) w fun _ => Sound v (own {} h) := by
  refine (closeLoop_spec hs hb b.mConns.nodup_keys ?_ hv).imp ?_
  · intro key hkey
    exact (StdMap.mem_keys_iff same_string).mp hkey
  · rintro r w' ⟨-, -, hout, hs'⟩
    have hnone : ∀ key, r.mConns.get? key = none := by
      intro key
      by_contra hsome
      obtain ⟨hold, hnot⟩ := hout key hsome
      exact hnot ((StdMap.mem_keys_iff same_string).mpr hold)
    have hempty : ∀ key, (StdMap.empty : StdMap String IAppGroup (· < ·)).get? key = none := fun key => rfl
    have hown : own r h = own {} h := by
      funext o
      unfold own
      simp only [hnone, hempty]
    rw [← hown]
    exact hs'

/-- A new `SubGroup` is there with all its parts, or not at all. -/
theorem newConn_spec {netGroupInit : Int} (hs : Sound v (own b h) w) (hget : b.mConns.get? key = none)
    (hconf : conf.keepAliveMs > 0) (hv : ∀ name, v name = 0) :
    Ends (newConn conf key netGroupInit b) w fun r w' =>
      (r.1 = b ∨ ∃ a : IAppGroup, a.Whole ∧ r.1 = { b with mConns := b.mConns.emplace key a }) ∧
        Sound v (own r.1 h) w' := by
  refine (new_spec (o := .netGroup (.sub key)) hs ?_).bind ?_
  · rw [own, hget]
    rfl
  · intro _ w₁ hs₁
    refine (new_spec (o := .group (.sub key)) hs₁ ?_).bind ?_
    · rw [Function.update_of_ne (by simp), own, hget]
      rfl
    · intro _ w₂ hs₂
      rw [own_new hget] at hs₂
      refine (IAppGroup.init_spec conf hs₂ hconf hv netGroupInit).bind ?_
      rintro ⟨a, nret⟩ w₃ ⟨ha, hs₃⟩
      dsimp only at ha hs₃ ⊢
      split
      · have hclosable : a.mKeepAlive = false → a.mRouteObserver = false := by
          rcases ha with ⟨rfl, -⟩ | rfl
          · exact fun _ => rfl
          · intro hfalse
            cases hfalse
        refine (IAppGroup.close_spec hs₃ hclosable hv).bind ?_
        intro _ w₄ hs₄
        refine (delete_spec (o := .group (.sub key)) hs₄ (Function.update_self ..)).bind ?_
        intro _ w₅ hs₅
        refine ends_pure ⟨Or.inl rfl, ?_⟩
        have hback : Function.update (IAppGroup.own (.sub key) ⟨false, false, false, false⟩
            (Function.update (own b h) (.group (.sub key)) (held (.group (.sub key)) true))) (.group (.sub key))
            (held (.group (.sub key)) false) = own b h := by
          funext o
          cases o with
          | group g => cases g <;> grind [own, IAppGroup.own]
          | netGroup g => cases g <;> grind [own, IAppGroup.own]
          | connReset g => cases g <;> grind [own, IAppGroup.own]
          | netConnKeepAlive g => cases g <;> grind [own, IAppGroup.own]
          | keepAliveRouteObserver g => cases g <;> grind [own, IAppGroup.own]
          | _ => rfl
        rw [hback] at hs₅
        exact hs₅
      · next hnret =>
        rcases ha with ⟨-, hne⟩ | hwhole
        · exact absurd hne hnret
        · rw [own_emplace hget] at hs₃
          exact ends_pure ⟨Or.inr ⟨a, hwhole, rfl⟩, hs₃⟩

theorem Groups.emplace (hb : Groups conf b) (hget : b.mConns.get? key = none) (ha : a.Whole) (hkey : key ≠ conf.id) :
    Groups conf { b with mConns := b.mConns.emplace key a } := by
  intro key' a' hget'
  have hget'' : (b.mConns.emplace key a).get? key' = some a' := hget'
  rw [StdMap.get?_emplace same_string hget] at hget''
  split at hget''
  · next heq =>
    cases hget''
    exact ⟨ha, heq ▸ hkey⟩
  · exact hb key' a' hget''

theorem input_spec {cmd : Cmd} (hs : Sound v (own b h) w) (hb : Groups conf b) (hget : b.mConns.get? key = some a) :
    Ends (a.input (.sub key) cmd) w fun _ => Sound v (own b h) :=
  IAppGroup.input_spec hs (hb key a hget).1 (group_ne_gone hget) (own_of_get? hget) cmd

/-- A packet finds a `SubGroup` with all its parts, or none if a new one cannot be initialized. -/
theorem onRecv_spec {netGroupInit : Int} {cmd : Cmd} (hs : Sound v (own b h) w) (hb : Groups conf b)
    (hkey : key ≠ conf.id) (hconf : conf.keepAliveMs > 0) (hv : ∀ name, v name = 0) :
    Ends (onRecv conf key netGroupInit cmd b) w fun r w' =>
      r.mBtm = b.mBtm ∧ Groups conf r ∧ Sound v (own r h) w' := by
  unfold onRecv
  cases hget : b.mConns.get? key with
  | some a =>
    refine (input_spec hs hb hget).bind ?_
    intro _ w₁ hs₁
    exact ends_pure ⟨rfl, hb, hs₁⟩
  | none =>
    refine (newConn_spec hs hget hconf hv).bind ?_
    rintro ⟨r, _⟩ w₁ ⟨hr, hs₁⟩
    have hr' : r.mBtm = b.mBtm ∧ Groups conf r := by
      rcases hr with rfl | ⟨a, ha, rfl⟩
      · exact ⟨rfl, hb⟩
      · exact ⟨rfl, hb.emplace hget ha hkey⟩
    dsimp only
    cases hget' : r.mConns.get? key with
    | some a =>
      refine (input_spec hs₁ hr'.2 hget').bind ?_
      intro _ w₂ hs₂
      exact ends_pure ⟨hr'.1, hr'.2, hs₂⟩
    | none => exact ends_pure ⟨hr'.1, hr'.2, hs₁⟩

theorem askConns_spec (hs : Sound v (own b h) w) (hb : Groups conf b) :
    Ends (askConns b) w fun _ => Sound v (own b h) := by
  have hloop : ∀ (l : List (String × IAppGroup)) {w : World}, (∀ e ∈ l, e ∈ b.mConns.entries) →
      Sound v (own b h) w → Ends (l.forM fun e => e.2.askNetGroup (.sub e.1)) w fun _ => Sound v (own b h) := by
    intro l
    induction l with
    | nil => exact fun _ hs => ends_pure hs
    | cons e l ih =>
      intro w hl hs
      have hget := (StdMap.get?_eq_some_iff same_string).mpr (hl e List.mem_cons_self)
      refine (IAppGroup.askNetGroup_spec hs (hb _ _ hget).1 (group_ne_gone hget) (own_of_get? hget)).bind ?_
      intro _ w₁ hs₁
      exact ih (fun e' he' => hl e' (List.mem_cons_of_mem e he')) hs₁
  exact hloop b.mConns.entries (fun _ he => he) hs

/-- A flush closes the `SubGroup`s that are dead. -/
theorem flush_spec {dead : String → Bool} (hs : Sound v (own b h) w) (hb : Groups conf b)
    (hv : ∀ name, v name = 0) :
    Ends (flush conf dead b) w fun r w' => r.mBtm = b.mBtm ∧ Groups conf r ∧ Sound v (own r h) w' := by
  refine (askConns_spec hs hb).bind ?_
  intro _ w₁ hs₁
  refine (closeLoop_spec hs₁ hb (b.mConns.nodup_keys.filter dead) ?_ hv).bind ?_
  · intro key hkey
    exact (StdMap.mem_keys_iff same_string).mp (List.mem_of_mem_filter hkey)
  · rintro r w₂ ⟨hbtm, hr, -, hs₂⟩
    refine (askConns_spec hs₂ hr).bind ?_
    intro _ w₃ hs₃
    exact ends_pure ⟨hbtm, hr, hs₃⟩

end ServerGroup

end AppLife

end Rsock
