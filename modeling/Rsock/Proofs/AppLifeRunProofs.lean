import Rsock.Proofs.AppLifeProofs

/-!
# The application ends with no object left

`status` reads off the pointers of the application what exists and what may be registered. Each step of
the initialization, of the loop and of `Close` keeps `Sound` for it, whichever step of the initialization
fails. A program that has not come as far as the services is `Bare`; one that has been closed is `Closed`.
-/

namespace Rsock

open CMem

namespace AppLife

namespace ISockApp

variable {conf : Conf} {app : ISockApp} {w : World} {v : ServiceName → Nat}

/-- The status of the objects, by the pointers of the application and its parts. -/
def status (conf : Conf) (app : ISockApp) : Obj → Status
  | .errorHandler => held .errorHandler app.mErrorHandler
  | .appNetObserver => held .appNetObserver app.mNetObserver
  | .appTimer => held .appTimer app.mTimer
  | .tcpAckPool => held .tcpAckPool app.mAckPool
  | .clientNetManager => held .clientNetManager (app.mNetManager.isSome && !conf.isServer)
  | .serverNetManager => held .serverNetManager (app.mNetManager.isSome && conf.isServer)
  | .netManagerTimer => held .netManagerTimer (app.mNetManager.any INetManager.mTimer)
  | .rcap => held .rcap app.mCap.isSome
  | .rconn => held .rconn app.mBtmConn.isSome
  | .rconnReset => held .rconnReset (app.mBtmConn.any RConn.mReset)
  | .rawTcp => held .rawTcp (app.mBtmConn.any RConn.mRawTcp)
  | .libnet => held .libnet (app.mBtmConn.any RConn.mTcpNet)
  | .syncConn => held .syncConn (app.mBtmConn.any RConn.mSyncConn)
  | .clientNetObserver => held .clientNetObserver (match app.mBridge with
    | some (.client b) => b.mNetObserver
    | _ => false)
  | .serverGroup => held .serverGroup (match app.mBridge with
    | some (.server _) => true
    | _ => false)
  | .group g => held (.group g) (app.appGroup g).isSome
  | .netGroup g => held (.netGroup g) ((app.appGroup g).any IAppGroup.mFakeNetGroup)
  | .connReset g => held (.connReset g) ((app.appGroup g).any IAppGroup.mResetHelper)
  | .netConnKeepAlive g => held (.netConnKeepAlive g) ((app.appGroup g).any IAppGroup.mKeepAlive)
  | .keepAliveRouteObserver g => held (.keepAliveRouteObserver g) ((app.appGroup g).any IAppGroup.mRouteObserver)

/-! ## One pointer at a time -/

theorem status_errorHandler (p : Bool) :
    Function.update (status conf app) .errorHandler (held .errorHandler p) =
      status conf { app with mErrorHandler := p } := by
  funext o
  cases o <;> rfl

theorem status_appNetObserver (p : Bool) :
    Function.update (status conf app) .appNetObserver (held .appNetObserver p) =
      status conf { app with mNetObserver := p } := by
  funext o
  cases o <;> rfl

theorem status_appTimer (p : Bool) :
    Function.update (status conf app) .appTimer (held .appTimer p) = status conf { app with mTimer := p } := by
  funext o
  cases o <;> rfl

theorem status_tcpAckPool (p : Bool) :
    Function.update (status conf app) .tcpAckPool (held .tcpAckPool p) = status conf { app with mAckPool := p } := by
  funext o
  cases o <;> rfl

/-! ## What a part owns -/

/-- It does not matter which capture there is. -/
theorem status_cap {c : RCap} (hcap : app.mCap = some c) (c' : RCap) :
    status conf { app with mCap := some c' } = status conf app := by
  cases app
  cases hcap
  funext o
  cases o <;> rfl

/-- What the `RConn` owns is part of what the application owns. -/
theorem own_btmConn {c : RConn} (hbtm : app.mBtmConn = some c) (c' : RConn) :
    c'.own (status conf app) = status conf { app with mBtmConn := some c' } := by
  cases app
  cases hbtm
  funext o
  cases o <;> rfl

theorem own_netManager {m : INetManager} (hm : app.mNetManager = some m) (m' : INetManager) :
    m'.own (status conf app) = status conf { app with mNetManager := some m' } := by
  cases app
  cases hm
  funext o
  cases o <;> rfl

/-- So is what the `ClientGroup` owns. -/
theorem own_client {b : ClientGroup} (hb : app.mBridge = some (.client b)) (a : IAppGroup) :
    a.own .client (status conf app) = status conf { app with mBridge := some (.client { b with base := a }) } := by
  cases app
  cases hb
  funext o
  cases o with
  | group g => cases g <;> rfl
  | netGroup g => cases g <;> rfl
  | connReset g => cases g <;> rfl
  | netConnKeepAlive g => cases g <;> rfl
  | keepAliveRouteObserver g => cases g <;> rfl
  | _ => rfl

/-- So is what the `ServerGroup` owns. -/
theorem own_server {b : ServerGroup} (hb : app.mBridge = some (.server b)) (b' : ServerGroup) :
    b'.own (status conf app) = status conf { app with mBridge := some (.server b') } := by
  cases app
  cases hb
  funext o
  cases o with
  | group g => cases g <;> rfl
  | netGroup g => cases g <;> rfl
  | connReset g => cases g <;> rfl
  | netConnKeepAlive g => cases g <;> rfl
  | keepAliveRouteObserver g => cases g <;> rfl
  | _ => rfl

/-- The parts own what their pointers say. -/
theorem own_btmConn_self {c : RConn} (hbtm : app.mBtmConn = some c) : c.own (status conf app) = status conf app := by
  rw [own_btmConn hbtm, ← hbtm]

theorem own_netManager_self {m : INetManager} (hm : app.mNetManager = some m) :
    m.own (status conf app) = status conf app := by
  rw [own_netManager hm, ← hm]

theorem own_client_self {b : ClientGroup} (hb : app.mBridge = some (.client b)) :
    b.base.own .client (status conf app) = status conf app := by
  rw [own_client hb, ← hb]

theorem own_server_self {b : ServerGroup} (hb : app.mBridge = some (.server b)) :
    b.own (status conf app) = status conf app := by
  rw [own_server hb, ← hb]

/-! ## Closing -/

/-- What `Close` finds behind `mBridge`. -/
def BridgeOk (conf : Conf) : Option Bridge → Prop
  | none => True
  | some (.client b) => b.mBtm = true ∧ (b.base.mKeepAlive = false → b.base.mRouteObserver = false)
  | some (.server b) => b.mBtm = true ∧ b.Groups conf ∧ conf.isServer = true

/-- The services are there, and the application can be closed. -/
structure Inv (conf : Conf) (app : ISockApp) (w : World) : Prop where
  sound : Sound (fun _ => 0) (status conf app) w
  closing : app.mClosing = false
  btm : app.mBridge ≠ none → app.mBtmConn ≠ none
  raw : ∀ c, app.mBtmConn = some c → c.mRawTcp = true
  bridge : BridgeOk conf app.mBridge

/-- The application has been closed: nothing is left. -/
structure Closed (app : ISockApp) (w : World) : Prop where
  closing : app.mClosing = true
  errorHandler : app.mErrorHandler = false
  services : w.services = none
  live : ∀ o, w.live o = 0

theorem destroyObservers_spec (hs : Sound (fun _ => 0) (status conf app) w) :
    Ends app.destroyObservers w fun r w' =>
      r = { app with mNetObserver := false, mTimer := false } ∧ Sound (fun _ => 0) (status conf r) w' := by
  refine (closeObserver_spec (o := .appNetObserver) (p := app.mNetObserver) hs rfl rfl rfl).bind ?_
  intro _ w₁ hs₁
  rw [status_appNetObserver] at hs₁
  refine (closeObserver_spec (o := .appTimer) (p := app.mTimer) hs₁ rfl rfl rfl).bind ?_
  intro _ w₂ hs₂
  rw [status_appTimer] at hs₂
  exact ends_pure ⟨rfl, hs₂⟩

theorem closeCap_spec (hs : Sound (fun _ => 0) (status conf app) w) :
    Ends app.closeCap w fun r w' => r = { app with mCap := none } ∧ Sound (fun _ => 0) (status conf r) w' := by
  unfold closeCap
  split
  · next hcap =>
    refine ends_pure ⟨?_, hs⟩
    rw [← hcap]
  · next c hcap =>
    have hrcap : status conf app .rcap = .watched := by
      rw [status, hcap]
      rfl
    refine (RCap.waitAndClose_spec hs hrcap rfl).bind ?_
    intro _ w₁ hs₁
    refine (delete_spec (o := .rcap) hs₁ (Function.update_self ..)).bind ?_
    intro _ w₂ hs₂
    refine ends_pure ⟨rfl, ?_⟩
    have hstatus : Function.update (Function.update (status conf app) .rcap .idle) .rcap (held .rcap false) =
        status conf { app with mCap := none } := by
      rw [Function.update_idem]
      funext o
      cases o <;> rfl
    rw [← hstatus]
    exact hs₂

/-- The `RConn` is closed and deleted. -/
theorem closeBtm_spec {c : RConn} (hs : Sound (fun _ => 0) (status conf app) w) (hbtm : app.mBtmConn = some c)
    (hraw : c.mRawTcp = true) :
    Ends (app.closeBtm true) w fun _ => Sound (fun _ => 0) (status conf { app with mBtmConn := none }) := by
  have hrconn : status conf app .rconn = .idle := by
    rw [status, hbtm]
    rfl
  have hs' : Sound (fun _ => 0) (c.own (status conf app)) w := by
    rw [own_btmConn_self hbtm]
    exact hs
  unfold closeBtm
  rw [hbtm]
  refine (call_spec (o := .rconn) hs' ?_).bind ?_
  · show status conf app .rconn ≠ .gone
    rw [hrconn]
    decide
  · intro _ w₁ hs₁
    refine (RConn.close_spec hs₁ hraw rfl).bind ?_
    intro _ w₂ hs₂
    refine (delete_spec (o := .rconn) hs₂ hrconn).imp ?_
    intro _ w₃ hs₃
    have hstatus : Function.update (RConn.own ⟨false, false, false, false⟩ (status conf app)) .rconn
        (held .rconn false) = status conf { app with mBtmConn := none } := by
      funext o
      cases o <;> rfl
    rw [← hstatus]
    exact hs₃

/-- The bridge takes the conn below it along. -/
theorem closeBridge_spec (hs : Sound (fun _ => 0) (status conf app) w) (hok : BridgeOk conf app.mBridge)
    (hsome : app.mBridge ≠ none → app.mBtmConn ≠ none) (hraw : ∀ c, app.mBtmConn = some c → c.mRawTcp = true) :
    Ends (app.closeBridge conf) w fun r w' => (∃ btm, r = { app with mBridge := none, mBtmConn := btm } ∧
      ∀ c, btm = some c → c.mRawTcp = true) ∧ Sound (fun _ => 0) (status conf r) w' := by
  have hgone : ∃ btm : Option RConn, ({ app with mBridge := none, mBtmConn := none } : ISockApp) =
      { app with mBridge := none, mBtmConn := btm } ∧ ∀ c, btm = some c → c.mRawTcp = true :=
    ⟨none, rfl, fun c hc => by cases hc⟩
  unfold closeBridge
  split
  · next hnone =>
    refine ends_pure ⟨⟨app.mBtmConn, ?_, hraw⟩, hs⟩
    rw [← hnone]
  · next b hb =>
    rw [hb] at hok
    obtain ⟨c, hbtm⟩ := Option.ne_none_iff_exists'.mp (hsome (by simp [hb]))
    rw [hok.1]
    refine (closeBtm_spec hs hbtm (hraw c hbtm)).bind ?_
    intro _ w₁ hs₁
    have hown : b.base.own .client (status conf { app with mBtmConn := none }) =
        status conf { app with mBtmConn := none } := own_client_self hb
    rw [← hown] at hs₁
    refine (IAppGroup.close_spec hs₁ hok.2 fun _ => rfl).bind ?_
    intro _ w₂ hs₂
    refine (closeObserver_spec (o := .clientNetObserver) (p := b.mNetObserver) hs₂ ?_ rfl rfl).bind ?_
    · show held .clientNetObserver _ = _
      rw [hb]
    · intro _ w₃ hs₃
      refine (delete_spec (o := .group .client) hs₃ ?_).bind ?_
      · show held (.group .client) (({ app with mBtmConn := none } : ISockApp).appGroup .client).isSome = _
        rw [appGroup, hb]
        rfl
      · intro _ w₄ hs₄
        refine ends_pure ⟨hgone, ?_⟩
        have hstatus : Function.update (Function.update (IAppGroup.own .client ⟨false, false, false, false⟩
            (status conf { app with mBtmConn := none })) .clientNetObserver (held .clientNetObserver false))
            (.group .client) (held (.group .client) false) =
              status conf { app with mBridge := none, mBtmConn := none } := by
          cases app
          cases hb
          funext o
          cases o with
          | group g => cases g <;> rfl
          | netGroup g => cases g <;> rfl
          | connReset g => cases g <;> rfl
          | netConnKeepAlive g => cases g <;> rfl
          | keepAliveRouteObserver g => cases g <;> rfl
          | _ => rfl
        rw [← hstatus]
        exact hs₄
  · next b hb =>
    rw [hb] at hok
    obtain ⟨c, hbtm⟩ := Option.ne_none_iff_exists'.mp (hsome (by simp [hb]))
    rw [hok.1]
    refine (closeBtm_spec hs hbtm (hraw c hbtm)).bind ?_
    intro _ w₁ hs₁
    have hown : b.own (status conf { app with mBtmConn := none }) = status conf { app with mBtmConn := none } :=
      own_server_self hb
    rw [← hown] at hs₁
    refine (ServerGroup.closeConns_spec hs₁ hok.2.1 fun _ => rfl).bind ?_
    intro _ w₂ hs₂
    refine (unRegisterObserver_spec (o := .serverGroup) hs₂ ?_ rfl).bind ?_
    · show held .serverGroup _ ≠ .gone
      rw [hb]
      exact held_true_ne_gone _
    · intro _ w₃ hs₃
      refine (delete_spec (o := .serverGroup) hs₃ (Function.update_self ..)).bind ?_
      intro _ w₄ hs₄
      refine ends_pure ⟨hgone, ?_⟩
      have hstatus : Function.update (Function.update (ServerGroup.own {} (status conf { app with mBtmConn := none }))
          .serverGroup .idle) .serverGroup (held .serverGroup false) =
            status conf { app with mBridge := none, mBtmConn := none } := by
        cases app
        cases hb
        funext o
        cases o with
        | group g => cases g <;> rfl
        | netGroup g => cases g <;> rfl
        | connReset g => cases g <;> rfl
        | netConnKeepAlive g => cases g <;> rfl
        | keepAliveRouteObserver g => cases g <;> rfl
        | _ => rfl
      rw [← hstatus]
      exact hs₄

/-- Without a bridge the application closes the `RConn` itself. -/
theorem closeBtmConn_spec (hs : Sound (fun _ => 0) (status conf app) w)
    (hraw : ∀ c, app.mBtmConn = some c → c.mRawTcp = true) :
    Ends app.closeBtmConn w fun r w' => r = { app with mBtmConn := none } ∧ Sound (fun _ => 0) (status conf r) w' := by
  unfold closeBtmConn
  cases hbtm : app.mBtmConn with
  | none =>
    have hself : { app with mBtmConn := none } = app := by rw [← hbtm]
    refine ends_pure ⟨rfl, ?_⟩
    rw [hself]
    exact hs
  | some c =>
    refine (closeBtm_spec hs hbtm (hraw c hbtm)).bind ?_
    intro _ w₁ hs₁
    exact ends_pure ⟨rfl, hs₁⟩

theorem closeNetManager_spec (hs : Sound (fun _ => 0) (status conf app) w) :
    Ends (app.closeNetManager conf) w fun r w' =>
      r = { app with mNetManager := none } ∧ Sound (fun _ => 0) (status conf r) w' := by
  unfold closeNetManager
  split
  · next hm =>
    refine ends_pure ⟨?_, hs⟩
    rw [← hm]
  · next m hm =>
    have hmanager : status conf app conf.netManager = held conf.netManager true := by
      unfold Conf.netManager
      cases hserver : conf.isServer <;> simp [status, hm, hserver]
    rw [← own_netManager_self hm] at hs
    refine (INetManager.close_spec hs hmanager fun _ => rfl).bind ?_
    intro _ w₁ hs₁
    refine (delete_spec (o := conf.netManager) hs₁ ?_).bind ?_
    · unfold Conf.netManager
      cases conf.isServer <;> rfl
    · intro _ w₂ hs₂
      refine ends_pure ⟨rfl, ?_⟩
      have hstatus : Function.update (INetManager.own {} (Function.update (status conf app) conf.netManager .idle))
          conf.netManager (held conf.netManager false) = status conf { app with mNetManager := none } := by
        obtain ⟨isServer, id, dev, selfCapIp, keepAliveMs, appKeepAliveMs⟩ := conf
        cases app
        cases hm
        funext o
        cases isServer with
        | false => cases o <;> rfl
        | true => cases o <;> rfl
      rw [← hstatus]
      exact hs₂

theorem closeAckPool_spec (hs : Sound (fun _ => 0) (status conf app) w) :
    Ends app.closeAckPool w fun r w' => r = { app with mAckPool := false } ∧ Sound (fun _ => 0) (status conf r) w' := by
  refine (closeObserver_spec (o := .tcpAckPool) (p := app.mAckPool) hs rfl rfl rfl).bind ?_
  intro _ w₁ hs₁
  rw [status_tcpAckPool] at hs₁
  exact ends_pure ⟨rfl, hs₁⟩

/-- Of an application, no more than the error handler. -/
def OnlyHandler (app : ISockApp) : Prop :=
  ∃ errorHandler inited closing,
    app = { mErrorHandler := errorHandler, mInited := inited, mClosing := closing }

/-- There are no services, and of the application there is at most the error handler. -/
structure Bare (conf : Conf) (app : ISockApp) (w : World) : Prop where
  services : w.services = none
  tidy : Tidy Obj.home (status conf app) w.live (watch w)
  parts : OnlyHandler app

/-- Once nobody is registered, the services close without a failed assertion. -/
theorem destroySingletons_spec {h : Obj → Status} (hs : Sound v h w) (hwatched : ∀ o, h o ≠ .watched) :
    Ends destroySingletons w fun _ w' => w'.services = none ∧ Tidy Obj.home h w'.live (watch w') := by
  obtain ⟨services, hservices, -⟩ := hs.up
  have hempty : ∀ name, (services name).mObserver = [] := by
    intro name
    have hwatch : watch w name = (services name).mObserver := by
      unfold watch
      rw [hservices]
    rw [List.eq_nil_iff_forall_not_mem]
    intro o ho
    rw [← hwatch] at ho
    exact hwatched o (hs.tidy.watched name o ho).1
  refine ⟨(), { w with services := none }, ?_, rfl, hs.tidy.live_eq, ?_, fun _ => List.nodup_nil⟩
  · unfold destroySingletons
    rw [hservices]
    simp only [IService.close, hempty, cassert_pos, ok_bind]
    rfl
  · intro name o ho
    cases ho

theorem deletePtr_bare {h : Obj → Status} {p : Bool} {o : Obj} (hservices : w.services = none)
    (ht : Tidy Obj.home h w.live (watch w)) (ho : h o = held o p) (hobs : o.observes = false) :
    Ends (deletePtr p o) w fun _ w' => w'.services = none ∧
      Tidy Obj.home (Function.update h o (held o false)) w'.live (watch w') := by
  cases p with
  | false =>
    refine ends_pure ⟨hservices, ?_⟩
    rw [held_false, ← held_false o, ← ho, Function.update_eq_self]
    exact ht
  | true =>
    have hidle : h o = .idle := by
      rw [ho, held, hobs]
      rfl
    have hlive : w.live o ≠ 0 := by
      rw [ht.live_eq, hidle]
      decide
    exact ⟨(), _, if_neg hlive, hservices, ht.delete hidle⟩

/-- The last step of `Close`. -/
theorem closeErrorHandler_spec (hb : Bare conf app w) (hclosing : app.mClosing = true) :
    Ends app.closeErrorHandler w Closed := by
  refine (deletePtr_bare (o := .errorHandler) (p := app.mErrorHandler) hb.services hb.tidy rfl rfl).bind ?_
  rintro _ w₁ ⟨hservices, ht⟩
  rw [status_errorHandler] at ht
  refine ends_pure ⟨hclosing, rfl, hservices, ?_⟩
  obtain ⟨errorHandler, inited, closing, rfl⟩ := hb.parts
  intro o
  rw [ht.live_eq]
  refine if_pos ?_
  cases o with
  | group g => cases g <;> rfl
  | netGroup g => cases g <;> rfl
  | connReset g => cases g <;> rfl
  | netConnKeepAlive g => cases g <;> rfl
  | keepAliveRouteObserver g => cases g <;> rfl
  | _ => rfl

theorem OnlyHandler.ne_watched (happ : OnlyHandler app) (o : Obj) : status conf app o ≠ .watched := by
  obtain ⟨errorHandler, inited, closing, rfl⟩ := happ
  cases o with
  | errorHandler => cases errorHandler <;> simp [status, held, Obj.observes]
  | group g => cases g <;> simp [status, appGroup]
  | netGroup g => cases g <;> simp [status, appGroup]
  | connReset g => cases g <;> simp [status, appGroup]
  | netConnKeepAlive g => cases g <;> simp [status, appGroup]
  | keepAliveRouteObserver g => cases g <;> simp [status, appGroup]
  | _ => simp [status]

/-- Whatever there is, nothing but the error handler is left. -/
theorem closeParts_spec (hs : Sound (fun _ => 0) (status conf app) w) (hbridge : BridgeOk conf app.mBridge)
    (hbtm : app.mBridge ≠ none → app.mBtmConn ≠ none) (hraw : ∀ c, app.mBtmConn = some c → c.mRawTcp = true) :
    Ends (app.closeParts conf) w fun r w' =>
      OnlyHandler r ∧ r.mClosing = app.mClosing ∧ Sound (fun _ => 0) (status conf r) w' := by
  refine (destroyObservers_spec hs).bind ?_
  rintro _ w₁ ⟨rfl, hs₁⟩
  refine (closeCap_spec hs₁).bind ?_
  rintro _ w₂ ⟨rfl, hs₂⟩
  refine (closeBridge_spec hs₂ hbridge hbtm hraw).bind ?_
  rintro _ w₃ ⟨⟨btm, rfl, hraw'⟩, hs₃⟩
  refine (closeBtmConn_spec hs₃ hraw').bind ?_
  rintro _ w₄ ⟨rfl, hs₄⟩
  refine (closeNetManager_spec hs₄).bind ?_
  rintro _ w₅ ⟨rfl, hs₅⟩
  refine (closeAckPool_spec hs₅).imp ?_
  rintro _ w₆ ⟨rfl, hs₆⟩
  exact ⟨⟨app.mErrorHandler, app.mInited, app.mClosing, rfl⟩, rfl, hs₆⟩

/-- `Close` from any state that the initialization or the loop leaves. -/
theorem close_spec (hi : Inv conf app w) : Ends (app.close conf) w Closed := by
  obtain ⟨hs, hclosing, hbtm, hraw, hbridge⟩ := hi
  unfold close
  rw [hclosing]
  have hs₀ : Sound (fun _ => 0) (status conf { app with mClosing := true }) w := hs
  refine (closeParts_spec hs₀ hbridge hbtm hraw).bind ?_
  rintro r w₁ ⟨hr, hr', hs₁⟩
  refine (destroySingletons_spec hs₁ hr.ne_watched).bind ?_
  rintro _ w₂ ⟨hservices, ht⟩
  exact closeErrorHandler_spec ⟨hservices, ht, hr⟩ hr'

/-- After a step of the initialization the application can be closed, and if its result is 0, `P` holds. -/
def Stage (conf : Conf) (P : ISockApp → Prop) (r : ISockApp × Int) (w : World) : Prop :=
  Inv conf r.1 w ∧ (r.2 = 0 → P r.1)

theorem eq_zero_of_orFail {nret : Int} (h0 : orFail nret = 0) : nret = 0 := by
  unfold orFail at h0
  split at h0
  · cases h0
  · next hne => exact not_not.mp hne

/-- A step that fails leaves what can be closed, and one that succeeds what the next one needs. -/
theorem andThen_spec {P R : ISockApp → Prop} {m : M (ISockApp × Int)} {rest : ISockApp → M (ISockApp × Int)}
    (hm : Ends m w (Stage conf P))
    (hrest : ∀ app w', Inv conf app w' → P app → Ends (rest app) w' (Stage conf R)) :
    Ends (andThen m rest) w (Stage conf R) := by
  refine hm.bind ?_
  rintro ⟨app, nret⟩ w₁ ⟨hi, hp⟩
  dsimp only at hi hp ⊢
  split
  · next hne => exact ends_pure ⟨hi, fun h0 => absurd h0 hne⟩
  · next heq => exact hrest app w₁ hi (hp (not_not.mp heq))

/-- As long as there is no conn, there is nothing to be careful about. -/
theorem inv_of_sound (hs : Sound (fun _ => 0) (status conf app) w) (hclosing : app.mClosing = false)
    (hbtm : app.mBtmConn = none) (hbridge : app.mBridge = none) : Inv conf app w where
  sound := hs
  closing := hclosing
  btm hne := absurd hbridge hne
  raw c hc := by
    rw [hbtm] at hc
    cases hc
  bridge := by
    rw [hbridge]
    trivial

theorem initObservers_spec {e : Bool} (hi : Inv conf { mErrorHandler := e } w) :
    Ends (initObservers { mErrorHandler := e }) w
      (Stage conf fun app => app = { mErrorHandler := e, mNetObserver := true }) := by
  refine (new_spec (o := .appNetObserver) hi.sound rfl).bind ?_
  intro _ w₁ hs₁
  rw [status_appNetObserver] at hs₁
  refine (registerObserver_spec (o := .appNetObserver) hs₁ rfl rfl).bind ?_
  intro _ w₂ hs₂
  exact ends_pure ⟨inv_of_sound hs₂ rfl rfl rfl, fun _ => rfl⟩

theorem initAckPool_spec {e : Bool} (hconf : conf.appKeepAliveMs ≠ 0)
    (hi : Inv conf { mErrorHandler := e, mNetObserver := true } w) :
    Ends (initAckPool conf { mErrorHandler := e, mNetObserver := true }) w
      (Stage conf fun app => app = { mErrorHandler := e, mNetObserver := true, mAckPool := true }) := by
  refine ends_cassert hconf ?_
  refine (new_spec (o := .tcpAckPool) hi.sound rfl).bind ?_
  intro _ w₁ hs₁
  rw [status_tcpAckPool] at hs₁
  refine (registerTimer_spec conf (o := .tcpAckPool) hs₁ rfl rfl rfl).bind ?_
  intro _ w₂ hs₂
  exact ends_pure ⟨inv_of_sound hs₂ rfl rfl rfl, fun _ => rfl⟩

/-- A net manager that has just been created. -/
theorem status_new_netManager (hm : app.mNetManager = none) (m : INetManager) :
    m.own (Function.update (status conf app) conf.netManager (held conf.netManager true)) =
      status conf { app with mNetManager := some m } := by
  obtain ⟨isServer, id, dev, selfCapIp, keepAliveMs, appKeepAliveMs⟩ := conf
  cases app
  cases hm
  funext o
  cases isServer with
  | false => cases o <;> rfl
  | true => cases o <;> rfl

theorem netManager_gone (hm : app.mNetManager = none) : status conf app conf.netManager = .gone := by
  unfold Conf.netManager
  cases conf.isServer <;> simp [status, hm]

theorem initNetManager_spec {e : InitEnv} (hi : Inv conf app w) (hm : app.mNetManager = none)
    (hbtm : app.mBtmConn = none) (hbridge : app.mBridge = none) :
    Ends (app.initNetManager conf e) w
      (Stage conf fun r => ∃ m, r = { app with mNetManager := some m }) := by
  refine (new_spec (o := conf.netManager) hi.sound (netManager_gone hm)).bind ?_
  intro _ w₁ hs₁
  have hown : Function.update (status conf app) conf.netManager (held conf.netManager true) =
      INetManager.own {} (Function.update (status conf app) conf.netManager (held conf.netManager true)) := by
    obtain ⟨isServer, id, dev, selfCapIp, keepAliveMs, appKeepAliveMs⟩ := conf
    cases app
    cases hm
    funext o
    cases isServer with
    | false => cases o <;> rfl
    | true => cases o <;> rfl
  rw [hown] at hs₁
  refine (INetManager.init_spec hs₁ (Function.update_self ..) fun _ => rfl).bind ?_
  rintro ⟨m, nret⟩ w₂ hs₂
  dsimp only at hs₂ ⊢
  rw [status_new_netManager hm] at hs₂
  exact ends_pure ⟨inv_of_sound hs₂ hi.closing hbtm hbridge, fun _ => ⟨m, rfl⟩⟩

/-- A capture that has just been created. -/
theorem status_new_cap (hcap : app.mCap = none) (c : RCap) :
    Function.update (status conf app) .rcap (held .rcap true) = status conf { app with mCap := some c } := by
  cases app
  cases hcap
  funext o
  cases o <;> rfl

/-- The capture is opened at a device. -/
theorem initCap_spec {e : InitEnv} (hi : Inv conf app w) (hcap : app.mCap = none) (hbtm : app.mBtmConn = none)
    (hbridge : app.mBridge = none) (hdev : conf.dev.isEmpty = false) (he : e.pcap.opened = true) :
    Ends (app.initCap conf e) w (Stage conf fun r => ∃ c, r = { app with mCap := some c } ∧
      c.mInited = true ∧ c.mCapThread = false ∧ c.mCap = true) := by
  refine (new_spec (o := .rcap) hi.sound ?_).bind ?_
  · rw [status, hcap]
    rfl
  · intro _ w₁ hs₁
    refine (RCap.init_spec hs₁ rfl hdev he (Function.update_self ..) rfl).bind ?_
    rintro ⟨c, nret⟩ w₂ ⟨⟨hinited, hthread, hopen⟩, hs₂⟩
    dsimp only at hinited hthread hopen ⊢
    rw [status_new_cap hcap c] at hs₂
    refine ends_pure ⟨inv_of_sound hs₂ hi.closing hbtm hbridge, ?_⟩
    intro h0
    exact ⟨c, rfl, hinited, hthread, hopen (eq_zero_of_orFail h0)⟩

/-- The `RConn` is created, whether its `Init` succeeds or not. -/
theorem initBtmConn_spec {e : InitEnv} (hi : Inv conf app w) (hbtm : app.mBtmConn = none)
    (hbridge : app.mBridge = none) :
    Ends (app.initBtmConn e) w (Stage conf fun r => ∃ c, r = { app with mBtmConn := some c } ∧ c.mRawTcp = true) := by
  have hnull : RConn.own ⟨false, false, false, false⟩ (status conf app) = status conf app := by
    cases app
    cases hbtm
    funext o
    cases o <;> rfl
  have hgone : status conf app .rconn = .gone := by
    rw [status, hbtm]
    rfl
  refine (RConn.create_spec hi.sound hgone hnull).bind ?_
  rintro _ w₁ ⟨rfl, hs₁⟩
  refine (RConn.init_spec hs₁ rfl).bind ?_
  rintro ⟨c, nret⟩ w₂ ⟨hraw, hs₂⟩
  dsimp only at hraw hs₂ ⊢
  have hstatus : c.own (Function.update (status conf app) .rconn (held .rconn true)) =
      status conf { app with mBtmConn := some c } := by
    cases app
    cases hbtm
    funext o
    cases o <;> rfl
  rw [hstatus] at hs₂
  refine ends_pure ⟨⟨hs₂, hi.closing, fun _ => by simp, ?_, ?_⟩, fun _ => ⟨c, rfl, hraw⟩⟩
  · intro c' hc'
    cases hc'
    exact hraw
  · show BridgeOk conf app.mBridge
    rw [hbridge]
    trivial

/-- The capture starts, which was opened before. -/
theorem startCap_spec {c : RCap} (hi : Inv conf app w) (hcap : app.mCap = some c) (hinited : c.mInited = true)
    (hthread : c.mCapThread = false) (hopen : c.mCap = true) :
    Ends app.startCap w (Stage conf fun r => ∃ c' : RCap, r = { app with mCap := some c' } ∧ c'.Ready) := by
  unfold startCap
  rw [hcap]
  refine (RCap.start_spec hi.sound hinited hthread).bind ?_
  rintro _ w₁ ⟨rfl, hs₁⟩
  rw [← status_cap hcap] at hs₁
  refine ends_pure ⟨⟨hs₁, hi.closing, hi.btm, hi.raw, hi.bridge⟩, fun _ => ⟨_, rfl, hinited, rfl, ?_⟩⟩
  intro hfalse
  rw [hopen] at hfalse
  cases hfalse

/-- All parts of the bridge are there. -/
def BridgeReady : Bridge → Prop
  | .client b => b.base.Whole
  | .server _ => True

theorem status_new_serverGroup (hbridge : app.mBridge = none) :
    Function.update (status conf app) .serverGroup (held .serverGroup true) =
      status conf { app with mBridge := some (.server {}) } := by
  cases app
  cases hbridge
  funext o
  cases o with
  | group g => cases g <;> rfl
  | netGroup g => cases g <;> rfl
  | connReset g => cases g <;> rfl
  | netConnKeepAlive g => cases g <;> rfl
  | keepAliveRouteObserver g => cases g <;> rfl
  | _ => rfl

theorem status_new_client (hbridge : app.mBridge = none) :
    Function.update (Function.update (status conf app) (.netGroup .client) (held (.netGroup .client) true))
        (.group .client) (held (.group .client) true) =
      status conf { app with mBridge := some (.client {}) } := by
  cases app
  cases hbridge
  funext o
  cases o with
  | group g => cases g <;> rfl
  | netGroup g => cases g <;> rfl
  | connReset g => cases g <;> rfl
  | netConnKeepAlive g => cases g <;> rfl
  | keepAliveRouteObserver g => cases g <;> rfl
  | _ => rfl

theorem status_clientNetObserver {b : ClientGroup} (hb : app.mBridge = some (.client b)) (p : Bool) :
    Function.update (status conf app) .clientNetObserver (held .clientNetObserver p) =
      status conf { app with mBridge := some (.client { b with mNetObserver := p }) } := by
  cases app
  cases hb
  funext o
  cases o with
  | group g => cases g <;> rfl
  | netGroup g => cases g <;> rfl
  | connReset g => cases g <;> rfl
  | netConnKeepAlive g => cases g <;> rfl
  | keepAliveRouteObserver g => cases g <;> rfl
  | _ => rfl

theorem rconn_ne_gone (hbtm : app.mBtmConn ≠ none) : status conf app .rconn ≠ .gone := by
  obtain ⟨c, hc⟩ := Option.ne_none_iff_exists'.mp hbtm
  rw [status, hc]
  exact held_true_ne_gone _

/-- `ClientGroup::Init` -/
theorem clientInit_spec {e : ListenEnv} (hi : Inv conf app w) (hb : app.mBridge = some (.client {}))
    (hconf : conf.keepAliveMs > 0) :
    Ends (ClientGroup.init conf e {}) w fun r w' =>
      Stage conf (fun app' => ∃ b, app' = { app with mBridge := some b } ∧ BridgeReady b)
        ({ app with mBridge := some (.client r.1) }, r.2) w' := by
  have hbtm : app.mBtmConn ≠ none := hi.btm (by simp [hb])
  -- whatever has become of the group, the application can be closed
  have hstage : ∀ {b : ClientGroup} {nret : Int} {w : World}, b.mBtm = true →
      (b.base = {} ∧ nret ≠ 0 ∨ b.base.Whole) → Sound (fun _ => 0) (status conf { app with mBridge := some (.client b) }) w →
      Stage conf (fun app' => ∃ b, app' = { app with mBridge := some b } ∧ BridgeReady b)
        ({ app with mBridge := some (.client b) }, nret) w := by
    intro b nret w hmBtm hbase hs
    refine ⟨⟨hs, hi.closing, fun _ => hbtm, hi.raw, hmBtm, ?_⟩, ?_⟩
    · rcases hbase with ⟨hbase, -⟩ | hbase
      · rw [hbase]
        exact fun _ => rfl
      · rw [hbase]
        intro hfalse
        cases hfalse
    · intro h0
      rcases hbase with ⟨-, hne⟩ | hbase
      · exact absurd h0 hne
      · exact ⟨.client b, rfl, hbase⟩
  refine (deref_spec (o := .rconn) hi.sound (rconn_ne_gone hbtm) rfl).bind ?_
  intro _ w₁ hs₁
  rw [← own_client_self hb] at hs₁
  refine (IAppGroup.init_spec conf hs₁ hconf (fun _ => rfl) e.netGroupInit).bind ?_
  rintro ⟨a, nret⟩ w₂ ⟨ha, hs₂⟩
  dsimp only at ha hs₂ ⊢
  rw [own_client hb] at hs₂
  split
  · exact ends_pure (hstage rfl ha hs₂)
  · next hnret =>
    have hwhole : a.Whole := ha.resolve_left fun h => hnret h.2
    split
    · exact ends_pure (hstage rfl (Or.inr hwhole) hs₂)
    · split
      · exact ends_pure (hstage rfl (Or.inr hwhole) hs₂)
      · refine (new_spec (o := .clientNetObserver) hs₂ rfl).bind ?_
        intro _ w₃ hs₃
        rw [status_clientNetObserver (b := { base := a }) rfl] at hs₃
        refine (registerObserver_spec (o := .clientNetObserver) hs₃ rfl rfl).bind ?_
        intro _ w₄ hs₄
        exact ends_pure (hstage rfl (Or.inr hwhole) hs₄)

/-- The bridge of a client needs a conn to start with. -/
theorem createBridgeConn_spec {dialed : Bool} (hi : Inv conf app w) (hbridge : app.mBridge = none)
    (hbtm : app.mBtmConn ≠ none) (hmanager : app.mNetManager ≠ none) :
    Ends (createBridgeConn conf dialed) w fun r w' =>
      r = none ∧ Inv conf app w' ∨ ∃ b, (b = .client {} ∨ b = .server {}) ∧ r = some b ∧
        Inv conf { app with mBridge := some b } w' := by
  unfold createBridgeConn
  split
  · next hserver =>
    refine (new_spec (o := .serverGroup) hi.sound ?_).bind ?_
    · rw [status, hbridge]
      rfl
    · intro _ w₁ hs₁
      rw [status_new_serverGroup hbridge] at hs₁
      refine ends_pure (Or.inr ⟨_, Or.inr rfl, rfl, hs₁, hi.closing, fun _ => hbtm, hi.raw, rfl, ?_, hserver⟩)
      intro key a hget
      cases hget
  · next hserver =>
    have hclient : status conf app .clientNetManager ≠ .gone := by
      obtain ⟨m, hm⟩ := Option.ne_none_iff_exists'.mp hmanager
      rw [status, hm, Bool.eq_false_iff.mpr hserver]
      exact held_true_ne_gone _
    have hgone : ∀ o, o = .group .client ∨ o = .netGroup .client → status conf app o = .gone := by
      rintro o (rfl | rfl)
      · rw [status, appGroup, hbridge]
        rfl
      · rw [status, appGroup, hbridge]
        rfl
    refine (new_spec (o := .netGroup .client) hi.sound (hgone _ (Or.inr rfl))).bind ?_
    intro _ w₁ hs₁
    refine (call_spec (o := .clientNetManager) hs₁ ?_).bind ?_
    · rw [Function.update_of_ne (by simp)]
      exact hclient
    · intro _ w₂ hs₂
      split
      · refine (new_spec (o := .group .client) hs₂ ?_).bind ?_
        · rw [Function.update_of_ne (by simp)]
          exact hgone _ (Or.inl rfl)
        · intro _ w₃ hs₃
          rw [status_new_client hbridge] at hs₃
          exact ends_pure (Or.inr ⟨_, Or.inl rfl, rfl, hs₃, hi.closing, fun _ => hbtm, hi.raw, rfl, fun _ => rfl⟩)
      · refine (delete_spec (o := .netGroup .client) hs₂ (Function.update_self ..)).bind ?_
        intro _ w₃ hs₃
        rw [Function.update_idem, held_false, ← hgone _ (Or.inr rfl), Function.update_eq_self] at hs₃
        exact ends_pure (Or.inl ⟨rfl, hs₃, hi.closing, hi.btm, hi.raw, hi.bridge⟩)

/-- The last step: the bridge. -/
theorem initBridge_spec {e : InitEnv} (hi : Inv conf app w) (hbridge : app.mBridge = none)
    (hbtm : app.mBtmConn ≠ none) (hmanager : app.mNetManager ≠ none) (hconf : conf.keepAliveMs > 0) :
    Ends (app.initBridge conf e) w
      (Stage conf fun r => ∃ b, r = { app with mBridge := some b } ∧ BridgeReady b) := by
  refine (createBridgeConn_spec hi hbridge hbtm hmanager).bind ?_
  rintro _ w₁ (⟨rfl, hi₁⟩ | ⟨_, rfl | rfl, rfl, hi₁⟩)
  · refine ends_pure ⟨hi₁, fun h0 => ?_⟩
    cases h0
  · refine (clientInit_spec hi₁ rfl hconf).bind ?_
    rintro ⟨b, nret⟩ w₂ ⟨hi₂, hready⟩
    exact ends_pure ⟨hi₂, fun h0 => hready (eq_zero_of_orFail h0)⟩
  · have hinit : Ends (ServerGroup.init {}) w₁ fun _ => Inv conf { app with mBridge := some (.server {}) } := by
      refine (deref_spec (o := .rconn) hi₁.sound (rconn_ne_gone hbtm) rfl).bind ?_
      intro _ w₂ hs₂
      refine (registerObserver_spec (o := .serverGroup) hs₂ rfl rfl).imp ?_
      intro _ w₃ hs₃
      exact ⟨hs₃, hi₁.closing, hi₁.btm, hi₁.raw, hi₁.bridge⟩
    refine hinit.bind ?_
    intro nret w₂ hi₂
    exact ends_pure ⟨hi₂, fun _ => ⟨_, rfl, trivial⟩⟩

/-- The loop can run. -/
structure Ready (app : ISockApp) : Prop where
  inited : app.mInited = true
  netManager : app.mNetManager ≠ none
  cap : ∃ c, app.mCap = some c ∧ c.Ready
  btm : app.mBtmConn ≠ none
  bridge : ∃ b, app.mBridge = some b ∧ BridgeReady b

/-- What of the configuration `RConfig` has checked. -/
structure ConfOk (conf : Conf) : Prop where
  dev : conf.dev.isEmpty = false
  keepAliveMs : conf.keepAliveMs > 0
  appKeepAliveMs : conf.appKeepAliveMs ≠ 0

/-- Whichever part fails to be initialized, what there is can be closed. -/
theorem initParts_spec {e : InitEnv} {err : Bool} (hconf : ConfOk conf) (he : e.pcap.opened = true)
    (hi : Inv conf { mErrorHandler := err } w) :
    Ends (initParts conf e { mErrorHandler := err }) w (Stage conf Ready) := by
  refine andThen_spec (initObservers_spec hi) ?_
  rintro _ w₁ hi₁ rfl
  refine andThen_spec (initAckPool_spec hconf.appKeepAliveMs hi₁) ?_
  rintro _ w₂ hi₂ rfl
  refine andThen_spec (initNetManager_spec hi₂ rfl rfl rfl) ?_
  rintro _ w₃ hi₃ ⟨m, rfl⟩
  refine andThen_spec (initCap_spec hi₃ rfl rfl rfl hconf.dev he) ?_
  rintro _ w₄ hi₄ ⟨c, rfl, hinited, hthread, hopen⟩
  refine andThen_spec (initBtmConn_spec hi₄ rfl rfl) ?_
  rintro _ w₅ hi₅ ⟨btm, rfl, hraw⟩
  refine andThen_spec (startCap_spec hi₅ rfl hinited hthread hopen) ?_
  rintro _ w₆ hi₆ ⟨c', rfl, hready⟩
  refine andThen_spec (initBridge_spec hi₆ rfl (by simp) (by simp) hconf.keepAliveMs) ?_
  rintro _ w₇ hi₇ ⟨b, rfl, hb⟩
  refine ends_pure ⟨⟨hi₇.sound, rfl, hi₇.btm, hi₇.raw, hi₇.bridge⟩, fun _ => ?_⟩
  exact ⟨rfl, by simp, ⟨c', rfl, hready⟩, by simp, b, rfl, hb⟩

/-- An object that is created before there are services. -/
theorem new_bare {h : Obj → Status} {o : Obj} (hservices : w.services = none)
    (ht : Tidy Obj.home h w.live (watch w)) (ho : h o = .gone) (hobs : o.observes = false) :
    Ends (new o) w fun _ w' => w'.services = none ∧
      Tidy Obj.home (Function.update h o (held o true)) w'.live (watch w') := by
  have hidle : held o true = .idle := by
    rw [held, hobs]
    rfl
  rw [hidle]
  exact ⟨(), _, rfl, hservices, ht.create ho⟩

theorem bare_start (conf : Conf) : Bare conf {} {} where
  services := rfl
  tidy := by
    refine ⟨?_, ?_, fun _ => List.nodup_nil⟩
    · intro o
      refine (if_pos ?_).symm
      cases o with
      | group g => cases g <;> rfl
      | netGroup g => cases g <;> rfl
      | connReset g => cases g <;> rfl
      | netConnKeepAlive g => cases g <;> rfl
      | keepAliveRouteObserver g => cases g <;> rfl
      | _ => rfl
    · intro name o ho
      cases ho
  parts := ⟨false, false, false, rfl⟩

theorem initServices_spec (hb : Bare conf app w) :
    Ends initServices w fun _ => Sound (fun _ => 0) (status conf app) := by
  refine ⟨(), { w with services := some fun _ => { mInited := true } }, rfl,
    ⟨_, rfl, fun _ => ⟨rfl, rfl⟩⟩, hb.tidy.live_eq, ?_, fun _ => List.nodup_nil⟩
  intro name o ho
  cases ho

/-- The initialization ends early, or it has come to one of its steps. -/
theorem doInit_spec {e : InitEnv} {err : Bool} (hconf : ConfOk conf) (he : e.pcap.opened = true)
    (hb : Bare conf { mErrorHandler := err } w) :
    Ends (doInit conf e { mErrorHandler := err }) w fun r w' =>
      (Bare conf r.1 w' ∧ r.1.mClosing = false ∧ r.2 ≠ 0) ∨ Stage conf Ready r w' := by
  unfold doInit
  split
  · exact ends_pure (Or.inl ⟨hb, rfl, (by decide : (-1 : Int) ≠ 0)⟩)
  · split
    · exact ends_pure (Or.inl ⟨hb, rfl, (by decide : (-1 : Int) ≠ 0)⟩)
    · refine (initServices_spec hb).bind ?_
      intro _ w₁ hs₁
      exact (initParts_spec hconf he (inv_of_sound hs₁ rfl rfl rfl)).imp fun _ _ => Or.inr

/-- The application is not initialized and can be closed, or it is ready. -/
theorem init_spec {e : InitEnv} (hconf : ConfOk conf) (he : e.pcap.opened = true) :
    Ends (init conf e {}) {} fun r w' =>
      (Bare conf r.1 w' ∧ r.1.mClosing = false ∧ r.2 ≠ 0) ∨ Stage conf Ready r w' := by
  have hhandler : Ends (createErrorHandler conf {}) {} fun r w' =>
      ∃ err, r = { mErrorHandler := err } ∧ Bare conf r w' := by
    unfold createErrorHandler
    split
    · exact ends_pure ⟨false, rfl, bare_start conf⟩
    · refine (new_bare (o := .errorHandler) (bare_start conf).services (bare_start conf).tidy rfl rfl).bind ?_
      rintro _ w₁ ⟨hservices, ht⟩
      rw [status_errorHandler] at ht
      exact ends_pure ⟨true, rfl, hservices, ht, true, false, false, rfl⟩
  refine hhandler.bind ?_
  rintro _ w₁ ⟨err, rfl, hb⟩
  split
  · next hne => exact ends_pure (Or.inl ⟨hb, rfl, hne⟩)
  · exact doInit_spec hconf he hb

/-- An application that is ready can be started. -/
theorem start_spec (hconf : ConfOk conf) (hi : Inv conf app w) (hr : Ready app) :
    Ends (app.start conf) w fun r w' => Inv conf r w' ∧ Ready r := by
  refine ends_cassert hr.inited ?_
  unfold startTimer
  split
  · exact ends_pure ⟨hi, hr⟩
  · next htimer =>
    refine ends_cassert hconf.appKeepAliveMs ?_
    refine (new_spec (o := .appTimer) hi.sound ?_).bind ?_
    · rw [status, Bool.eq_false_iff.mpr htimer]
      rfl
    · intro _ w₁ hs₁
      rw [status_appTimer] at hs₁
      refine (registerTimer_spec conf (o := .appTimer) hs₁ rfl rfl rfl).bind ?_
      intro _ w₂ hs₂
      exact ends_pure ⟨⟨hs₂, hi.closing, hi.btm, hi.raw, hi.bridge⟩,
        hr.inited, hr.netManager, hr.cap, hr.btm, hr.bridge⟩

/-! ## The loop -/

theorem rawTcp_ne_gone (hi : Inv conf app w) (hr : Ready app) : status conf app .rawTcp ≠ .gone := by
  obtain ⟨c, hc⟩ := Option.ne_none_iff_exists'.mp hr.btm
  rw [status, hc]
  show held .rawTcp c.mRawTcp ≠ .gone
  rw [hi.raw c hc]
  exact held_true_ne_gone _

theorem netManager_ne_gone (hr : Ready app) : status conf app conf.netManager ≠ .gone := by
  obtain ⟨m, hm⟩ := Option.ne_none_iff_exists'.mp hr.netManager
  unfold Conf.netManager
  split
  · next hserver =>
    rw [status, hm, hserver]
    exact held_true_ne_gone _
  · next hserver =>
    rw [status, hm, Bool.eq_false_iff.mpr hserver]
    exact held_true_ne_gone _

/-- The application after one of its groups has changed. -/
theorem inv_server {b b' : ServerGroup} (hi : Inv conf app w) (hr : Ready app) (hb : app.mBridge = some (.server b))
    {w' : World} (hbtm : b'.mBtm = b.mBtm) (hgroups : b'.Groups conf)
    (hs : Sound (fun _ => 0) (b'.own (status conf app)) w') :
    Inv conf { app with mBridge := some (.server b') } w' ∧ Ready { app with mBridge := some (.server b') } := by
  have hok := hi.bridge
  rw [hb] at hok
  rw [own_server hb] at hs
  exact ⟨⟨hs, hi.closing, fun _ => hr.btm, hi.raw, hbtm.trans hok.1, hgroups, hok.2.2⟩,
    hr.inited, hr.netManager, hr.cap, hr.btm, _, rfl, trivial⟩

theorem groups_of_inv {b : ServerGroup} (hi : Inv conf app w) (hb : app.mBridge = some (.server b)) :
    b.Groups conf := by
  have hok := hi.bridge
  rw [hb] at hok
  exact hok.2.1

theorem isServer_of_inv {b : ServerGroup} (hi : Inv conf app w) (hb : app.mBridge = some (.server b)) :
    conf.isServer = true := by
  have hok := hi.bridge
  rw [hb] at hok
  exact hok.2.2

theorem whole_of_ready {b : ClientGroup} (hr : Ready app) (hb : app.mBridge = some (.client b)) : b.base.Whole := by
  obtain ⟨b', hb', hready⟩ := hr.bridge
  rw [hb] at hb'
  cases hb'
  exact hready

theorem group_ne_gone {g : GroupId} {a : IAppGroup} (ha : app.appGroup g = some a) :
    status conf app (.group g) ≠ .gone := by
  rw [status, ha]
  exact held_true_ne_gone _

/-- A packet leaves the application ready. -/
theorem onRecv_spec {key : String} {netGroupInit : Int} {cmd : Cmd} (hconf : ConfOk conf)
    (hkey : conf.isServer = true → key ≠ conf.id) (hi : Inv conf app w) (hr : Ready app) :
    Ends (app.onRecv conf key netGroupInit cmd) w fun r w' => Inv conf r w' ∧ Ready r := by
  refine (call_spec (o := .rawTcp) hi.sound (rawTcp_ne_gone hi hr)).bind ?_
  intro _ w₁ hs₁
  refine (call_spec (o := .rconn) hs₁ (rconn_ne_gone hr.btm)).bind ?_
  intro _ w₂ hs₂
  obtain ⟨b, hb, -⟩ := hr.bridge
  cases b with
  | client b =>
    rw [hb]
    have ha : app.appGroup .client = some b.base := by rw [appGroup, hb]
    refine (IAppGroup.input_spec hs₂ (whole_of_ready hr hb) (group_ne_gone ha) (own_client_self hb) cmd).bind ?_
    intro _ w₃ hs₃
    exact ends_pure ⟨⟨hs₃, hi.closing, hi.btm, hi.raw, hi.bridge⟩, hr⟩
  | server b =>
    rw [hb]
    refine (call_spec (o := .serverGroup) hs₂ ?_).bind ?_
    · rw [status, hb]
      exact held_true_ne_gone _
    · intro _ w₃ hs₃
      rw [← own_server_self hb] at hs₃
      refine (ServerGroup.onRecv_spec hs₃ (groups_of_inv hi hb) (hkey (isServer_of_inv hi hb))
        hconf.keepAliveMs fun _ => rfl).bind ?_
      rintro b' w₄ ⟨hbtm, hgroups, hs₄⟩
      exact ends_pure (inv_server hi hr hb hbtm hgroups hs₄)

theorem flush_spec {dead : String → Bool} (hi : Inv conf app w) (hr : Ready app) :
    Ends (app.flush conf dead) w fun r w' => Inv conf r w' ∧ Ready r := by
  obtain ⟨b, hb, -⟩ := hr.bridge
  unfold flush
  cases b with
  | client b =>
    rw [hb]
    have ha : app.appGroup .client = some b.base := by rw [appGroup, hb]
    refine (IAppGroup.askNetGroup_spec hi.sound (whole_of_ready hr hb) (group_ne_gone ha) (own_client_self hb)).bind ?_
    intro _ w₁ hs₁
    exact ends_pure ⟨⟨hs₁, hi.closing, hi.btm, hi.raw, hi.bridge⟩, hr⟩
  | server b =>
    rw [hb]
    refine (call_spec (o := .serverGroup) hi.sound ?_).bind ?_
    · rw [status, hb]
      exact held_true_ne_gone _
    · intro _ w₁ hs₁
      rw [← own_server_self hb] at hs₁
      refine (ServerGroup.flush_spec hs₁ (groups_of_inv hi hb) fun _ => rfl).bind ?_
      rintro b' w₂ ⟨hbtm, hgroups, hs₂⟩
      exact ends_pure (inv_server hi hr hb hbtm hgroups hs₂)

/-- A group that is there is whole, and its objects are those its pointers point to. -/
theorem whole_of_group {g : GroupId} {a : IAppGroup} (hi : Inv conf app w) (hr : Ready app)
    (ha : app.appGroup g = some a) : a.Whole ∧ a.own g (status conf app) = status conf app := by
  obtain ⟨b, hb, -⟩ := hr.bridge
  unfold appGroup at ha
  rw [hb] at ha
  cases g with
  | client =>
    cases b with
    | client b =>
      cases ha
      exact ⟨whole_of_ready hr hb, own_client_self hb⟩
    | server b => cases ha
  | sub key =>
    cases b with
    | client b => cases ha
    | server b =>
      refine ⟨(groups_of_inv hi hb key a ha).1, ?_⟩
      rw [← own_server_self hb]
      exact ServerGroup.own_of_get? ha

/-- Only a group that is there has timers and observers. -/
theorem exists_group_of_held {g : GroupId} {o : Obj} {f : IAppGroup → Bool}
    (ho : held o ((app.appGroup g).any f) = .watched) : ∃ a, app.appGroup g = some a := by
  cases ha : app.appGroup g with
  | none =>
    rw [ha] at ho
    cases ho
  | some a => exact ⟨a, rfl⟩

/-- The invariant says nothing about the services but that they are sound. -/
theorem Inv.of_sound (hi : Inv conf app w) {w' : World} (hs : Sound (fun _ => 0) (status conf app) w') :
    Inv conf app w' :=
  ⟨hs, hi.closing, hi.btm, hi.raw, hi.bridge⟩

/-- The observers of the timer are there when they are called. -/
theorem onFlush_spec {o : Obj} {dead : String → Bool} (hi : Inv conf app w) (hr : Ready app)
    (ho : status conf app o = .watched) :
    Ends (app.onFlush conf o dead) w fun r w' => Inv conf r w' ∧ Ready r := by
  refine (call_spec hi.sound (by rw [ho]; decide)).bind ?_
  intro _ w₁ hs₁
  have hi₁ := hi.of_sound hs₁
  split
  · exact flush_spec hi₁ hr
  · refine (call_spec hs₁ (netManager_ne_gone hr)).bind ?_
    intro _ w₂ hs₂
    exact ends_pure ⟨hi.of_sound hs₂, hr⟩
  · next g =>
    obtain ⟨a, ha⟩ := exists_group_of_held ho
    obtain ⟨hwhole, hown⟩ := whole_of_group hi hr ha
    rw [ha]
    refine (IAppGroup.keepAliveOnFlush_spec hs₁ hwhole (group_ne_gone ha) hown).bind ?_
    intro _ w₂ hs₂
    exact ends_pure ⟨hi.of_sound hs₂, hr⟩
  · exact ends_pure ⟨hi₁, hr⟩

/-- The application is as it was, its capture and its raw socket apart. -/
structure Renewed (app r : ISockApp) : Prop where
  eq : ∃ cap btm, r = { app with mCap := cap, mBtmConn := btm }
  cap : ∃ c, r.mCap = some c ∧ c.Ready
  btm : ∃ c, r.mBtmConn = some c ∧ c.mRawTcp = true

/-- Other devices and contexts leave the invariant as it is. -/
theorem Renewed.inv {r : ISockApp} (hn : Renewed app r) (hi : Inv conf app w) (hr : Ready app) {w' : World}
    (hs : Sound (fun _ => 0) (status conf r) w') : Inv conf r w' ∧ Ready r := by
  obtain ⟨⟨cap, btm, rfl⟩, hcap, c, hc, hraw⟩ := hn
  dsimp only at hc
  have hbtm : btm ≠ none := by
    rw [hc]
    simp
  refine ⟨⟨hs, hi.closing, fun _ => hbtm, ?_, hi.bridge⟩, hr.inited, hr.netManager, hcap, hbtm, hr.bridge⟩
  intro c' hc'
  rw [hc] at hc'
  cases hc'
  exact hraw

section Network

variable {r : ISockApp} {o : Obj} {w' : World}

end Network

end ISockApp

end AppLife

end Rsock
