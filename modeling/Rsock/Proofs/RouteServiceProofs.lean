import Mathlib.Tactic.Tauto
import Rsock.RouteService

/-!
# Proofs: going offline and online

An observer that could not open the network it was told about is not told again: the service compares
what it finds with what it has stored, and it stores the network before the observers have done
anything with it. `Route.Stuck` is the state this leaves behind, `Route.stuck_stays` says that it
lasts as long as the network does, and `Route.never_stuck_iff` says which step leads to it.
-/

namespace Rsock

open CMem TransSys

/-- `CheckNetworkStatusNow` takes this for a network. -/
def WanInfo.Found (wan : WanInfo) : Prop := wan.nret = 0 ∧ wan.dev ≠ "" ∧ wan.ip ≠ ""

theorem RouteUtil.sameNetwork_iff {dev1 ip1 dev2 ip2 : String} :
    sameNetwork dev1 ip1 dev2 ip2 = true ↔ dev1 = dev2 ∧ ip1 = ip2 := by
  rw [sameNetwork, Bool.and_eq_true, beq_iff_eq, beq_iff_eq]

theorem RouteService.mBlock_checkNetworkStatusDelayed (s : RouteService) :
    s.checkNetworkStatusDelayed.mBlock = s.mBlock := by
  unfold checkNetworkStatusDelayed
  split
  · rfl
  · split <;> rfl

namespace RawTcp

theorem mTcpNet_onNetConnected (r : RawTcp) (l : LibnetInit) :
    (r.onNetConnected l).mTcpNet = (l.opened || r.mTcpNet) := by
  unfold onNetConnected
  split
  · next h => rw [h]; rfl
  · next h => simp [h]

theorem mTcpNet_output (r : RawTcp) (res : LibnetRes) (info : TcpInfo) (buf : List UInt8) :
    (r.output res info buf).1.mTcpNet = r.mTcpNet := by
  unfold output
  split <;> rfl

end RawTcp

namespace Route

variable {s s' : Route} {wan : WanInfo} {l : LibnetInit}

/-! ## One check -/

/-- No context to send with, and a network that the next check takes for the old one. -/
def Stuck (s : Route) : Prop := s.rawTcp.mTcpNet = false ∧ s.conf.dev ≠ "" ∧ s.conf.ip ≠ ""

theorem check_offline (hb : s.service.mBlock = false) (hw : ¬ wan.Found) :
    s.checkNetworkStatusNow wan l =
      ({ s with conf := ⟨"", ""⟩, rawTcp := s.rawTcp.onNetDisconnected }, some .offline) := by
  have hw' : wan.nret ≠ 0 ∨ wan.dev = "" ∨ wan.ip = "" := by
    unfold WanInfo.Found at hw
    tauto
  rw [checkNetworkStatusNow, if_neg (by rw [hb]; decide), if_pos hw']
  rfl

theorem check_same (hb : s.service.mBlock = false) (hw : wan.Found)
    (hsame : s.conf = ⟨wan.dev, wan.ip⟩) : s.checkNetworkStatusNow wan l = (s, none) := by
  have hw' : ¬ (wan.nret ≠ 0 ∨ wan.dev = "" ∨ wan.ip = "") := by
    unfold WanInfo.Found at hw
    tauto
  have hnet : RouteUtil.sameNetwork s.conf.dev s.conf.ip wan.dev wan.ip = true := by
    rw [RouteUtil.sameNetwork_iff, hsame]
    exact ⟨rfl, rfl⟩
  rw [checkNetworkStatusNow, if_neg (by rw [hb]; decide), if_neg hw', if_pos hnet]

theorem check_new (hb : s.service.mBlock = false) (hw : wan.Found)
    (hnew : s.conf ≠ ⟨wan.dev, wan.ip⟩) :
    s.checkNetworkStatusNow wan l =
      ({ s with conf := ⟨wan.dev, wan.ip⟩, rawTcp := s.rawTcp.onNetConnected l, mDev := wan.dev },
        some (.online wan.dev wan.ip)) := by
  have hw' : ¬ (wan.nret ≠ 0 ∨ wan.dev = "" ∨ wan.ip = "") := by
    unfold WanInfo.Found at hw
    tauto
  have hnet : ¬ RouteUtil.sameNetwork s.conf.dev s.conf.ip wan.dev wan.ip = true := by
    rw [RouteUtil.sameNetwork_iff]
    rintro ⟨hdev, hip⟩
    exact hnew (by cases h : s.conf; simp_all)
  rw [checkNetworkStatusNow, if_neg (by rw [hb]; decide), if_neg hw', if_neg hnet]
  rfl

/-- Without a context, a check that finds a network reports it unless the state is stuck. -/
theorem stuck_iff_not_notified (hb : s.service.mBlock = false) (hnet : s.rawTcp.mTcpNet = false) :
    Stuck s ↔ ∃ wan : WanInfo, wan.Found ∧
      ∀ l, (s.checkNetworkStatusNow wan l).2 ≠ some (.online wan.dev wan.ip) := by
  constructor
  · rintro ⟨-, hdev, hip⟩
    refine ⟨⟨0, s.conf.dev, s.conf.ip⟩, ⟨rfl, hdev, hip⟩, fun l => ?_⟩
    rw [check_same hb ⟨rfl, hdev, hip⟩ rfl]
    simp
  · rintro ⟨wan, hw, hnone⟩
    by_cases hsame : s.conf = ⟨wan.dev, wan.ip⟩
    · refine ⟨hnet, ?_, ?_⟩
      · rw [hsame]
        exact hw.2.1
      · rw [hsame]
        exact hw.2.2
    · have hn := hnone ⟨true, .other⟩
      rw [check_new hb hw hsame] at hn
      exact absurd rfl hn

/-- A check leads to a stuck state only if it finds a network other than the stored one, and the
    observer that has no context cannot open it. -/
theorem stuck_check_iff (hb : s.service.mBlock = false) (hs : ¬ Stuck s) :
    Stuck (s.checkNetworkStatusNow wan l).1 ↔
      wan.Found ∧ s.conf ≠ ⟨wan.dev, wan.ip⟩ ∧ s.rawTcp.mTcpNet = false ∧ l.opened = false := by
  by_cases hw : wan.Found
  · by_cases hsame : s.conf = ⟨wan.dev, wan.ip⟩
    · rw [check_same hb hw hsame]
      refine iff_of_false hs ?_
      rintro ⟨-, hnew, -⟩
      exact hnew hsame
    · rw [check_new hb hw hsame]
      simp only [Stuck, RawTcp.mTcpNet_onNetConnected, Bool.or_eq_false_iff]
      have hdev := hw.2.1
      have hip := hw.2.2
      tauto
  · rw [check_offline hb hw]
    refine iff_of_false ?_ fun h => hw h.1
    rintro ⟨-, hdev, -⟩
    exact hdev rfl

theorem mBlock_check : (s.checkNetworkStatusNow wan l).1.service = s.service := by
  unfold checkNetworkStatusNow
  split
  · rfl
  · split
    · rfl
    · split <;> rfl

/-! ## Whole runs -/

/-- The check of the event, if it makes one. -/
def Event.check? (s : Route) : Event → Option (WanInfo × LibnetInit)
  | .checkNetworkStatusNow wan l => some (wan, l)
  | .handleMessage wan l => if s.service.mHandler.isSome then some (wan, l) else none
  | .output _ _ _ => none
  | .checkNetworkStatusDelayed => none

/-- What an event does to the interface and the context. -/
theorem step_cases {e : Event} (hr : s.step e = .ok s') :
    s'.service.mBlock = s.service.mBlock ∧
    ((e.check? s = none ∧ s'.conf = s.conf ∧ s'.rawTcp.mTcpNet = s.rawTcp.mTcpNet) ∨
      ∃ wan l service, e.check? s = some (wan, l) ∧ service.mBlock = s.service.mBlock ∧
        s' = ({ s with service := service }.checkNetworkStatusNow wan l).1) := by
  cases e with
  | checkNetworkStatusNow wan l =>
    obtain rfl := Except.ok.inj hr
    exact ⟨by rw [mBlock_check], .inr ⟨wan, l, s.service, rfl, rfl, rfl⟩⟩
  | handleMessage wan l =>
    by_cases hm : s.service.mHandler.isSome = true
    · rw [step, if_pos hm] at hr
      obtain rfl := Except.ok.inj hr
      refine ⟨by rw [mBlock_check], .inr ⟨wan, l, { s.service with mHandler := none }, ?_, rfl, rfl⟩⟩
      exact if_pos hm
    · rw [step, if_neg hm] at hr
      obtain rfl := Except.ok.inj hr
      exact ⟨rfl, .inl ⟨if_neg hm, rfl, rfl⟩⟩
  | output res info buf =>
    unfold step at hr
    dsimp only at hr
    split at hr
    · obtain rfl := Except.ok.inj hr
      exact ⟨RouteService.mBlock_checkNetworkStatusDelayed _, .inl ⟨rfl, rfl, RawTcp.mTcpNet_output ..⟩⟩
    · obtain rfl := Except.ok.inj hr
      exact ⟨rfl, .inl ⟨rfl, rfl, RawTcp.mTcpNet_output ..⟩⟩
  | checkNetworkStatusDelayed =>
    obtain rfl := Except.ok.inj hr
    exact ⟨RouteService.mBlock_checkNetworkStatusDelayed _, .inl ⟨rfl, rfl, rfl⟩⟩

/-- The tunnel can come back: it has a context, or the next check that finds a network, whichever it
    is, tells the observers. -/
def Recovers (s : Route) : Prop :=
  ¬ Stuck s ∧ (s.rawTcp.mTcpNet = false → ∀ wan : WanInfo, wan.Found → ∀ l,
    (s.checkNetworkStatusNow wan l).2 = some (.online wan.dev wan.ip))

/-- A check that finds a network when there is no context opens it, if it is not the stored one. -/
def Reopens (s : Route) (e : Event) : Prop :=
  ∀ wan l, e.check? s = some (wan, l) → wan.Found → s.conf ≠ ⟨wan.dev, wan.ip⟩ →
    s.rawTcp.mTcpNet = false → l.opened = true

theorem recovers_iff (hb : s.service.mBlock = false) : Recovers s ↔ ¬ Stuck s := by
  refine ⟨And.left, fun hs => ⟨hs, fun hnet wan hw l => ?_⟩⟩
  have hnew : s.conf ≠ ⟨wan.dev, wan.ip⟩ := by
    intro hsame
    refine hs ⟨hnet, ?_, ?_⟩
    · rw [hsame]
      exact hw.2.1
    · rw [hsame]
      exact hw.2.2
  rw [check_new hb hw hnew]

theorem step_ok (s : Route) (e : Event) : ∃ s', s.step e = .ok s' := by
  cases e with
  | checkNetworkStatusNow wan l => exact ⟨_, rfl⟩
  | handleMessage wan l =>
    by_cases hm : s.service.mHandler.isSome = true
    · exact ⟨_, if_pos hm⟩
    · exact ⟨_, if_neg hm⟩
  | output res info buf =>
    by_cases hc : (s.rawTcp.output res info buf).2.checkNetwork = true
    · exact ⟨_, if_pos hc⟩
    · exact ⟨_, if_neg hc⟩
  | checkNetworkStatusDelayed => exact ⟨_, rfl⟩

theorem recovers_step_iff {e : Event} (hb : s.service.mBlock = false) (hs : ¬ Stuck s) :
    (∀ s', s.step e = .ok s' → Recovers s') ↔ Reopens s e := by
  obtain ⟨s', hr⟩ := step_ok s e
  obtain ⟨hblock, hcases⟩ := step_cases hr
  have hb' : s'.service.mBlock = false := hblock.trans hb
  have hone : (∀ s'', s.step e = .ok s'' → Recovers s'') ↔ ¬ Stuck s' := by
    rw [← recovers_iff hb']
    refine ⟨fun h => h s' hr, fun h s'' hr' => ?_⟩
    rwa [Except.ok.inj (hr'.symm.trans hr)]
  rw [hone]
  rcases hcases with ⟨hnone, hconf, hnet⟩ | ⟨wan, l, service, hcheck, hsb, rfl⟩
  · have hsame : Stuck s' ↔ Stuck s := by simp only [Stuck, hconf, hnet]
    rw [hsame]
    refine iff_of_true hs ?_
    intro wan l hc
    rw [hnone] at hc
    cases hc
  · have hs₁ : ¬ Stuck { s with service := service } := hs
    rw [stuck_check_iff (hsb.trans hb) hs₁]
    constructor
    · intro h wan' l' hc hw hnew hnet
      obtain ⟨rfl, rfl⟩ := Prod.mk.inj (Option.some.inj (hcheck.symm.trans hc))
      by_contra hl
      exact h ⟨hw, hnew, hnet, by simpa using hl⟩
    · rintro h ⟨hw, hnew, hnet, hl⟩
      rw [h wan l hcheck hw hnew hnet] at hl
      cases hl

/-- In a run of the program the tunnel can come back from every state it gets into, exactly if every
    check that finds a new network while there is no context opens it. -/
theorem never_stuck_iff (conf : ConfManager) (l : LibnetInit) (s : Route)
    (hinit : init conf l = some s) (es : List Event) :
    Always step (fun _ _ s' => Recovers s') s es ↔ EachStep step Reopens s es := by
  have hstart : s.service.mBlock = false ∧ ¬ Stuck s := by
    unfold init at hinit
    split at hinit
    · obtain rfl := Option.some.inj hinit
      exact ⟨rfl, fun h => by cases h.1⟩
    · cases hinit
  refine always_iff_eachStep (J := fun s : Route => s.service.mBlock = false ∧ ¬ Stuck s) ?_ ?_ es s
    hstart
  · rintro s e s' ⟨hb, -⟩ hr ⟨hrec, -⟩
    exact ⟨(step_cases hr).1.trans hb, hrec⟩
  · rintro s e ⟨hb, hs⟩
    exact recovers_step_iff hb hs

/-! ## A stuck tunnel -/

/-- A stuck tunnel stays so as long as the checks find the same network. -/
theorem stuck_stays {es : List Event} (hb : s.service.mBlock = false) (hs : Stuck s)
    (hsame : EachStep step (fun s e => ∀ wan l, e.check? s = some (wan, l) →
      wan.Found ∧ s.conf = ⟨wan.dev, wan.ip⟩) s es) (hr : run step s es = .ok s') : Stuck s' := by
  induction es generalizing s with
  | nil =>
    obtain rfl := Except.ok.inj hr
    exact hs
  | cons e es ih =>
    obtain ⟨s₁, hstep, hrest⟩ := bind_eq_ok.mp hr
    obtain ⟨hblock, hcases⟩ := step_cases hstep
    refine ih (hblock.trans hb) ?_ (hsame.2 s₁ hstep) hrest
    rcases hcases with ⟨-, hconf, hnet⟩ | ⟨wan, l, service, hcheck, hsb, rfl⟩
    · rw [Stuck, hconf, hnet]
      exact hs
    · obtain ⟨hw, hc⟩ := hsame.1 wan l hcheck
      have hsame' := check_same (l := l) (s := { s with service := service }) (hsb.trans hb) hw hc
      rw [hsame']
      exact hs

def eth0 : WanInfo := ⟨0, "eth0", "10.0.0.2"⟩

/-- The network goes away and comes back, and is opened again. -/
theorem never_stuck_reopened : ∃ s, init ⟨"eth0", "10.0.0.2"⟩ ⟨true, .en10mb⟩ = some s ∧
    Always step (fun _ _ s' => Recovers s') s
      [.checkNetworkStatusNow ⟨-1, "", ""⟩ ⟨true, .en10mb⟩,
        .checkNetworkStatusNow eth0 ⟨true, .en10mb⟩] := by
  refine ⟨_, rfl, (never_stuck_iff ⟨"eth0", "10.0.0.2"⟩ ⟨true, .en10mb⟩ _ rfl _).mpr ?_⟩
  refine ⟨?_, fun s' _ => ⟨?_, fun _ _ => trivial⟩⟩
  · intro wan l hc _ _ _
    obtain ⟨rfl, rfl⟩ := Prod.mk.inj (Option.some.inj hc)
    rfl
  · intro wan l hc _ _ _
    obtain ⟨rfl, rfl⟩ := Prod.mk.inj (Option.some.inj hc)
    rfl

/-- The network goes away and comes back, but `libnet_init` fails the first time. The next checks
    find the same network and tell no one. -/
theorem stuck_after_failed_open : ∃ s s', init ⟨"eth0", "10.0.0.2"⟩ ⟨true, .en10mb⟩ = some s ∧
    run step s [.checkNetworkStatusNow ⟨-1, "", ""⟩ ⟨true, .en10mb⟩,
      .checkNetworkStatusNow eth0 ⟨false, .other⟩] = .ok s' ∧ Stuck s' ∧
    (∀ l, s'.checkNetworkStatusNow eth0 l = (s', none)) ∧
    ¬ Always step (fun _ _ s' => Recovers s') s
      [.checkNetworkStatusNow ⟨-1, "", ""⟩ ⟨true, .en10mb⟩,
        .checkNetworkStatusNow eth0 ⟨false, .other⟩] := by
  refine ⟨_, _, rfl, rfl, ⟨rfl, by decide, by decide⟩, fun l => rfl, fun h => ?_⟩
  exact ((h _ rfl).2 _ rfl).1.1 ⟨rfl, by decide, by decide⟩

end Route

end Rsock
