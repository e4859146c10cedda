import Rsock.Proofs.ClientNetManagerProofs
import Rsock.Proofs.DialsProofs

/-!
# Proofs: the client dials one by one

The manager inside the client is the manager with numbered dials, without the numbers (`Dials.erase`):
every run of the client is one of the numbered dials (`Dials.erase_run`).
-/

namespace Rsock

open CMem TransSys

namespace Dials

variable {m : Dials} {s s' : CSockApp}

theorem erase_flushLoop (now : UInt64) (connects : List Bool) (reqs : Nat)
    (l : List (Nat × DialHelper)) :
    ClientNetManager.flushLoop now connects reqs (l.map Prod.snd) =
      ((flushLoop now connects reqs l).1.map Prod.snd, (flushLoop now connects reqs l).2.1) := by
  induction l generalizing connects reqs with
  | nil => rfl
  | cons e l ih =>
    obtain ⟨id, d⟩ := e
    rw [List.map_cons, ClientNetManager.flushLoop, flushLoop]
    split
    · exact ih connects reqs
    · split
      · split
        · rw [ih]
          rfl
        · rw [ih]
          rfl
      · rw [ih]
        rfl

theorem erase_flushPending (m : Dials) (now : UInt64) (connects : List Bool) :
    (m.flushPending now connects).erase = m.erase.flushPending now connects := by
  unfold flushPending ClientNetManager.flushPending
  cases halive : m.mNetworkAlive with
  | false => simp [erase, halive]
  | true => simp [erase, halive, erase_flushLoop]

theorem erase_dialTcpAsync (m : Dials) (info : ConnInfo) (now : UInt64) :
    (m.dialTcpAsync info now).erase = m.erase.dialTcpAsync info now := by
  simp [erase, dialTcpAsync, ClientNetManager.dialTcpAsync]

theorem span_erase (l : List (Nat × DialHelper)) (req : Nat) :
    (l.map Prod.snd).span (fun d => d.req ≠ some req) =
      ((l.span fun d => d.2.req ≠ some req).1.map Prod.snd,
        (l.span fun d => d.2.req ≠ some req).2.map Prod.snd) := by
  simp only [List.span_eq_takeWhile_dropWhile, List.takeWhile_map, List.dropWhile_map]
  rfl

/-- A completion of the client is one of the dials: with the conn that goes to the callback, or without
    a conn. -/
theorem erase_onTcpConnect {req : Nat} {status : Int} {env : ConnectEnv} (h : Inv m)
    (hs : s.mNetManager = m.erase) (hr : s.onTcpConnect req status env = .ok s') :
    ∃ es m', run step m es = .ok m' ∧ s'.mNetManager = m'.erase := by
  unfold CSockApp.onTcpConnect at hr
  have hpending : s.mNetManager.mPending = m.mPending.map Prod.snd := by rw [hs]; rfl
  rw [hpending, span_erase] at hr
  cases hspan : m.mPending.span fun d => d.2.req ≠ some req with
  | mk before rest =>
    rw [hspan] at hr
    obtain ⟨hsplit, -, hhead⟩ := span_entry hspan
    cases rest with
    | nil =>
      obtain rfl := Except.ok.inj hr
      exact ⟨[], m, rfl, hs⟩
    | cons e after =>
      obtain ⟨id, d⟩ := e
      have hd : d.req = some req := hhead (id, d) rfl
      have hany : (m.running.any fun r => r.1 = req) = true := by
        have hmem : (req, id) ∈ runningOf m.mPending :=
          mem_runningOf.mpr ⟨d, by rw [hsplit]; simp, hd⟩
        exact List.any_eq_true.mpr ⟨(req, id), h.running_perm.mem_iff.mpr hmem, by simp⟩
      have hone : ∀ res, run step m [.onTcpConnect req res] = .ok (m.onTcpConnect req res) := by
        intro res
        rw [run, step, if_pos hany]
        rfl
      have hentry : ∀ res, m.onTcpConnect req res =
          onTcpConnectEntry { m with running := m.running.filter fun r => r.1 ≠ req } res before id d
            after := by
        intro res
        unfold onTcpConnect
        dsimp only
        rw [hspan]
      have hr : s.onTcpConnectEntry status env (before.map Prod.snd) d (after.map Prod.snd) = .ok s' := hr
      rcases CSockApp.onTcpConnectEntry_cases hr with ⟨pool, rfl, -⟩ |
        ⟨pool, pool', c, b, -, -, -, hdp, hdst, rfl, -⟩
      · refine ⟨[.onTcpConnect req { now := env.now }], _, hone _, ?_⟩
        rw [hentry]
        simp [onTcpConnectEntry, erase, hs]
      · refine ⟨[.onTcpConnect req { conn := some c, tcpInfo := d.info, now := env.now }], _, hone _, ?_⟩
        rw [hentry]
        simp [onTcpConnectEntry, erase, hs, hdp, hdst]

/-- What happens at the client happens to the numbered dials. -/
theorem erase_step {e : CSockApp.Event} (h : Inv m) (hs : s.mNetManager = m.erase)
    (hr : s.step e = .ok s') : ∃ es m', run step m es = .ok m' ∧ s'.mNetManager = m'.erase := by
  have hbridge : ∀ e, s.bridgeStep e = .ok s' →
      ∃ es m', run step m es = .ok m' ∧ s'.mNetManager = m'.erase := by
    intro e hr
    obtain ⟨b, -, hr⟩ := bind_eq_ok.mp hr
    obtain rfl := Except.ok.inj hr
    exact ⟨[], m, rfl, hs⟩
  cases e with
  | addInfoFromPeer a =>
    obtain rfl := Except.ok.inj hr
    exact ⟨[], m, rfl, hs⟩
  | input info ups n => exact hbridge _ hr
  | send call => exact hbridge _ hr
  | flush => exact hbridge _ hr
  | notifyErr key err => exact hbridge _ hr
  | onTcpError p => exact hbridge _ hr
  | handleMessage now =>
    obtain ⟨⟨b, info⟩, -, hr⟩ := bind_eq_ok.mp hr
    cases info with
    | none =>
      obtain rfl := Except.ok.inj hr
      exact ⟨[], m, rfl, hs⟩
    | some info =>
      obtain rfl := Except.ok.inj hr
      cases info with
      | udp i => exact ⟨[], m, rfl, hs⟩
      | tcp i =>
        refine ⟨[.dialTcpAsync { i.toConnInfo with sp := 0 } now], _, rfl, ?_⟩
        rw [erase_dialTcpAsync, ← hs]
        rfl
  | flushPending now connects =>
    obtain rfl := Except.ok.inj hr
    refine ⟨[.onFlush now connects], _, rfl, ?_⟩
    rw [erase_flushPending, ← hs]
  | onTcpConnect req status env => exact erase_onTcpConnect h hs hr
  | onNetConnected =>
    obtain rfl := Except.ok.inj hr
    exact ⟨[.onNetConnected], _, rfl, by rw [hs]; rfl⟩
  | onNetDisconnected =>
    obtain rfl := Except.ok.inj hr
    exact ⟨[.onNetDisconnected], _, rfl, by rw [hs]; rfl⟩

/-- Every run of the client is one of the numbered dials, so that what holds of them in every run holds
    of the client's. -/
theorem erase_run {es : List CSockApp.Event} (h : Inv m) (hs : s.mNetManager = m.erase)
    (hr : run CSockApp.step s es = .ok s') :
    ∃ es' m', run step m es' = .ok m' ∧ s'.mNetManager = m'.erase := by
  induction es generalizing m s with
  | nil =>
    obtain rfl := Except.ok.inj hr
    exact ⟨[], m, rfl, hs⟩
  | cons e es ih =>
    obtain ⟨s₁, hstep, hrest⟩ := bind_eq_ok.mp hr
    obtain ⟨es₁, m₁, hrun₁, hs₁⟩ := erase_step h hs hstep
    have h₁ : Inv m₁ := run_invariant (fun _ _ _ hI hstep => inv_step hI hstep) h hrun₁
    obtain ⟨es₂, m₂, hrun₂, hs₂⟩ := ih h₁ hs₁ hrest
    refine ⟨es₁ ++ es₂, m₂, ?_, hs₂⟩
    rw [run_append, hrun₁]
    exact hrun₂

end Dials

end Rsock
