import DevMgr.Library.Exclusive
import DevMgr.Linux.FwupdUpdateProvider
import Mathlib.Data.Nat.Notation
import Mathlib.Logic.Relation

/-!
# The install gate

One install at a time claims `installing_`. Only while fwupd flashes for it does
`progressSink_` point to the reporter of its caller. A signal invokes the
reporter with the progress mutex held, so an install that leaves waits for it.
-/

open DevMgr.Core

namespace DevMgr.Linux.Fwupd
open Bytes Relation

def preflight (files : CabFiles) (replies : Replies) (candidateId : Str) (release : ReleaseRef) :
    Call (Result (ParsedDevice × ReleaseInfo)) := do
  match ← fetchDevice replies.getDevices candidateId with
  | none => return makeError .conflict (str "device changed since refresh — refresh & retry")
  | some device =>
    if ¬ device.facts.updatable then
      return makeError .conflict (str "device changed since refresh — refresh & retry")
    match ← fetchRelease replies.getUpgrades release with
    | none => return makeError .conflict (str "release changed since refresh — refresh & retry")
    | some fresh =>
      let remotes ← fetchRemotes replies.getRemotes
      match resolveAndOpenCab files fresh.locations remotes fresh.remoteId fresh.sizeBytes with
      | .error e => return .error e
      | .ok _ => return .ok (device, fresh)

def handOver (replies : Replies) (candidateId : Str) (device : ParsedDevice) (fresh : ReleaseInfo) :
    Call (Result InstallOutcome) :=
  match replies.install (installTimeout fresh) with
  | none => return makeError .io (str "install timed out — state reconciled on next refresh")
  | some reply => do
    reply
    let outcome ← finalize replies.getResults replies.getDevicesAfter candidateId device
    return .ok outcome

def caught : Call (Result InstallOutcome) → Result InstallOutcome
  | .ok result => result
  | .error (.sdbus name message) => .error (mapError name message)
  | .error (.exception what) => makeError .io (str "install failed: " ++ what)

theorem installGated_eq (files : CabFiles) (replies : Replies) (candidateId : Str)
    (release : ReleaseRef) :
    installGated files replies candidateId release =
      preflight files replies candidateId release >>= fun
        | .ok (device, fresh) => handOver replies candidateId device fresh
        | .error e => .ok (.error e) := by
  unfold installGated preflight
  rw [bind_assoc]
  refine congrArg (fetchDevice replies.getDevices candidateId >>= ·) (funext fun device => ?_)
  cases device with
  | none => rfl
  | some device =>
    dsimp only
    by_cases hupdatable : device.facts.updatable = true
    · rw [if_neg (not_not.mpr hupdatable), if_neg (not_not.mpr hupdatable), bind_assoc]
      refine congrArg (fetchRelease replies.getUpgrades release >>= ·) (funext fun fresh => ?_)
      cases fresh with
      | none => rfl
      | some fresh =>
        dsimp only
        rw [bind_assoc]
        refine congrArg (fetchRemotes replies.getRemotes >>= ·) (funext fun remotes => ?_)
        cases resolveAndOpenCab files fresh.locations remotes fresh.remoteId fresh.sizeBytes with
        | error e => rfl
        | ok cab => rfl
    · rw [if_pos hupdatable, if_pos hupdatable]
      rfl

theorem install_eq_caught (files : CabFiles) (replies : Replies) (candidateId : Str)
    (release : ReleaseRef) :
    install true false files replies candidateId release =
      caught (installGated files replies candidateId release) := rfl

structure Request where
  connected : Bool
  files : CabFiles
  replies : Replies
  candidateId : Str
  release : ReleaseRef
  reports : Bool

def Request.preflight (r : Request) : Call (Result (ParsedDevice × ReleaseInfo)) :=
  Fwupd.preflight r.files r.replies r.candidateId r.release

def Request.result (r : Request) (installing : Bool) : Result InstallOutcome :=
  install r.connected installing r.files r.replies r.candidateId r.release

theorem Request.result_of_preflight {r : Request}
    {answer : Call (Result (ParsedDevice × ReleaseInfo))}
    (hconnected : r.connected = true) (h : r.preflight = answer) :
    r.result false = caught (answer >>= fun
      | .ok (device, fresh) => handOver r.replies r.candidateId device fresh
      | .error e => .ok (.error e)) := by
  rw [Request.result, hconnected, install_eq_caught, installGated_eq, ← h, Request.preflight]

structure Signal where
  interfaceName : Str
  changed : Dict

def Signal.update (signal : Signal) : ProgressUpdate where
  percent :=
    match get Variant.uint32? signal.changed "Percentage" with
    | some percentage => if 100 < percentage then -1 else percentage.toNat
    | none => -1
  stage := statusName ((get Variant.uint32? signal.changed "Status").getD 0)

inductive Phase where
  | outside
  | preflight
  | installing (device : ParsedDevice) (fresh : ReleaseInfo)
  | leaving (result : Result InstallOutcome)
  | cleared (result : Result InstallOutcome)
  | returned (result : Result InstallOutcome)

def Phase.Claimed : Phase → Prop
  | .preflight | .installing .. | .leaving _ | .cleared _ => True
  | _ => False

/-- The reporter has been published and its caller still waits: what was asked before has been
answered. -/
def Phase.Reporting (r : Request) : Phase → Prop
  | .installing device fresh => r.preflight = .ok (.ok (device, fresh))
  | .leaving _ => ∃ device fresh, r.preflight = .ok (.ok (device, fresh))
  | _ => False

theorem Phase.Reporting.claimed {r : Request} {phase : Phase} (h : phase.Reporting r) :
    phase.Claimed := by
  cases phase <;> trivial

/-- `progressSink` is the call whose reporter is pointed to. A signal that invokes it holds the
progress mutex, which nothing else holds for longer than a step. -/
structure InstallGate where
  installing : Bool
  progressSink : Option ℕ
  forwarding : Option (ℕ × ProgressUpdate)
  calls : ℕ → Phase

namespace InstallGate

def idle : InstallGate := ⟨false, none, none, fun _ => .outside⟩

def move (s : InstallGate) (call : ℕ) (phase : Phase) : InstallGate :=
  { s with calls := Function.update s.calls call phase }

inductive Step (requests : ℕ → Request) : InstallGate → InstallGate → Prop
  | unavailable {s call} (houtside : s.calls call = .outside)
      (hconnected : (requests call).connected = false) :
      Step requests s (s.move call (.returned (makeError .io (str "fwupd unavailable"))))
  | busy {s call} (houtside : s.calls call = .outside)
      (hconnected : (requests call).connected = true)
      (hinstalling : s.installing = true) :
      Step requests s
        (s.move call (.returned (makeError .busy (str "another update is in progress"))))
  | claim {s call} (houtside : s.calls call = .outside)
      (hconnected : (requests call).connected = true)
      (hinstalling : s.installing = false) :
      Step requests s { s.move call .preflight with installing := true }
  | refuse {s call e} (hpreflight : s.calls call = .preflight)
      (hrefused : (requests call).preflight = .ok (.error e)) :
      Step requests s (s.move call (.leaving (.error e)))
  | throw {s call fault} (hpreflight : s.calls call = .preflight)
      (hthrown : (requests call).preflight = .error fault) :
      Step requests s (s.move call (.leaving (caught (.error fault))))
  | publish {s call device fresh} (hpreflight : s.calls call = .preflight)
      (hpassed : (requests call).preflight = .ok (.ok (device, fresh)))
      (hmutex : s.forwarding = none) :
      Step requests s { s.move call (.installing device fresh) with progressSink := some call }
  | leave {s call device fresh} (hinstalling : s.calls call = .installing device fresh) :
      Step requests s (s.move call
        (.leaving
          (caught (handOver (requests call).replies (requests call).candidateId device fresh))))
  | clear {s call result} (hleaving : s.calls call = .leaving result)
      (hmutex : s.forwarding = none) :
      Step requests s { s.move call (.cleared result) with progressSink := none }
  | release {s call result} (hcleared : s.calls call = .cleared result) :
      Step requests s { s.move call (.returned result) with installing := false }
  | forward {s call} (signal : Signal) (hmutex : s.forwarding = none)
      (hinterface : signal.interfaceName = kInterface)
      (hsink : s.progressSink = some call) (hreports : (requests call).reports = true) :
      Step requests s { s with forwarding := some (call, signal.update) }
  | forwarded {s call update} (hforwarding : s.forwarding = some (call, update)) :
      Step requests s { s with forwarding := none }

variable {requests : ℕ → Request} {s s' : InstallGate}

def Faithful (r : Request) : Phase → Prop
  | .outside => True
  | .preflight => r.connected = true
  | .installing device fresh => r.connected = true ∧ r.preflight = .ok (.ok (device, fresh))
  | .leaving result | .cleared result => result = r.result false
  | .returned result => ∃ installing, result = r.result installing

structure Sound (requests : ℕ → Request) (s : InstallGate) : Prop where
  gate : Exclusive Phase.Claimed s.installing s.calls
  sink : ∀ call, s.progressSink = some call → (s.calls call).Reporting (requests call)
  forwarding : ∀ call update, s.forwarding = some (call, update) → s.progressSink = some call
  faithful : ∀ call, Faithful (requests call) (s.calls call)

theorem sound_idle : idle.Sound requests :=
  ⟨.start (by simp [Phase.Claimed]), nofun, nofun, fun _ => trivial⟩

theorem Sound.faithful_move (h : s.Sound requests) {call : ℕ} {phase : Phase}
    (hfaithful : Faithful (requests call) phase) (call' : ℕ) :
    Faithful (requests call') ((s.move call phase).calls call') :=
  (Function.forall_update_iff s.calls fun call' => Faithful (requests call')).mpr
    ⟨hfaithful, fun call' _ => h.faithful call'⟩ call'

theorem Sound.sink_move (h : s.Sound requests) {call : ℕ} {phase : Phase}
    (hsink : s.progressSink = some call → phase.Reporting (requests call)) (call' : ℕ)
    (hcall' : s.progressSink = some call') : ((s.move call phase).calls call').Reporting
      (requests call') :=
  (Function.forall_update_iff s.calls fun call' phase =>
    s.progressSink = some call' → phase.Reporting (requests call')).mpr
      ⟨hsink, fun call' _ => h.sink call'⟩ call' hcall'

theorem Sound.move (h : s.Sound requests) {call : ℕ} {phase : Phase}
    (hclaimed : phase.Claimed ↔ (s.calls call).Claimed)
    (hsink : s.progressSink = some call → phase.Reporting (requests call))
    (hfaithful : Faithful (requests call) phase) : (s.move call phase).Sound requests :=
  ⟨h.gate.move hclaimed, h.sink_move hsink, h.forwarding, h.faithful_move hfaithful⟩

theorem Sound.sink_ne (h : s.Sound requests) {call : ℕ}
    (hcall : s.calls call = .outside ∨ s.calls call = .preflight) :
    s.progressSink ≠ some call := by
  intro hsink
  have hreporting := h.sink call hsink
  obtain houtside | hpreflight := hcall
  · rw [houtside] at hreporting
    exact hreporting
  · rw [hpreflight] at hreporting
    exact hreporting

theorem Sound.turnAway (h : s.Sound requests) {call : ℕ} {result : Result InstallOutcome}
    (houtside : s.calls call = .outside)
    (hresult : ∃ installing, result = (requests call).result installing) :
    (s.move call (.returned result)).Sound requests := by
  refine h.move ?_ (fun hsink => absurd hsink (h.sink_ne (.inl houtside))) hresult
  rw [houtside]
  exact Iff.rfl

theorem Sound.claim (h : s.Sound requests) {call : ℕ} (_ : s.calls call = .outside)
    (hconnected : (requests call).connected = true) (hinstalling : s.installing = false) :
    ({ s.move call .preflight with installing := true } : InstallGate).Sound requests := by
  have hgate := h.gate
  rw [hinstalling] at hgate
  refine ⟨hgate.claim trivial, h.sink_move fun hsink => ?_, h.forwarding,
    h.faithful_move hconnected⟩
  exact absurd (h.sink call hsink).claimed (hgate.nobody call)

theorem Sound.release (h : s.Sound requests) {call : ℕ} {result : Result InstallOutcome}
    (hcleared : s.calls call = .cleared result) :
    ({ s.move call (.returned result) with installing := false } : InstallGate).Sound requests := by
  have hfaithful := h.faithful call
  have hclaimed : (s.calls call).Claimed := by
    rw [hcleared]
    trivial
  rw [hcleared] at hfaithful
  refine ⟨h.gate.release hclaimed nofun, h.sink_move fun hsink => ?_, h.forwarding,
    h.faithful_move ⟨false, hfaithful⟩⟩
  have hreporting := h.sink call hsink
  rw [hcleared] at hreporting
  exact hreporting.elim

theorem Sound.step (h : s.Sound requests) (hstep : Step requests s s') : s'.Sound requests := by
  cases hstep with
  | unavailable houtside hconnected =>
    refine h.turnAway houtside ⟨false, ?_⟩
    rw [Request.result, hconnected]
    rfl
  | busy houtside hconnected hinstalling =>
    refine h.turnAway houtside ⟨true, ?_⟩
    rw [Request.result, hconnected]
    rfl
  | claim houtside hconnected hinstalling => exact h.claim houtside hconnected hinstalling
  | @refuse call e hpreflight hrefused =>
    have hconnected := h.faithful call
    rw [hpreflight] at hconnected
    refine h.move ?_ (fun hsink => absurd hsink (h.sink_ne (.inr hpreflight)))
      (Request.result_of_preflight hconnected hrefused).symm
    rw [hpreflight]
    exact Iff.rfl
  | @throw call fault hpreflight hthrown =>
    have hconnected := h.faithful call
    rw [hpreflight] at hconnected
    refine h.move ?_ (fun hsink => absurd hsink (h.sink_ne (.inr hpreflight)))
      (Request.result_of_preflight hconnected hthrown).symm
    rw [hpreflight]
    exact Iff.rfl
  | @publish call device fresh hpreflight hpassed hmutex =>
    have hconnected := h.faithful call
    rw [hpreflight] at hconnected
    have hmove : (s.move call (.installing device fresh)).Sound requests := by
      refine h.move ?_ (fun _ => hpassed) ⟨hconnected, hpassed⟩
      rw [hpreflight]
      exact Iff.rfl
    refine ⟨hmove.gate, fun call' hcall' => ?_, fun call' update hforwarding => ?_,
      hmove.faithful⟩
    · obtain rfl : call = call' := Option.some.inj hcall'
      exact (congrArg (Phase.Reporting (requests call)) (Function.update_self call _ s.calls)).mpr
        hpassed
    · exact absurd (hmutex.symm.trans hforwarding) nofun
  | @leave call device fresh hinstalling =>
    have hfaithful := h.faithful call
    rw [hinstalling] at hfaithful
    refine h.move ?_ (fun _ => ⟨device, fresh, hfaithful.2⟩)
      (Request.result_of_preflight hfaithful.1 hfaithful.2).symm
    rw [hinstalling]
    exact Iff.rfl
  | @clear call result hleaving hmutex =>
    have hfaithful := h.faithful call
    rw [hleaving] at hfaithful
    have hnull : ({ s with progressSink := none } : InstallGate).Sound requests :=
      ⟨h.gate, nofun,
        fun call' update hforwarding => absurd (hmutex.symm.trans hforwarding) nofun, h.faithful⟩
    refine hnull.move ?_ nofun hfaithful
    change _ ↔ (s.calls call).Claimed
    rw [hleaving]
    exact Iff.rfl
  | release hcleared => exact h.release hcleared
  | @forward call signal hmutex hinterface hsink hreports =>
    refine ⟨h.gate, h.sink, fun call' update hforwarding => ?_, h.faithful⟩
    cases hforwarding
    exact hsink
  | forwarded hforwarding => exact ⟨h.gate, h.sink, nofun, h.faithful⟩

theorem sound_run (h : ReflTransGen (Step requests) idle s) : s.Sound requests := by
  induction h with
  | refl => exact sound_idle
  | tail _ hstep ih => exact ih.step hstep

/-- At most one call holds the gate, a reporter is invoked only where its call has passed the
preflight and cannot return yet, and the gate is never open with a reporter published. Every call
returns what `install` returns. -/
theorem progress_gated (h : ReflTransGen (Step requests) idle s) :
    (∀ call call', (s.calls call).Claimed → (s.calls call').Claimed → call = call') ∧
      (∀ call update, s.forwarding = some (call, update) →
        (s.calls call).Reporting (requests call) ∧ s.installing = true) ∧
      (s.installing = false → s.progressSink = none) ∧
      (∀ call result, s.calls call = .cleared result → s.progressSink = none) ∧
      ∀ call result, s.calls call = .returned result →
        s.progressSink ≠ some call ∧
        ∃ installing, result = (requests call).result installing := by
  have hsound := sound_run h
  have hreporting : ∀ call, s.progressSink = some call →
      (s.calls call).Reporting (requests call) ∧ s.installing = true :=
    fun call hsink =>
      ⟨hsound.sink call hsink, hsound.gate.taken_of (hsound.sink call hsink).claimed⟩
  refine ⟨hsound.gate.alone,
    fun call update hforwarding => hreporting call (hsound.forwarding call update hforwarding),
    fun hopen => ?_, fun call result hcleared => ?_, fun call result hreturned =>
      ⟨fun hsink => ?_, ?_⟩⟩
  · cases hsink : s.progressSink with
    | none => rfl
    | some call => exact absurd (hopen.symm.trans (hreporting call hsink).2) nofun
  · cases hsink : s.progressSink with
    | none => rfl
    | some call' =>
      obtain ⟨hcall', -⟩ := hreporting call' hsink
      have hcall : (s.calls call).Claimed := by
        rw [hcleared]
        trivial
      rw [hsound.gate.alone call' call hcall'.claimed hcall, hcleared] at hcall'
      exact hcall'.elim
  · have hcall := (hreporting call hsink).1
    rw [hreturned] at hcall
    exact hcall
  · have hfaithful := hsound.faithful call
    rw [hreturned] at hfaithful
    exact hfaithful

def silentRequest : Request :=
  ⟨true, oneFile, { failedReplies with install := fun _ => none }, str "a1",
    ⟨str "r", str "c"⟩, true⟩

def flashing : Signal :=
  ⟨kInterface,
    .ofList [(str "Percentage", Variant.uint32 40), (str "Status", Variant.uint32 5)]⟩

theorem late_signal_forwarded :
    ∃ s : InstallGate, s.forwarding = some (0, ⟨40, str "device-write"⟩) ∧
    (∃ result, s.calls 0 = .leaving result) ∧ s.installing = true := by
  obtain ⟨⟨device, fresh⟩, hpassed⟩ : ∃ answer, silentRequest.preflight = .ok
    (.ok answer) := ⟨_, rfl⟩
  have hrun : ReflTransGen (Step fun _ => silentRequest) idle _ :=
    .head (@.claim _ _ 0 rfl rfl rfl) (.head (@.publish _ _ 0 _ _ rfl hpassed rfl)
      (.head (@.leave _ _ 0 _ _ rfl) (.single (@.forward _ _ 0 flashing rfl rfl rfl rfl))))
  exact ⟨_, rfl, ⟨_, rfl⟩, ((progress_gated hrun).2.1 0 _ rfl).2⟩

end InstallGate

end DevMgr.Linux.Fwupd
