import DevMgr.Daemon.Bench
import DevMgr.Daemon.RequestProcessor

/-!
# The two threads of the daemon

The thread that serves the bus and the hotplug monitor take turns at every
operation. Both ask the guard, and hotplug looks its entry up, before they take
the apply mutex. What they learn may no longer hold when they write; it does as
long as no step in between takes it away.
-/

open DevMgr.Core

namespace DevMgr.Daemon
open Bytes Program

variable {W : Type} (J : Json.Codec) (P : Platform W) (sysfsRoot : Str)

/-- The programs a thread of the daemon runs, the startup sweep included. -/
def Runs : Thread → Prog daemon Unit → Prop
  | .bus, p => p = sweep ∨ ∃ request, p = serve sysfsRoot request
  | .monitor, p => ∃ event, p = onHotplug event

abbrev step : Config daemon Thread (State W) → Action daemon Thread (State W) →
    Option (Config daemon Thread (State W)) := take (handle J P)

def Op.Disables : Op → Str → Prop
  | .setEnabled _ path false _, target => target = path
  | .unbindDriver path, target => target = path
  | _, _ => False

def Op.isProbe : Op → Bool
  | .probe => true
  | _ => false

def probedAllowed : (o : Op) → o.Ret → Str → Prop
  | .probe, .ok facts, path => (evaluateDisable facts path).allowed = true
  | _, _, _ => False

/-- The step leaves the guard's verdict for every device some thread is about to disable. -/
def KeepsVerdicts : Config daemon Thread (State W) → Action daemon Thread (State W) →
    Config daemon Thread (State W) → Prop :=
  KeepsStep (fun _ => Op.Disables) Op.isProbe (Allowed P) (Runs sysfsRoot)

structure TakesOnly (target : Str) (before after : CriticalityFacts) : Prop where
  keyboard : ∀ p ∈ before.keyboardPaths, ¬ AtOrUnder p target → p ∈ after.keyboardPaths
  pointer : ∀ p ∈ before.pointerPaths, ¬ AtOrUnder p target → p ∈ after.pointerPaths

structure InputLeft (before after : CriticalityFacts) : Prop where
  keyboard : before.keyboardPaths ≠ [] → after.keyboardPaths ≠ []
  pointer : before.pointerPaths ≠ [] → after.pointerPaths ≠ []

/-- A disabling write takes keyboards and pointers at or under its target only, and no other step
takes the last one. -/
structure TakesItsOwn (c : Config daemon Thread (State W)) (a : Action daemon Thread (State W))
    (c' : Config daemon Thread (State W)) : Prop where
  writes : ∀ {t : Thread} {o : Op} {k : o.Ret → Prog daemon Unit} {target : Str},
      a = .step t →
    c.rest t = .op o k → o.Disables target →
      TakesOnly target (P.facts c.shared.world) (P.facts c'.shared.world)
  others :
      (∀ {t : Thread} {o : Op} {k : o.Ret → Prog daemon Unit} {target : Str}, a = .step t →
    c.rest t = .op o k → ¬ o.Disables target) →
      InputLeft (P.facts c.shared.world) (P.facts c'.shared.world)

theorem InputLeft.refl (facts : CriticalityFacts) : InputLeft facts facts := ⟨id, id⟩

theorem InputLeft.trans {facts facts' facts'' : CriticalityFacts} (h : InputLeft facts facts')
    (h' : InputLeft facts' facts'') : InputLeft facts facts'' :=
  ⟨fun hne => h'.keyboard (h.keyboard hne), fun hne => h'.pointer (h.pointer hne)⟩

theorem TakesOnly.inputLeft {before after : CriticalityFacts} {target : Str}
    (htakes : TakesOnly target before after) (h : Harmless before target) :
    InputLeft before after := by
  constructor
  · intro hne
    obtain ⟨p, hp, houtside⟩ := h.keyboard hne
    exact List.ne_nil_of_mem (htakes.keyboard p hp houtside)
  · intro hne
    obtain ⟨p, hp, houtside⟩ := h.pointer hne
    exact List.ne_nil_of_mem (htakes.pointer p hp houtside)

section Guarded
variable {α β : Type} {t : Thread}

def Guarded (t : Thread) (p : Prog daemon α) (given : Str → Prop) : Prop :=
  Backed (S := daemon) (fun _ => Op.Disables) Op.isProbe probedAllowed t p (fun _ _ => True) given

def Idle (o : Op) : Prop := ∀ target, ¬ o.Disables target

def Aims (target : Str) (o : Op) : Prop := o.isProbe = false ∧
    ∀ path, o.Disables path → path = target

theorem idle_of_sees {o : Op} (h : o.Sees) : Idle o := by
  cases o <;> first | exact h.elim | exact fun _ => id

theorem aims_of_sees {target : Str} {o : Op} (h : o.Sees) : Aims target o := by
  cases o <;> first | exact h.elim | exact ⟨rfl, fun _ => False.elim⟩

theorem guarded_idle {p : Prog daemon α} (h : Only Idle p) (given : Str → Prop) :
    Guarded t p given := backed_idle _ _ _ h

theorem guarded_aims {p : Prog daemon α} {target : Str} {given : Str → Prop}
    (h : Only (Aims target) p) (hgiven : given target) : Guarded t p given := by
  have hback : Backed (S := daemon) (fun _ => Op.Disables) Op.isProbe probedAllowed t p
      (fun _ E => E = given) given :=
    backed_only _ _ _ (h.mono fun o ho => ⟨ho.1, fun path hpath => ho.2 path hpath ▸ hgiven⟩)
  exact hback.mono fun _ _ _ => trivial

theorem guarded_bind {p : Prog daemon α} {f : α → Prog daemon β} {given : Str → Prop}
    (hp : Guarded t p given) (hf : ∀ a given, Guarded t (f a) given) :
    Guarded t (p >>= f) given :=
  wp_bind.mpr (hp.mono fun a given _ => hf a given)

theorem guarded_step {x : Verb α} {f : α → Verb β} (hx : Only Idle x.run)
    (hf : ∀ a given, Guarded t (f a).run given) (given : Str → Prop) :
    Guarded t (x >>= f).run given := by
  rw [ExceptT.run_bind]
  refine guarded_bind (guarded_idle hx given) fun r given => ?_
  cases r with
  | ok a => exact hf a given
  | error e => exact guarded_idle (only_pure _) given

theorem guarded_guardDisable {target : Str} {rest : Unit → Verb β}
    (hrest : Only (Aims target) (rest ()).run) (given : Str → Prop) :
    Guarded t (guardDisable target >>= rest).run given := by
  refine wp_step.mpr (wp_step.mpr (wp_probe.mpr ⟨fun _ => False.elim, fun result => ?_⟩))
  cases result with
  | error error => trivial
  | ok facts =>
    by_cases hallowed : (evaluateDisable facts target).allowed = true
    · dsimp only
      rw [if_neg (not_not.mpr hallowed)]
      exact guarded_aims (t := t) hrest hallowed
    · dsimp only
      rw [if_pos hallowed]
      trivial

theorem idle_setGuardSuspended {key : DeviceKey} {suspended : Bool} :
    Only Idle (setGuardSuspended key suspended).run := only_setGuardSuspended fun _ => id

theorem aims_write {target : Str} (behalf : Option Enforced) (hint : Str) :
    Aims target (.setEnabled behalf target false hint) := ⟨rfl, fun _ => id⟩

theorem guarded_behindGuard {entry : DisabledDeviceEntry} {device : Device} {done : α}
    {failed : Error → α} {refused : GuardVerdict → Prog daemon α} {write : Prog daemon α}
    (hrefused : ∀ verdict, Only Idle (refused verdict))
    (hwrite : Only (Aims device.sysfsPath) write)
    (given : Str → Prop) : Guarded t (behindGuard entry device done failed refused write) given :=
  wp_behindGuard (fun _ => trivial) (fun _ => False.elim) (fun _ => trivial)
    (fun _ _ => guarded_idle (t := t) (hrefused _) _)
    fun _ hallowed => guarded_aims (t := t) hwrite hallowed

theorem guarded_maybeReapply (entry : DisabledDeviceEntry) (device : Device) (given : Str → Prop) :
    Guarded t (maybeReapply entry device) given := by
  rw [maybeReapply_eq]
  refine guarded_behindGuard
    (fun _ => only_bind idle_setGuardSuspended fun _ => only_pure _) ?_ given
  exact only_locked ⟨rfl, fun _ => False.elim⟩ ⟨rfl, fun _ => False.elim⟩
    (only_reapplyLocked (aims_write _ _) ⟨rfl, fun _ => False.elim⟩
      ⟨rfl, fun _ => False.elim⟩)

theorem guarded_reApplyOne (entry : DisabledDeviceEntry) (device : Device) (given : Str → Prop) :
    Guarded t (reApplyOne entry device) given := by
  rw [reApplyOne_eq]
  exact guarded_behindGuard (fun _ => only_reApplyRefused fun _ => id)
    (only_reApplyWrite (aims_write _ _) ⟨rfl, fun _ => False.elim⟩
      ⟨rfl, fun _ => False.elim⟩) given

theorem guarded_found {all : List Device} {entry : DisabledDeviceEntry}
    {f : Option Device → Prog daemon α} (hf : ∀ found given, Guarded t (f found) given)
    (given : Str → Prop) : Guarded t (locate all entry >>= f) given :=
  guarded_bind (guarded_idle ((sees_locate all entry).mono fun _ => idle_of_sees) given) hf

theorem guarded_sweep (given : Str → Prop) : Guarded t sweep given := by
  refine guarded_bind (guarded_idle (sees_enumerated.mono fun _ => idle_of_sees) given)
    fun all given => ?_
  refine guarded_bind (guarded_idle (only_call.mpr fun _ => id) given) fun entries given => ?_
  refine backed_forEach _ _ _ (fun entry => guarded_found fun found given => ?_) entries given
  cases found with
  | none => trivial
  | some device => exact guarded_maybeReapply entry device given

theorem guarded_reApplyRestored (given : Str → Prop) : Guarded t reApplyRestored given := by
  refine guarded_bind (guarded_idle (sees_enumerated.mono fun _ => idle_of_sees) given)
    fun all given => ?_
  refine guarded_bind (guarded_idle (only_call.mpr fun _ => id) given) fun entries given => ?_
  refine backed_collect _ _ _ (fun entry => guarded_found fun found given => ?_) entries given
  cases found with
  | none => trivial
  | some device =>
    exact guarded_bind (guarded_reApplyOne entry device given) fun _ given =>
      guarded_idle (only_pure _) given

theorem guarded_onHotplug (event : HotplugEvent) (given : Str → Prop) :
    Guarded t (onHotplug event) given := by
  unfold onHotplug
  split_ifs
  · trivial
  · refine guarded_bind (guarded_idle (only_call.mpr fun _ => id) given) fun found given => ?_
    cases found with
    | none => trivial
    | some entry => exact guarded_maybeReapply entry event.device given

theorem idle_validate (result : Result Unit) : Only Idle (validate result).run := only_validate _

theorem idle_canonicalContained (sysfsPath : Str) :
    Only Idle (canonicalContained sysfsRoot sysfsPath).run :=
  (sees_canonicalContained sysfsPath).mono fun _ => idle_of_sees

theorem idle_authorize (caller action : Str) : Only Idle (authorize caller action).run :=
  only_authorize fun _ => id

theorem aims_actLocked {verb : String} {target : Str} {action : Verb Unit}
    (haction : Only (Aims target) action.run) : Only (Aims target)
      (actLocked verb target action).run :=
  only_actLocked ⟨rfl, fun _ => False.elim⟩ ⟨rfl, fun _ => False.elim⟩
    (fun _ => aims_of_sees)
    (fun _ _ => ⟨rfl, fun _ => False.elim⟩) haction

theorem idle_actLocked {verb : String} {subject : Str} {action : Verb Unit}
    (haction : Only Idle action.run) : Only Idle (actLocked verb subject action).run :=
  only_actLocked (fun _ => id) (fun _ => id) (fun _ => idle_of_sees) (fun _ _ _ => id) haction

variable {sysfsRoot}

theorem guarded_setDeviceEnabled (caller sysfsPath : Str) (enabled : Bool) (given : Str → Prop) :
    Guarded t (setDeviceEnabled sysfsRoot caller sysfsPath enabled).run given := by
  refine guarded_step (idle_validate _) (fun _ => guarded_step (idle_validate _) fun _ =>
    guarded_step (idle_canonicalContained sysfsRoot sysfsPath) fun canonical given => ?_) given
  cases enabled with
  | false =>
    refine guarded_guardDisable (only_step ?_ fun _ => aims_actLocked ?_) given
    · exact only_authorize ⟨rfl, fun _ => False.elim⟩
    · exact only_applyDisable (fun _ => aims_of_sees) (aims_write _ _) fun _ =>
        ⟨rfl, fun _ => False.elim⟩
  | true =>
    refine guarded_idle (only_step (idle_authorize _ _) fun _ => idle_actLocked ?_) given
    exact only_applyEnable (fun _ => idle_of_sees) (fun _ _ => id) fun _ _ => id

theorem guarded_unbindDriver (caller sysfsPath : Str) (given : Str → Prop) :
    Guarded t (unbindDriver sysfsRoot caller sysfsPath).run given := by
  refine guarded_step (idle_validate _) (fun _ => guarded_step (idle_validate _) fun _ =>
    guarded_step (idle_canonicalContained sysfsRoot sysfsPath) fun canonical given => ?_) given
  refine guarded_guardDisable (only_step ?_ fun _ => aims_actLocked ?_) given
  · exact only_authorize ⟨rfl, fun _ => False.elim⟩
  · exact only_call.mpr ⟨rfl, fun _ => id⟩

theorem guarded_restore (id : Str) (given : Str → Prop) : Guarded t (restore id).run given := by
  refine guarded_step (only_call.mpr fun _ => False.elim) (fun snap => ?_) given
  refine guarded_step (only_lift (sees_capturePayload.mono fun _ => idle_of_sees)) fun pre => ?_
  refine guarded_step (only_storePut (fun _ => False.elim) fun _ _ => False.elim) fun safety => ?_
  refine guarded_step (only_bind (only_call.mpr ?_) fun _ => only_orRaise _) fun _ => ?_
  · exact fun _ => False.elim
  refine guarded_step (only_lift (only_writeBackModprobe ?_ ?_)) fun files => ?_
  · exact fun _ _ => False.elim
  · exact fun _ _ _ => False.elim
  refine guarded_step (only_lift (only_reEnableRemoved ?_ ?_)) fun enabled given => ?_
  · exact fun _ => idle_of_sees
  · exact fun _ _ _ => False.elim
  exact wp_step.mpr
    (wp_lift.mpr ((guarded_reApplyRestored (t := t) given).mono fun _ _ _ => trivial))

theorem idle_create {trigger : SnapshotTrigger} {reason : SnapshotReason} :
    Only Idle (create trigger reason).run :=
  only_create (fun _ => idle_of_sees) fun _ _ _ => id

theorem idle_locked {body : Prog daemon α} (h : Only Idle body) : Only Idle (locked body) :=
  only_locked (fun _ => id) (fun _ => id) h

theorem idle_guardModuleUnload (name : Str) : Only Idle (guardModuleUnload name).run := by
  refine only_step (only_call.mpr fun _ => id) fun loaded => ?_
  cases loaded.find? fun m => m.name = name with
  | none => exact only_throw _
  | some mod =>
    refine only_step (only_call.mpr fun _ => id) fun affected => ?_
    refine only_step (only_call.mpr fun _ => id) fun facts => ?_
    dsimp only
    split_ifs
    · exact only_done _
    · exact only_throw _

theorem idle_diffPayloads (baseId targetId : Str) :
    Only Idle (diffPayloads baseId targetId).run := by
  refine only_step (only_call.mpr fun _ => id) fun base => ?_
  split_ifs
  · exact only_step (only_lift (sees_capturePayload.mono fun _ => idle_of_sees)) fun _ =>
      only_done _
  · exact only_step (only_call.mpr fun _ => id) fun _ => only_done _

theorem idle_snapshotDiff (baseId targetId : Str) :
    Only Idle (snapshotDiff baseId targetId).run := by
  refine only_step (idle_validate _) fun _ => ?_
  split_ifs
  · exact idle_locked (idle_diffPayloads _ _)
  · exact only_step (idle_validate _) fun _ => idle_diffPayloads _ _

theorem guarded_discard {p : Prog daemon α} {given : Str → Prop} (hp : Guarded t p given) :
    Guarded t (discard p) given := guarded_bind hp fun _ given => guarded_idle (only_pure _) given

theorem guarded_serve (request : Request) (given : Str → Prop) :
    Guarded t (serve sysfsRoot request) given := by
  cases request with
  | setDeviceEnabled caller sysfsPath enabled =>
    exact guarded_discard (guarded_setDeviceEnabled caller sysfsPath enabled given)
  | unbindDriver caller sysfsPath =>
    exact guarded_discard (guarded_unbindDriver caller sysfsPath given)
  | snapshotRestore caller id =>
    refine guarded_discard (guarded_step (idle_validate _) (fun _ => ?_) given)
    refine guarded_step (idle_validate _) fun _ =>
      guarded_step (idle_authorize _ _) fun _ given => ?_
    refine guarded_bind (guarded_idle (only_call.mpr ?_) given) fun _ given => ?_
    · exact fun _ => False.elim
    · exact wp_ending (fun _ _ => False.elim)
        ((guarded_restore (t := t) id given).mono fun _ _ _ _ => trivial)
  | bindDriver caller sysfsPath driverName =>
    refine guarded_discard (guarded_idle (only_step (idle_validate _) fun _ => ?_) given)
    refine only_step (idle_validate _) fun _ => only_step (idle_validate _) fun _ => ?_
    refine only_step (idle_canonicalContained sysfsRoot sysfsPath) fun _ => ?_
    exact only_step (idle_authorize _ _) fun _ => idle_actLocked (only_call.mpr fun _ => id)
  | listDisabledDevices => exact guarded_discard (guarded_idle (only_call.mpr fun _ => id) given)
  | loadModule caller name =>
    refine guarded_discard (guarded_idle (only_step (idle_validate _) fun _ => ?_) given)
    refine only_step (idle_validate _) fun _ => only_step (idle_authorize _ _) fun _ => ?_
    exact idle_actLocked (only_call.mpr fun _ => id)
  | unloadModule caller name =>
    refine guarded_discard (guarded_idle (only_step (idle_validate _) fun _ => ?_) given)
    refine only_step (idle_validate _) fun _ => only_step (idle_guardModuleUnload name) fun _ => ?_
    exact only_step (idle_authorize _ _) fun _ => idle_actLocked (only_call.mpr fun _ => id)
  | snapshotList => exact guarded_discard (guarded_idle (only_call.mpr fun _ => id) given)
  | snapshotDiff baseId targetId =>
    exact guarded_discard (guarded_idle (idle_snapshotDiff baseId targetId) given)
  | snapshotCreate caller label =>
    refine guarded_discard (guarded_idle (only_step (idle_validate _) fun _ => ?_) given)
    refine only_step (idle_validate _) fun _ => only_step (idle_authorize _ _) fun _ => ?_
    exact idle_locked idle_create
  | snapshotDelete caller id =>
    refine guarded_discard (guarded_idle (only_step (idle_validate _) fun _ => ?_) given)
    refine only_step (idle_validate _) fun _ => only_step (idle_authorize _ _) fun _ => ?_
    exact idle_locked (only_call.mpr fun _ => False.elim)

theorem guarded_runs {p : Prog daemon Unit} (h : Runs sysfsRoot t p) :
    Guarded t p fun _ => False := by
  cases t with
  | bus =>
    rcases h with rfl | ⟨request, rfl⟩
    · exact guarded_sweep _
    · exact guarded_serve request _
  | monitor =>
    obtain ⟨event, rfl⟩ := h
    exact guarded_onHotplug event _

end Guarded

theorem probed_sound (t : Thread) (o : Op) (s : State W) (r : o.Ret) (s' : State W)
    (hchecks : o.isProbe = true) (hhandle : handle J P t o s = some (r, s')) (target : Str)
    (hallowed : probedAllowed o r target) : Allowed P s' target := by
  cases o with
  | probe =>
    obtain ⟨rfl, rfl⟩ : P.probe s.world = r ∧ s = s' := by
      simpa [handle, respond] using hhandle
    unfold Platform.probe at hallowed
    cases hprobed : P.probeError s.world with
    | none =>
      rw [hprobed] at hallowed
      exact hallowed
    | some error =>
      rw [hprobed] at hallowed
      exact hallowed.elim
  | _ => exact absurd hchecks (by simp [Op.isProbe])

section Runs
variable {J P sysfsRoot} {s : State W} {c : Config daemon Thread (State W)}
  {actions : List (Action daemon Thread (State W))}

theorem inputs_stay (hrun : Run.runSome (step J P) (.initial s) actions = some c)
    (hmeets : Run.MeetsSome (step J P) (KeepsVerdicts P sysfsRoot) (.initial s) actions)
    (htakes : Run.MeetsSome (step J P) (TakesItsOwn P) (.initial s) actions) :
    InputLeft (P.facts s.world) (P.facts c.shared.world) := by
  let I (c : Config daemon Thread (State W)) : Prop :=
    Justified (fun _ => Op.Disables) Op.isProbe probedAllowed (Allowed P) c ∧
      InputLeft (P.facts s.world) (P.facts c.shared.world)
  have hstep : ∀ c a c', I c → step J P c a = some c' →
      KeepsVerdicts P sysfsRoot c a c' ∧ TakesItsOwn P c a c' → I c' := by
    rintro c a c' ⟨hjustified, hleft⟩ htake ⟨hkeeps, htakes⟩
    refine ⟨justified_step (probed_sound J P)
      (fun _ _ h => guarded_runs h) hjustified htake hkeeps,
      hleft.trans ?_⟩
    by_cases hwrite : ∃ (t : Thread) (o : Op) (k : o.Ret → Prog daemon Unit) (target : Str),
        a = .step t ∧ c.rest t = .op o k ∧ o.Disables target
    · obtain ⟨t, o, k, target, ha, hnext, hdisables⟩ := hwrite
      have hallowed : Allowed P c.shared target :=
        hjustified.pending t target (by rw [hnext]; exact .inl hdisables)
      exact (htakes.writes ha hnext hdisables).inputLeft (evaluateDisable_allowed.mp hallowed)
    · exact htakes.others fun ha hnext hdisables => hwrite ⟨_, _, _, _, ha, hnext, hdisables⟩
  exact (Run.runSome_invariant (step J P) hstep ⟨justified_initial s, .refl _⟩ hrun
    (Run.meetsSome_and _ hmeets htakes)).2

/-- Whenever a thread is about to disable a device or to take its driver away, the guard would allow
it now; and so no sequence of such writes takes the last keyboard or the last pointer. -/
theorem guard_allows_write (hrun : Run.runSome (step J P) (.initial s) actions = some c)
    (hmeets : Run.MeetsSome (step J P) (KeepsVerdicts P sysfsRoot) (.initial s) actions) :
    (∀ (t : Thread) (o : Op) (k : o.Ret → Prog daemon Unit) (target : Str),
      c.rest t = .op o k →
      o.Disables target → Allowed P c.shared target) ∧
    (Run.MeetsSome (step J P) (TakesItsOwn P) (.initial s) actions →
      InputLeft (P.facts s.world) (P.facts c.shared.world)) :=
  ⟨fun _ _ _ _ hnext hdisables => act_holds (S := daemon) (probed_sound J P)
    (fun _ _ h => guarded_runs h) hrun hmeets hnext hdisables, inputs_stay hrun hmeets⟩

theorem keepsPending_of_facts {c c' : Config daemon Thread (State W)}
    (h : P.facts c'.shared.world = P.facts c.shared.world) :
    KeepsPending (fun _ => Op.Disables) Op.isProbe (Allowed P) c c' := fun _ _ _ _ hallowed => by
  unfold Allowed
  rwa [h]

theorem takesItsOwn_of_facts {c c' : Config daemon Thread (State W)}
    {a : Action daemon Thread (State W)}
    (h : P.facts c'.shared.world = P.facts c.shared.world) : TakesItsOwn P c a c' := by
  constructor
  · intro t o k target _ _ _
    exact ⟨fun p hp _ => h ▸ hp, fun p hp _ => h ▸ hp⟩
  · exact fun _ => h ▸ .refl _

end Runs

section Enabling
open Bench

def reapplying : List (Action daemon Thread (State Bench)) :=
  [.start .monitor (onHotplug ⟨.added, keyboard "1-4"⟩), .step .monitor, .step .monitor,
    .start .bus (serve (str "/sys")
      (.setDeviceEnabled (str ":1.9") (keyboard "1-3").sysfsPath true))] ++
  List.replicate 20 (.step .bus) ++ [.step .monitor]

theorem reapplying_starts :
    ∀ a ∈ reapplying, ∀ t p, a = .start t p → Runs (str "/sys") t p := by
  intro a ha t p heq
  subst heq
  simp only [reapplying, List.mem_append, List.mem_cons, List.mem_replicate, List.not_mem_nil,
    reduceCtorEq, and_false, or_false, false_or, Action.start.injEq] at ha
  rcases ha with ⟨rfl, rfl⟩ | ⟨rfl, rfl⟩
  · exact ⟨_, rfl⟩
  · exact .inr ⟨_, rfl⟩

def quiet (c : Config daemon Thread (State Bench)) (_a : Action daemon Thread (State Bench))
    (c' : Config daemon Thread (State Bench)) : Bool :=
  platform.facts c'.shared.world = platform.facts c.shared.world ∧
    c'.shared.entries = c.shared.entries

theorem reapplying_quiet : Run.MeetsSome (step Json.reference platform)
    (fun c a c' => (∀ t p, a = .start t p → Runs (str "/sys") t p) ∧ quiet c a c' = true)
    (.initial (idle twoKeyboards [keyboardEntry "1-4"])) reapplying :=
  Run.meetsSome_and _ (Run.meetsSome_of_forall _ reapplying_starts)
    (Run.meetsSome_of_passes _ (fun _ _ _ => id) (by decide +kernel))

theorem reapplying_run : ∃ c k,
    Run.runSome (step Json.reference platform)
      (.initial (idle twoKeyboards [keyboardEntry "1-4"])) reapplying = some c ∧
    c.rest .monitor = .op (.setEnabled (some ⟨keyboardEntry "1-4", keyboard "1-4"⟩)
      (keyboard "1-4").sysfsPath false []) k ∧ ∃ c' k', step Json.reference platform c
        (.step .monitor) = some c' ∧ (c'.rest .bus).ended = true ∧
      c'.rest .monitor = .op .unlock k' ∧ (k' ()).ended = true ∧
      (platform.facts c.shared.world).keyboardPaths =
        [(keyboard "1-3").sysfsPath, (keyboard "1-4").sysfsPath] ∧
      (platform.facts c.shared.world).pointerPaths = [] ∧
      (platform.facts c'.shared.world).keyboardPaths = [(keyboard "1-3").sysfsPath] :=
  ⟨_, _, rfl, rfl, _, _, rfl, rfl, rfl, rfl, rfl, rfl, rfl⟩

theorem not_pending_of_ended {S : Interface} {α τ : Type} {acts : Thread → S.Op → τ → Prop}
    {checks : S.Op → Bool} {t : Thread} {x : τ} {p : Prog S α} (h : p.ended = true) :
    ¬ Pending acts checks t x p := by
  cases p with
  | op o k => exact absurd h (by simp [Prog.ended])
  | pure a => exact id
  | raise => exact id

theorem guard_allows_write_hotplug : ∃ c k c',
    Run.runSome (step Json.reference platform)
      (.initial (idle twoKeyboards [keyboardEntry "1-4"])) reapplying = some c ∧
    c.rest .monitor = .op (.setEnabled (some ⟨keyboardEntry "1-4", keyboard "1-4"⟩)
      (keyboard "1-4").sysfsPath false []) k ∧
    Allowed platform c.shared (keyboard "1-4").sysfsPath ∧
    step Json.reference platform c (.step .monitor) = some c' ∧
    InputLeft (platform.facts twoKeyboards) (platform.facts c'.shared.world) := by
  obtain ⟨c, k, hrun, hnext, c', k', hwrite, hbus, hmonitor, hended, hbefore, hnone, hafter⟩ :=
    reapplying_run
  have hkeeps := reapplying_quiet.mono _ (D := KeepsVerdicts platform (str "/sys"))
    fun c a c' h => ⟨h.1, keepsPending_of_facts (of_decide_eq_true h.2).1⟩
  have htakes := reapplying_quiet.mono _ (D := TakesItsOwn platform)
    fun c a c' h => takesItsOwn_of_facts (of_decide_eq_true h.2).1
  have hlast : KeepsVerdicts platform (str "/sys") c (.step .monitor) c' := by
    refine ⟨nofun, fun t x _ hpending _ => absurd hpending ?_⟩
    cases t with
    | bus => exact not_pending_of_ended hbus
    | monitor =>
      rw [hmonitor]
      rintro (hacts | ⟨_, r, hlater⟩)
      · exact hacts
      · exact not_pending_of_ended hended hlater
  have hown : TakesItsOwn platform c (.step .monitor) c' := by
    constructor
    · intro t o k₁ target ha hop hdisables
      obtain rfl : Thread.monitor = t := by simpa using ha
      obtain ⟨rfl, _⟩ := Prog.op.inj (hnext.symm.trans hop)
      obtain rfl : target = (keyboard "1-4").sysfsPath := hdisables
      constructor
      · rw [hbefore, hafter]
        decide
      · rw [hnone]
        exact nofun
    · exact fun hidle => absurd rfl (hidle rfl hnext)
  have hboth : Run.runSome (step Json.reference platform)
      (.initial (idle twoKeyboards [keyboardEntry "1-4"])) (reapplying ++ [.step .monitor]) =
        some c' :=
    Run.runSome_append _ hrun ((Run.runSome_cons _).mpr ⟨c', hwrite, rfl⟩)
  refine ⟨c, k, c', hrun, hnext, (guard_allows_write hrun hkeeps).1 _ _ _ _ hnext rfl,
    hwrite, ?_⟩
  exact (guard_allows_write hboth
    (Run.meetsSome_append _ hkeeps hrun (Run.meetsSome_cons _ hwrite hlast trivial))).2
    (Run.meetsSome_append _ htakes hrun (Run.meetsSome_cons _ hwrite hown trivial))

end Enabling

def overtaking : List (Action daemon Thread (State Bench)) :=
  [.start .bus (serve (str "/sys")
      (.setDeviceEnabled (str ":1.9") (Bench.keyboard "1-3").sysfsPath false)),
    .step .bus, .step .bus, .step .bus, .step .bus,
    .start .monitor (onHotplug ⟨.added, Bench.keyboard "1-4"⟩),
    .step .monitor, .step .monitor, .step .monitor, .step .monitor, .step .monitor,
    .step .bus, .step .bus, .step .bus, .step .bus, .step .bus, .step .bus, .step .bus]

theorem guard_overtaken : ∃ c k,
    Run.runSome (step Json.reference Bench.platform)
      (.initial (Bench.idle Bench.twoKeyboards [Bench.keyboardEntry "1-4"])) overtaking = some c ∧
    c.rest .bus = .op (.setEnabled none (Bench.keyboard "1-3").sysfsPath false []) k ∧
    ¬ Allowed Bench.platform c.shared (Bench.keyboard "1-3").sysfsPath :=
  ⟨_, _, rfl, rfl, fun h => Bool.false_ne_true h⟩

def Op.Enforces : Thread → Op → DisabledDeviceEntry → Prop
  | .monitor, .setEnabled (some behalf) _ false _, entry => entry = behalf.entry
  | _, _, _ => False

def Op.isLookup : Op → Bool
  | .findFor _ => true
  | _ => false

def lookedUp : (o : Op) → o.Ret → DisabledDeviceEntry → Prop
  | .findFor _, some found, entry => entry = found
  | _, _, _ => False

def Recorded (s : State W) (entry : DisabledDeviceEntry) : Prop :=
  ∃ e ∈ s.entries, e.key = entry.key

/-- The step leaves a record of every entry hotplug is about to enforce. -/
def KeepsRecords : Config daemon Thread (State W) → Action daemon Thread (State W) →
    Config daemon Thread (State W) → Prop :=
  KeepsStep Op.Enforces Op.isLookup Recorded (Runs sysfsRoot)

def Backs (t : Thread) (p : Prog daemon Unit) (given : DisabledDeviceEntry → Prop) : Prop :=
  Backed (S := daemon) Op.Enforces Op.isLookup lookedUp t p (fun _ _ => True) given

def For (entry : DisabledDeviceEntry) (o : Op) : Prop :=
  o.isLookup = false ∧ ∀ e, Op.Enforces .monitor o e → e = entry

theorem for_maybeReapply (entry : DisabledDeviceEntry) (device : Device) :
    Only (For entry) (maybeReapply entry device) := by
  have hquiet : ∀ suspended, For entry (.setGuardSuspended entry.key suspended) :=
    fun _ => ⟨rfl, fun _ => False.elim⟩
  rw [maybeReapply_eq]
  refine only_behindGuard ⟨rfl, fun _ => False.elim⟩
    (fun _ => only_bind (only_setGuardSuspended (hquiet true)) fun _ => only_pure _) ?_
  exact only_locked ⟨rfl, fun _ => False.elim⟩ ⟨rfl, fun _ => False.elim⟩
    (only_reapplyLocked ⟨rfl, fun _ => id⟩ ⟨rfl, fun _ => False.elim⟩ (hquiet false))

theorem backs_runs {t : Thread} {p : Prog daemon Unit} (h : Runs sysfsRoot t p) :
    Backs t p fun _ => False := by
  cases t with
  | bus => exact backed_idle _ _ _ (only_all (fun _ _ => id) p)
  | monitor =>
    obtain ⟨event, rfl⟩ := h
    unfold onHotplug
    split_ifs
    · trivial
    · refine wp_bind.mpr (wp_call.mpr ⟨fun _ => False.elim, fun found => ?_⟩)
      cases found with
      | none => trivial
      | some entry =>
        have hback : Backed (S := daemon) Op.Enforces Op.isLookup lookedUp .monitor
            (maybeReapply entry event.device) (fun _ E => E = (· = entry)) (· = entry) :=
          backed_only _ _ _ (for_maybeReapply entry event.device)
        exact hback.mono fun _ _ _ => trivial

theorem lookedUp_sound (t : Thread) (o : Op) (s : State W) (r : o.Ret) (s' : State W)
    (hchecks : o.isLookup = true) (hhandle : handle J P t o s = some (r, s'))
    (entry : DisabledDeviceEntry) (hentry : lookedUp o r entry) : Recorded s' entry := by
  cases o with
  | findFor device =>
    obtain ⟨rfl, rfl⟩ : StateStore.findFor device s.entries = r ∧ s = s' := by
      simpa [handle, respond] using hhandle
    cases hfound : StateStore.findFor device s.entries with
    | none =>
      rw [hfound] at hentry
      exact hentry.elim
    | some found =>
      rw [hfound] at hentry
      obtain rfl := hentry
      exact ⟨entry, List.mem_of_find?_eq_some hfound, rfl⟩
  | _ => exact absurd hchecks (by simp [Op.isLookup])

section Runs
variable {J P sysfsRoot} {s : State W} {c : Config daemon Thread (State W)}
  {actions : List (Action daemon Thread (State W))}

/-- Whenever hotplug is about to disable a device, the store still has an entry with the key it
enforces. -/
theorem enforced_recorded (hrun : Run.runSome (step J P) (.initial s) actions = some c)
    (hmeets : Run.MeetsSome (step J P) (KeepsRecords sysfsRoot) (.initial s) actions)
    {b : Enforced} {path hint : Str} {k : Result (Option Str) → Prog daemon Unit}
    (hnext : c.rest .monitor = .op (.setEnabled (some b) path false hint) k) :
    Recorded c.shared b.entry :=
  act_holds (S := daemon) (lookedUp_sound J P)
    (fun _ _ h => backs_runs sysfsRoot h) hrun hmeets hnext
    rfl

theorem keepsPending_of_entries {c c' : Config daemon Thread (State W)}
    (h : c'.shared.entries = c.shared.entries) :
    KeepsPending Op.Enforces Op.isLookup Recorded c c' := fun _ _ _ _ hrecorded => by
  unfold Recorded
  rwa [h]

end Runs

theorem enforced_recorded_hotplug : ∃ c k,
    Run.runSome (step Json.reference Bench.platform)
      (.initial (Bench.idle Bench.twoKeyboards [Bench.keyboardEntry "1-4"])) reapplying = some c ∧
    c.rest .monitor = .op (.setEnabled (some ⟨Bench.keyboardEntry "1-4", Bench.keyboard "1-4"⟩)
      (Bench.keyboard "1-4").sysfsPath false []) k ∧
    Recorded c.shared (Bench.keyboardEntry "1-4") := by
  have hkeeps := reapplying_quiet.mono _ (D := KeepsRecords (str "/sys"))
    fun c a c' h => ⟨h.1, keepsPending_of_entries (of_decide_eq_true h.2).2⟩
  obtain ⟨c, k, hrun, hnext, _⟩ := reapplying_run
  exact ⟨c, k, hrun, hnext, enforced_recorded hrun hkeeps hnext⟩

def enforcing : Prog daemon Unit → Option Enforced
  | .op (.setEnabled (some behalf) _ false _) _ => some behalf
  | _ => none

theorem enforcing_next {p : Prog daemon Unit} {b : Enforced} (h : enforcing p = some b) :
    ∃ path hint k, p = .op (.setEnabled (some b) path false hint) k := by
  unfold enforcing at h
  split at h
  · exact ⟨_, _, _, by rw [Option.some.inj h]⟩
  · exact absurd h (by simp)

def reenabling : List (Action daemon Thread (State Bench)) :=
  [.start .monitor (onHotplug ⟨.added, Bench.keyboard "1-4"⟩), .step .monitor, .step .monitor,
    .start .bus (serve (str "/sys")
      (.setDeviceEnabled (str ":1.9") (Bench.keyboard "1-4").sysfsPath true))] ++
  List.replicate 21 (.step .bus) ++ [.step .monitor]

/-- The enable has completed and deleted the entry; hotplug is about to disable the device for
it. -/
theorem enforced_unrecorded : ∃ c b path hint k,
    Run.runSome (step Json.reference Bench.platform)
      (.initial (Bench.idle Bench.twoKeyboards [Bench.keyboardEntry "1-4"])) reenabling = some c ∧
    (c.rest .bus).ended = true ∧
    c.rest .monitor = .op (.setEnabled (some b) path false hint) k ∧
    ¬ Recorded c.shared b.entry := by
  have hcheck : ((Run.runSome (step Json.reference Bench.platform)
      (.initial (Bench.idle Bench.twoKeyboards [Bench.keyboardEntry "1-4"])) reenabling).any
      fun c =>
      (c.rest .bus).ended && (enforcing (c.rest .monitor)).isSome &&
      c.shared.entries.isEmpty) = true := by
    decide +kernel
  obtain ⟨c, hrun, hc⟩ := (Option.any_eq_true _ _).mp hcheck
  simp only [Bool.and_eq_true, Option.isSome_iff_exists, List.isEmpty_iff] at hc
  obtain ⟨⟨hended, b, hb⟩, hentries⟩ := hc
  obtain ⟨path, hint, k, hnext⟩ := enforcing_next hb
  refine ⟨c, b, path, hint, k, hrun, hended, hnext, ?_⟩
  rintro ⟨e, he, -⟩
  rw [hentries] at he
  exact absurd he (by simp)

end DevMgr.Daemon
