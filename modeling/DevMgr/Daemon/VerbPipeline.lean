import DevMgr.Daemon.RequestProcessor
import DevMgr.Library.History

/-!
# The order of the stages of a verb

What a verb has to have behind it before it asks the authority, and before it
writes to a device, a module or the state store. Everything is said about the
history of the verb: what it issued so far and what came back.
-/

open DevMgr.Core

namespace DevMgr.Daemon
open Bytes Program

abbrev Past := History daemon

def Told (h : Past) (o : Op) (r : o.Ret) : Prop := (⟨o, r⟩ : Event daemon) ∈ h

def Contained (sysfsRoot path canonical : Str) (h : Past) : Prop :=
  Told h (.weaklyCanonical path) (some canonical) ∧
  (∃ root, Told h (.weaklyCanonical sysfsRoot) (some root) ∧
    lexicallyRelative canonical root ≠ [] ∧
    ¬ str ".." <+: lexicallyRelative canonical root) ∧
  Told h (.isDirectory canonical) true

def GuardAllows (canonical : Str) (h : Past) : Prop :=
  ∃ facts, Told h .probe (.ok facts) ∧ (evaluateDisable facts canonical).allowed = true

def UnloadAllows (name : Str) (h : Past) : Prop :=
  ∃ loaded mod affected facts, Told h .listLoadedModules (.ok loaded) ∧
    loaded.find? (fun m : LoadedModule => m.name = name) = some mod ∧
    Told h (.devicesUsingModule name) (.ok affected) ∧ Told h .probe (.ok facts) ∧
    (evaluateModuleUnload facts ⟨affected, mod.holders, mod.refCount⟩).allowed = true

def Cleared (sysfsRoot : Str) : Request → Past → Prop
  | .setDeviceEnabled caller path enabled, h =>
    validation.caller caller = .ok () ∧ validation.sysfsPath path = .ok () ∧
    ∃ canonical, Contained sysfsRoot path canonical h ∧
    (enabled = false → GuardAllows canonical h)
  | .bindDriver caller path driverName, h =>
    validation.caller caller = .ok () ∧ validation.sysfsPath path = .ok () ∧
    validation.name driverName (str "driver") = .ok () ∧
    ∃ canonical, Contained sysfsRoot path canonical h
  | .unbindDriver caller path, h =>
    validation.caller caller = .ok () ∧ validation.sysfsPath path = .ok () ∧
    ∃ canonical, Contained sysfsRoot path canonical h ∧ GuardAllows canonical h
  | .loadModule caller name, _ =>
    validation.caller caller = .ok () ∧ validation.name name (str "module") = .ok ()
  | .unloadModule caller name, h =>
    validation.caller caller = .ok () ∧ validation.name name (str "module") = .ok () ∧
    UnloadAllows name h
  | .snapshotCreate caller label, _ =>
    validation.caller caller = .ok () ∧ validation.snapshotLabel label = .ok ()
  | .snapshotRestore caller id, _ | .snapshotDelete caller id, _ =>
    validation.caller caller = .ok () ∧ validation.snapshotId id = .ok ()
  | .listDisabledDevices, _ | .snapshotList, _ | .snapshotDiff .., _ => False

def Request.asks : Request → Option (Str × Str)
  | .setDeviceEnabled caller _ _ => some (caller, kActionSetDeviceEnabled)
  | .bindDriver caller _ _ | .unbindDriver caller _ => some (caller, kActionManageDrivers)
  | .loadModule caller _ | .unloadModule caller _ => some (caller, kActionManageModules)
  | .snapshotCreate caller _ | .snapshotRestore caller _ | .snapshotDelete caller _ =>
    some (caller, kActionManageSnapshots)
  | .listDisabledDevices | .snapshotList | .snapshotDiff .. => none

def Granted (request : Request) (h : Past) : Prop :=
  ∃ caller action, request.asks = some (caller, action) ∧
    Told h (.checkAuthorized caller action) (.ok true)

def Staged : Request → Past → Prop
  | .snapshotRestore _ id, h => ∃ snap, Told h (.readSnapshot id) (.ok snap)
  | _, _ => True

/-- The lock was taken and not given back, and a payload captured since has been stored. -/
def SavedUnderLock (h : Past) : Prop :=
  ∃ before earlier capture later payload trigger reason now id,
    h = before ++ ⟨.lock, ()⟩ :: (earlier ++ capture ++ ⟨.nowUtc, now⟩ ::
      ⟨.putSnapshot payload trigger reason now, some (.ok id)⟩ :: later) ∧
    Yields capturePayload capture payload ∧ ∀ e ∈ earlier ++ capture ++ later, e.1 ≠ .unlock

def Op.Writes : Op → Prop
  | .setEnabled .. | .bindDriver .. | .unbindDriver _ | .loadModule _ | .unloadModule _
  | .upsert _ | .remove _ | .replaceAll _ | .setGuardSuspended .. | .setLastSysfsPath .. => True
  | _ => False

def Request.MayWrite (sysfsRoot : Str) : Request → Past → Op → Prop
  | .setDeviceEnabled _ path enabled, h, o =>
      ∃ canonical, Contained sysfsRoot path canonical h ∧
    (enabled = false → GuardAllows canonical h) ∧
    match o with
    | .setEnabled none target on _ => target = canonical ∧ on = enabled
    | .upsert _ => enabled = false
    | .remove _ => enabled = true
    | _ => False
  | .bindDriver _ path driverName, h, o =>
    ∃ canonical, Contained sysfsRoot path canonical h ∧ o = .bindDriver canonical driverName
  | .unbindDriver _ path, h, o => ∃ canonical, Contained sysfsRoot path canonical h ∧
    GuardAllows canonical h ∧ o = .unbindDriver canonical
  | .loadModule _ name, _, o => o = .loadModule name
  | .unloadModule _ name, _, o => o = .unloadModule name
  | .snapshotRestore .., _, o =>
    match o with
    | .setEnabled .. | .replaceAll _ | .setGuardSuspended .. | .setLastSysfsPath .. => True
    | _ => False
  | _, _, _ => False

/-- What a request has behind it when it issues an operation. -/
def InOrder (sysfsRoot : Str) (request : Request) (o : Op) (h : Past) : Prop :=
  (∀ caller action, o = .checkAuthorized caller action →
    request.asks = some (caller, action) ∧ Cleared sysfsRoot request h) ∧
  (o.Writes → Cleared sysfsRoot request h ∧ Granted request h ∧ Staged request h ∧
    SavedUnderLock h ∧ request.MayWrite sysfsRoot h o)

section Grows
variable {sysfsRoot : Str} {request : Request} {h h' : Past} {o : Op} {r : o.Ret}

theorem told_record {o' : Op} {r' : o'.Ret} (ht : Told h o' r') :
    Told (record (S := daemon) o r h) o' r' :=
  List.mem_append_left _ ht

theorem told_last : Told (record (S := daemon) o r h) o r :=
  List.mem_append_right _ (List.mem_singleton.mpr rfl)

theorem Contained.mono {path canonical : Str} (hsub : h ⊆ h')
    (hc : Contained sysfsRoot path canonical h) : Contained sysfsRoot path canonical h' := by
  obtain ⟨hpath, ⟨root, hroot, hrel⟩, hdir⟩ := hc
  exact ⟨hsub hpath, ⟨root, hsub hroot, hrel⟩, hsub hdir⟩

theorem GuardAllows.mono {canonical : Str} (hsub : h ⊆ h') (hg : GuardAllows canonical h) :
    GuardAllows canonical h' := by
  obtain ⟨facts, hfacts, hallowed⟩ := hg
  exact ⟨facts, hsub hfacts, hallowed⟩

theorem Cleared.mono (hsub : h ⊆ h') (hc : Cleared sysfsRoot request h) :
    Cleared sysfsRoot request h' := by
  cases request with
  | setDeviceEnabled caller path enabled =>
    obtain ⟨hcaller, hpath, canonical, hcontained, hguard⟩ := hc
    exact ⟨hcaller, hpath, canonical, hcontained.mono hsub, fun he => (hguard he).mono hsub⟩
  | bindDriver caller path driverName =>
    obtain ⟨hcaller, hpath, hname, canonical, hcontained⟩ := hc
    exact ⟨hcaller, hpath, hname, canonical, hcontained.mono hsub⟩
  | unbindDriver caller path =>
    obtain ⟨hcaller, hpath, canonical, hcontained, hguard⟩ := hc
    exact ⟨hcaller, hpath, canonical, hcontained.mono hsub, hguard.mono hsub⟩
  | unloadModule caller name =>
    obtain ⟨hcaller, hname, loaded, mod, affected, facts, hl, hm, ha, hf, hallowed⟩ := hc
    exact ⟨hcaller, hname, loaded, mod, affected, facts, hsub hl, hm,
      hsub ha, hsub hf, hallowed⟩
  | _ => exact hc

theorem Granted.mono (hsub : h ⊆ h') (hg : Granted request h) : Granted request h' := by
  obtain ⟨caller, action, hasks, htold⟩ := hg
  exact ⟨caller, action, hasks, hsub htold⟩

theorem Staged.mono (hsub : h ⊆ h') (hs : Staged request h) : Staged request h' := by
  cases request with
  | snapshotRestore caller id =>
    obtain ⟨snap, hsnap⟩ := hs
    exact ⟨snap, hsub hsnap⟩
  | _ => exact hs

theorem SavedUnderLock.record (ho : o ≠ .unlock) (hs : SavedUnderLock h) :
    SavedUnderLock (record (S := daemon) o r h) := by
  obtain ⟨before, earlier, capture, later, payload, trigger, reason, now, id, rfl,
    hcapture, hlock⟩ := hs
  refine ⟨before, earlier, capture, later ++ [⟨o, r⟩], payload, trigger, reason, now,
    id, ?_, hcapture, ?_⟩
  · simp [Program.record]
  · intro e he
    rw [← List.append_assoc, List.mem_append, List.mem_singleton] at he
    rcases he with he | rfl
    · exact hlock e he
    · exact ho

end Grows

section Stages
variable {α : Type} {sysfsRoot : Str} {request : Request} {h : Past}

def Proceeds (sysfsRoot : Str) (request : Request) (p : Prog daemon α) (h : Past) : Prop :=
  Wp (InOrder sysfsRoot request) record p (fun _ _ => True) h

theorem inOrder_other {o : Op} (hasks : ∀ caller action, o ≠ .checkAuthorized caller action)
    (hwrites : ¬ o.Writes) : InOrder sysfsRoot request o h :=
  ⟨fun caller action ho => absurd ho (hasks caller action), fun hw => absurd hw hwrites⟩

theorem inOrder_sees {o : Op} (ho : o.Sees) : InOrder sysfsRoot request o h := by
  cases o <;> first | exact ho.elim | exact inOrder_other nofun id

theorem proceeds_validate {result : Result Unit} {f : Unit → Verb α}
    (hf : result = .ok () → Proceeds sysfsRoot request (f ()).run h) :
    Proceeds sysfsRoot request (validate result >>= f).run h := by
  refine wp_step.mpr (wp_pure.mpr ?_)
  cases result with
  | ok u => exact hf rfl
  | error e => trivial

theorem proceeds_contained {path : Str} {f : Str → Verb α}
    (hf : ∀ canonical h', h ⊆ h' → Contained sysfsRoot path canonical h' →
      Proceeds sysfsRoot request (f canonical).run h') :
    Proceeds sysfsRoot request (canonicalContained sysfsRoot path >>= f).run h := by
  refine wp_step.mpr
    (wp_step.mpr (wp_lift.mpr (wp_call.mpr ⟨inOrder_sees trivial, fun resolved => ?_⟩)))
  cases resolved with
  | none => trivial
  | some canonical =>
    refine wp_step.mpr (wp_lift.mpr (wp_call.mpr ⟨inOrder_sees trivial, fun root => ?_⟩))
    dsimp only
    by_cases hroot : root.isNone = true ∨ lexicallyRelative canonical (root.getD []) = [] ∨
      str ".." <+: lexicallyRelative canonical (root.getD [])
    · rw [if_pos hroot]
      exact wp_step.mpr trivial
    · rw [if_neg hroot]
      refine wp_step.mpr (wp_lift.mpr (wp_call.mpr ⟨inOrder_sees trivial, fun present => ?_⟩))
      dsimp only
      by_cases hpresent : present = true
      · rw [if_neg (not_not.mpr hpresent)]
        obtain ⟨hsome, hrel, hinside⟩ : ¬ root.isNone = true ∧ _ ∧ _ := by
          simpa only [not_or] using hroot
        obtain ⟨base, rfl⟩ : ∃ base, root = some base :=
          Option.ne_none_iff_exists'.mp fun hnone => hsome (hnone ▸ rfl)
        subst hpresent
        refine hf canonical _ ?_ ⟨?_, ⟨base, ?_, hrel, hinside⟩, told_last⟩
        · exact List.Subset.trans (List.subset_append_left _ _)
            (List.Subset.trans (List.subset_append_left _ _) (List.subset_append_left _ _))
        · exact told_record (told_record told_last)
        · exact told_record told_last
      · rw [if_pos hpresent]
        exact wp_step.mpr trivial

theorem proceeds_guard {canonical : Str} {f : Unit → Verb α}
    (hf : ∀ h', h ⊆ h' → GuardAllows canonical h' →
      Proceeds sysfsRoot request (f ()).run h') :
    Proceeds sysfsRoot request (guardDisable canonical >>= f).run h := by
  refine wp_step.mpr (wp_step.mpr (wp_probe.mpr ⟨inOrder_other nofun id, fun result => ?_⟩))
  cases result with
  | error error => trivial
  | ok facts =>
    dsimp only
    by_cases hallowed : (evaluateDisable facts canonical).allowed = true
    · rw [if_neg (not_not.mpr hallowed)]
      exact hf _ (List.subset_append_left _ _) ⟨facts, told_last, hallowed⟩
    · rw [if_pos hallowed]
      trivial

theorem proceeds_authorize {caller action : Str} {f : Unit → Verb α}
    (hasks : request.asks = some (caller, action)) (hcleared : Cleared sysfsRoot request h)
    (hf : ∀ h', h ⊆ h' → Granted request h' → Proceeds sysfsRoot request (f ()).run h') :
    Proceeds sysfsRoot request (authorize caller action >>= f).run h := by
  have hconsulted : InOrder sysfsRoot request (.checkAuthorized caller action) h := by
    refine ⟨fun caller' action' ho => ?_, fun hwrites => hwrites.elim⟩
    obtain ⟨rfl, rfl⟩ : caller = caller' ∧ action = action' := by simpa using ho
    exact ⟨hasks, hcleared⟩
  refine wp_step.mpr (wp_step.mpr (wp_call.mpr ⟨hconsulted, fun result => ?_⟩))
  cases result with
  | error error => trivial
  | ok authorized =>
    dsimp only
    by_cases hgranted : authorized = true
    · rw [if_neg (not_not.mpr hgranted)]
      subst hgranted
      exact hf _ (List.subset_append_left _ _) ⟨caller, action, hasks, told_last⟩
    · rw [if_pos hgranted]
      trivial

theorem proceeds_guardModuleUnload {name : Str} {f : Unit → Verb α}
    (hf : ∀ h', h ⊆ h' → UnloadAllows name h' → Proceeds sysfsRoot request (f ()).run h') :
    Proceeds sysfsRoot request (guardModuleUnload name >>= f).run h := by
  refine wp_step.mpr (wp_step.mpr (wp_call.mpr ⟨inOrder_sees trivial, fun loaded => ?_⟩))
  cases loaded with
  | error error => trivial
  | ok loaded =>
    dsimp only
    cases hmod : loaded.find? fun m : LoadedModule => m.name = name with
    | none => trivial
    | some mod =>
      refine wp_step.mpr (wp_call.mpr ⟨inOrder_sees trivial, fun affected => ?_⟩)
      cases affected with
      | error error => trivial
      | ok affected =>
        refine wp_step.mpr (wp_probe.mpr ⟨inOrder_other nofun id, fun result => ?_⟩)
        cases result with
        | error error => trivial
        | ok facts =>
          dsimp only
          by_cases hallowed :
              (evaluateModuleUnload facts ⟨affected, mod.holders, mod.refCount⟩).allowed = true
          · rw [if_neg (not_not.mpr hallowed)]
            refine hf _ ?_ ⟨loaded, mod, affected, facts, ?_, hmod, ?_, told_last, hallowed⟩
            · exact List.Subset.trans (List.subset_append_left _ _)
                (List.Subset.trans (List.subset_append_left _ _) (List.subset_append_left _ _))
            · exact told_record (told_record told_last)
            · exact told_record told_last
          · rw [if_pos hallowed]
            trivial

def Captured (payload : SnapshotPayload) (h : Past) : Prop :=
  ∃ before earlier capture, h = before ++ ⟨.lock, ()⟩ :: (earlier ++ capture) ∧
    Yields capturePayload capture payload ∧ ∀ e ∈ earlier ++ capture, e.1 ≠ .unlock

def HoldsLock (h : Past) : Prop :=
  ∃ before earlier, h = before ++ ⟨.lock, ()⟩ :: earlier ∧
  ∀ e ∈ earlier, e.1 ≠ .unlock

theorem holdsLock_lock : HoldsLock (record (S := daemon) .lock () h) :=
  ⟨h, [], rfl, fun _ he => absurd he List.not_mem_nil⟩

theorem HoldsLock.record {o : Op} {r : o.Ret} (ho : o ≠ .unlock) (hheld : HoldsLock h) :
    HoldsLock (record (S := daemon) o r h) := by
  obtain ⟨before, earlier, rfl, hlock⟩ := hheld
  refine ⟨before, earlier ++ [⟨o, r⟩], by simp [Program.record], fun e he => ?_⟩
  rw [List.mem_append, List.mem_singleton] at he
  rcases he with he | rfl
  · exact hlock e he
  · exact ho

theorem wp_capturePayload (hheld : HoldsLock h) :
    Wp (InOrder sysfsRoot request) record capturePayload
      (fun payload h' => h ⊆ h' ∧ Captured payload h') h := by
  -- a capture only looks, so it neither writes nor gives the lock back
  have hlooks : Wp (InOrder sysfsRoot request) record capturePayload
      (fun _ h' => ∃ since, h' = h ++ since ∧ ∀ e ∈ since, e.1 ≠ .unlock) h := by
    refine wp_only sees_capturePayload (fun o g ho _ => inOrder_sees ho) ?_ ⟨[], by simp⟩
    rintro o r g ho ⟨since, rfl, hsince⟩
    refine ⟨since ++ [⟨o, r⟩], by simp [record], fun e he => ?_⟩
    rw [List.mem_append, List.mem_singleton] at he
    rcases he with he | rfl
    · exact hsince e he
    · rintro rfl
      exact ho
  refine (hlooks.and (wp_yields capturePayload h)).mono fun payload h' hcaptured => ?_
  obtain ⟨⟨since, rfl, hsince⟩, capture, heq, hyields⟩ := hcaptured
  obtain rfl : since = capture := List.append_cancel_left heq
  obtain ⟨before, earlier, rfl, hearlier⟩ := hheld
  refine ⟨List.subset_append_left _ _, before, earlier, since, by simp, hyields, fun e he => ?_⟩
  exact (List.mem_append.mp he).elim (hearlier e) (hsince e)

theorem wp_storePut {payload : SnapshotPayload} {trigger : SnapshotTrigger}
    {reason : SnapshotReason} (hcaptured : Captured payload h) :
    Wp (InOrder sysfsRoot request) record (storePut payload trigger reason).run
      (fun r h' => ∀ id, r = .ok id → h ⊆ h' ∧ SavedUnderLock h') h := by
  refine wp_bind.mpr (wp_call.mpr ⟨inOrder_sees trivial, fun now => ?_⟩)
  refine wp_bind.mpr (wp_call.mpr ⟨inOrder_other nofun id, fun result => ?_⟩)
  refine wp_orRaise fun result hresult id hid => ?_
  subst hresult hid
  obtain ⟨before, earlier, capture, rfl, hyields, hlock⟩ := hcaptured
  refine ⟨?_, before, earlier, capture, [], payload, trigger, reason, now, id, ?_, hyields, ?_⟩
  · exact List.Subset.trans (List.subset_append_left _ _) (List.subset_append_left _ _)
  · simp [record]
  · simpa using hlock

theorem wp_create {trigger : SnapshotTrigger} {reason : SnapshotReason} (hheld : HoldsLock h) :
    Wp (InOrder sysfsRoot request) record (create trigger reason).run
      (fun r h' => ∀ id, r = .ok id → h ⊆ h' ∧ SavedUnderLock h') h := by
  refine wp_step.mpr (wp_lift.mpr ((wp_capturePayload hheld).mono fun payload h' hcaptured => ?_))
  exact (wp_storePut hcaptured.2).mono fun r h'' hr id hid =>
    ⟨List.Subset.trans hcaptured.1 (hr id hid).1, (hr id hid).2⟩

/-- What a verb with everything behind it may issue. -/
def Request.Acts (request : Request) (sysfsRoot : Str) (h : Past) (o : Op) : Prop :=
  o.Sees ∨ o = .probe ∨ (∃ name, o = .removeModprobe name) ∨
    (∃ name content, o = .writeModprobe name content) ∨ o.Writes ∧
    request.MayWrite sysfsRoot h o

theorem Request.MayWrite.mono {h' : Past} {o : Op} (hsub : h ⊆ h')
    (hmay : request.MayWrite sysfsRoot h o) : request.MayWrite sysfsRoot h' o := by
  cases request with
  | setDeviceEnabled caller path enabled =>
    obtain ⟨canonical, hcontained, hguard, hwrite⟩ := hmay
    exact ⟨canonical, hcontained.mono hsub, fun he => (hguard he).mono hsub, hwrite⟩
  | bindDriver caller path driverName =>
    obtain ⟨canonical, hcontained, ho⟩ := hmay
    exact ⟨canonical, hcontained.mono hsub, ho⟩
  | unbindDriver caller path =>
    obtain ⟨canonical, hcontained, hguard, ho⟩ := hmay
    exact ⟨canonical, hcontained.mono hsub, hguard.mono hsub, ho⟩
  | _ => exact hmay

theorem proceeds_acts {p : Prog daemon α} {h' : Past} (hsub : h ⊆ h')
    (hp : Only (request.Acts sysfsRoot h) p) (hcleared : Cleared sysfsRoot request h)
    (hgranted : Granted request h) (hstaged : Staged request h') (hsaved : SavedUnderLock h') :
    Proceeds sysfsRoot request p h' := by
  refine (wp_only (K := fun g => h' ⊆ g ∧ SavedUnderLock g) hp ?_ ?_ ⟨List.Subset.refl _,
    hsaved⟩).trivially
  · rintro o g ho ⟨hg, hsavedg⟩
    rcases ho with ho | rfl | ⟨name, rfl⟩ | ⟨name, content, rfl⟩ | ⟨hwrites, hmay⟩
    · exact inOrder_sees ho
    · exact inOrder_other nofun id
    · exact inOrder_other nofun id
    · exact inOrder_other nofun id
    · have hpast : h ⊆ g := List.Subset.trans hsub hg
      refine ⟨fun caller action hasks => ?_, fun _ => ?_⟩
      · subst hasks
        exact hwrites.elim
      · exact ⟨hcleared.mono hpast, hgranted.mono hpast, hstaged.mono hg,
          hsavedg, hmay.mono hpast⟩
  · rintro o r g ho ⟨hg, hsavedg⟩
    refine ⟨List.Subset.trans hg (List.subset_append_left _ _), hsavedg.record ?_⟩
    rintro rfl
    rcases ho with ho | ho | ⟨name, ho⟩ | ⟨name, content, ho⟩ | ⟨hwrites, -⟩
    · exact ho
    · exact absurd ho (by simp)
    · exact absurd ho (by simp)
    · exact absurd ho (by simp)
    · exact hwrites

theorem proceeds_locked {body : Prog daemon α}
    (hbody : ∀ h', h ⊆ h' → HoldsLock h' → Proceeds sysfsRoot request body h') :
    Proceeds sysfsRoot request (locked body) h := by
  refine wp_bind.mpr (wp_call.mpr ⟨inOrder_other nofun id, fun _ => ?_⟩)
  exact wp_ending (fun _ => inOrder_other (o := .unlock) nofun id)
    ((hbody _ (List.subset_append_left _ _) holdsLock_lock).mono fun _ _ _ _ => trivial)

theorem proceeds_actLocked {verb : String} {subject : Str} {action : Verb α}
    (hcleared : Cleared sysfsRoot request h) (hgranted : Granted request h)
    (hstaged : ∀ h', Staged request h') (haction : Only (request.Acts sysfsRoot h) action.run) :
    Proceeds sysfsRoot request (actLocked verb subject action).run h := by
  refine proceeds_locked fun h' hsub hheld => ?_
  refine wp_step.mpr (wp_bind.mpr ((wp_create hheld).mono fun result h'' hresult => ?_))
  cases result with
  | error error => trivial
  | ok id =>
    obtain ⟨hsub', hsaved⟩ := hresult id rfl
    exact proceeds_acts (List.Subset.trans hsub hsub') haction hcleared hgranted (hstaged _) hsaved

theorem proceeds_restore {id : Str} {caller : Str}
    (hcleared : Cleared sysfsRoot (.snapshotRestore caller id) h)
    (hgranted : Granted (.snapshotRestore caller id) h) (hheld : HoldsLock h) :
    Proceeds sysfsRoot (.snapshotRestore caller id) (restore id).run h := by
  refine wp_step.mpr (wp_call.mpr ⟨inOrder_other nofun (fun h => h), fun result => ?_⟩)
  cases result with
  | error error => trivial
  | ok snap =>
    have hread : HoldsLock (record (S := daemon) (.readSnapshot id) (.ok snap) h) :=
      hheld.record (by simp)
    refine wp_step.mpr (wp_lift.mpr ((wp_capturePayload hread).mono fun pre h' hcaptured => ?_))
    refine wp_step.mpr ((wp_storePut hcaptured.2).mono fun result h'' hput => ?_)
    cases result with
    | error error => trivial
    | ok safety =>
      obtain ⟨hsub, hsaved⟩ := hput safety rfl
      have hpast := List.Subset.trans hcaptured.1 hsub
      have hrecord : h ⊆ record (S := daemon) (.readSnapshot id) (.ok snap) h :=
        List.subset_append_left _ _
      refine proceeds_acts (List.Subset.trans hrecord hpast) ?_ hcleared hgranted
        ⟨snap, hpast told_last⟩ hsaved
      refine only_step (only_bind (only_call.mpr ?_) fun _ => only_orRaise _) fun _ => ?_
      · exact .inr (.inr (.inr (.inr ⟨trivial, trivial⟩)))
      refine only_step (only_lift (only_writeBackModprobe ?_ ?_)) fun _ => ?_
      · exact fun name => .inr (.inr (.inl ⟨name, rfl⟩))
      · exact fun name content => .inr (.inr (.inr (.inl ⟨name, content, rfl⟩)))
      have hwrites : ∀ o : Op, o.Writes →
          Request.MayWrite sysfsRoot (.snapshotRestore caller id) h o →
          Request.Acts (.snapshotRestore caller id) sysfsRoot h o :=
        fun o ho hmay => .inr (.inr (.inr (.inr ⟨ho, hmay⟩)))
      refine only_step (only_lift (only_reEnableRemoved (fun _ => .inl) fun _ _ => ?_)) fun _ => ?_
      · exact hwrites _ trivial trivial
      refine only_step (only_lift (only_reApplyRestored (fun _ => .inl) (.inr (.inl rfl)) ?_ ?_ ?_))
        fun _ => only_done _
      · exact fun _ _ => hwrites _ trivial trivial
      · exact fun _ _ => hwrites _ trivial trivial
      · exact fun _ _ => hwrites _ trivial trivial

theorem Proceeds.discarded {p : Prog daemon α} (hp : Proceeds sysfsRoot request p h) :
    Proceeds sysfsRoot request (discard p) h :=
  wp_bind.mpr (hp.mono fun _ _ _ => trivial)

def Op.Looks (o : Op) : Prop :=
  o.Sees ∨ (∃ id, o = .readSnapshot id) ∨ o = .listSnapshots ∨ o = .lock ∨ o = .unlock

theorem proceeds_looks {p : Prog daemon α} (hp : Only Op.Looks p) :
    Proceeds sysfsRoot request p h := by
  refine (wp_only (K := fun _ => True) hp ?_ (fun _ _ _ _ _ => trivial) trivial).trivially
  rintro o g (ho | ⟨id, rfl⟩ | rfl | rfl | rfl) -
  · exact inOrder_sees ho
  · exact inOrder_other (o := .readSnapshot id) nofun fun hwrites => hwrites
  · exact inOrder_other (o := .listSnapshots) nofun id
  · exact inOrder_other (o := .lock) nofun id
  · exact inOrder_other (o := .unlock) nofun id

theorem looks_listDisabledDevices : Only Op.Looks listDisabledDevices :=
  only_call.mpr (.inl trivial)

theorem looks_snapshotList : Only Op.Looks snapshotList.run :=
  only_call.mpr (.inr (.inr (.inl rfl)))

theorem looks_diffPayloads (baseId targetId : Str) :
    Only Op.Looks (diffPayloads baseId targetId).run := by
  have hread : ∀ id, Only Op.Looks (ExceptT.mk (call (S := daemon) (.readSnapshot id))).run :=
    fun id => only_call.mpr (.inr (.inl ⟨id, rfl⟩))
  refine only_step (hread baseId) fun base => ?_
  by_cases htarget : targetId = []
  · rw [if_pos htarget]
    exact only_step (only_lift (sees_capturePayload.mono fun _ => .inl)) fun _ => only_done _
  · rw [if_neg htarget]
    exact only_step (hread targetId) fun _ => only_done _

theorem looks_snapshotDiff (baseId targetId : Str) :
    Only Op.Looks (snapshotDiff baseId targetId).run := by
  refine only_step (only_validate _) fun _ => ?_
  by_cases htarget : targetId = []
  · rw [if_pos htarget]
    exact only_locked (.inr (.inr (.inr (.inl rfl)))) (.inr (.inr (.inr (.inr rfl))))
      (looks_diffPayloads baseId targetId)
  · rw [if_neg htarget]
    exact only_step (only_validate _) fun _ => looks_diffPayloads baseId targetId

end Stages

section Verbs
variable {sysfsRoot caller : Str} {h : Past}

theorem proceeds_write {request : Request} {action : Str} {verb : String} {subject : Str} {o : Op}
    {act : Prog daemon (Result Unit)} (hact : Only (fun o' => o' = o) act) (hwrites : o.Writes)
    (hasks : request.asks = some (caller, action)) (hcleared : Cleared sysfsRoot request h)
    (hstaged : ∀ h', Staged request h') (hmay : request.MayWrite sysfsRoot h o) :
    Proceeds sysfsRoot request (do
      authorize caller action
      actLocked verb subject (ExceptT.mk act) : Verb Unit).run h := by
  refine proceeds_authorize hasks hcleared fun h' hsub hgranted => ?_
  refine proceeds_actLocked (hcleared.mono hsub) hgranted hstaged (hact.mono ?_)
  rintro _ rfl
  exact .inr (.inr (.inr (.inr ⟨hwrites, hmay.mono hsub⟩)))

theorem proceeds_setDeviceEnabled {path : Str} {enabled : Bool} :
    Proceeds sysfsRoot (.setDeviceEnabled caller path enabled)
      (setDeviceEnabled sysfsRoot caller path enabled).run h := by
  refine proceeds_validate fun hcaller => proceeds_validate fun hpath =>
    proceeds_contained fun canonical h _ hcontained => ?_
  have hact : ∀ h' : Past, h ⊆ h' → (enabled = false → GuardAllows canonical h') →
      Proceeds sysfsRoot (.setDeviceEnabled caller path enabled) (do
        authorize caller kActionSetDeviceEnabled
        actLocked "SetDeviceEnabled" canonical
          (if enabled then applyEnable canonical else applyDisable canonical) :
          Verb Unit).run h' := by
    intro h' hsub hguard
    have hcleared : Cleared sysfsRoot (.setDeviceEnabled caller path enabled) h' :=
      ⟨hcaller, hpath, canonical, hcontained.mono hsub, hguard⟩
    refine proceeds_authorize rfl hcleared fun h'' hsub' hgranted => ?_
    refine proceeds_actLocked (hcleared.mono hsub') hgranted (fun _ => trivial) ?_
    have hmay : ∀ o : Op, o.Writes →
        (match o with
          | .setEnabled none target on _ => target = canonical ∧ on = enabled
          | .upsert _ => enabled = false
          | .remove _ => enabled = true
          | _ => False) →
        Request.Acts (.setDeviceEnabled caller path enabled) sysfsRoot h'' o :=
      fun o hwrites hwrite => .inr (.inr (.inr (.inr ⟨hwrites, canonical,
        (hcontained.mono hsub).mono hsub', fun he => (hguard he).mono hsub', hwrite⟩)))
    cases enabled with
    | true =>
      exact only_applyEnable (fun _ => .inl) (fun _ => hmay _ trivial ⟨rfl, rfl⟩)
        fun _ => hmay _ trivial rfl
    | false =>
      exact only_applyDisable (fun _ => .inl) (hmay _ trivial ⟨rfl, rfl⟩) fun _ =>
        hmay _ trivial rfl
  cases enabled with
  | true => exact hact h (List.Subset.refl _) nofun
  | false => exact proceeds_guard fun h' hsub hguard => hact h' hsub fun _ => hguard

theorem proceeds_unloadModule {name : Str} :
    Proceeds sysfsRoot (.unloadModule caller name) (unloadModule caller name).run h :=
  proceeds_validate fun hcaller => proceeds_validate fun hname =>
    proceeds_guardModuleUnload fun _ _ hunload =>
      proceeds_write (only_call.mpr rfl) trivial rfl ⟨hcaller, hname, hunload⟩
        (fun _ => trivial) rfl

theorem proceeds_bindDriver {path driverName : Str} :
    Proceeds sysfsRoot (.bindDriver caller path driverName)
      (bindDriver sysfsRoot caller path driverName).run h :=
  proceeds_validate fun hcaller => proceeds_validate fun hpath => proceeds_validate fun hname =>
    proceeds_contained fun canonical _ _ hcontained =>
      proceeds_write (only_call.mpr rfl) trivial rfl ⟨hcaller, hpath, hname,
        canonical, hcontained⟩
        (fun _ => trivial) ⟨canonical, hcontained, rfl⟩

theorem proceeds_unbindDriver {path : Str} :
    Proceeds sysfsRoot (.unbindDriver caller path) (unbindDriver sysfsRoot caller path).run h :=
  proceeds_validate fun hcaller => proceeds_validate fun hpath =>
    proceeds_contained fun canonical _ _ hcontained => proceeds_guard fun _ hsub hguard =>
      proceeds_write (only_call.mpr rfl) trivial rfl
        ⟨hcaller, hpath, canonical, hcontained.mono hsub, hguard⟩ (fun _ => trivial)
        ⟨canonical, hcontained.mono hsub, hguard, rfl⟩

theorem proceeds_snapshotCreate {label : Str} :
    Proceeds sysfsRoot (.snapshotCreate caller label) (snapshotCreate caller label).run h :=
  proceeds_validate fun hcaller => proceeds_validate fun hlabel =>
    proceeds_authorize rfl ⟨hcaller, hlabel⟩ fun _ _ _ => proceeds_locked fun _ _ hheld =>
      (wp_create hheld).trivially

theorem proceeds_snapshotRestore {id : Str} :
    Proceeds sysfsRoot (.snapshotRestore caller id) (snapshotRestore caller id).run h :=
  proceeds_validate fun hcaller => proceeds_validate fun hid =>
    proceeds_authorize rfl ⟨hcaller, hid⟩ fun _ _ hgranted =>
      proceeds_locked fun _ hsub hheld =>
        proceeds_restore ⟨hcaller, hid⟩ (hgranted.mono hsub) hheld

theorem proceeds_snapshotDelete {id : Str} :
    Proceeds sysfsRoot (.snapshotDelete caller id) (snapshotDelete caller id).run h :=
  proceeds_validate fun hcaller => proceeds_validate fun hid =>
    proceeds_authorize rfl ⟨hcaller, hid⟩ fun _ _ _ => proceeds_locked fun _ _ _ =>
      wp_call.mpr ⟨inOrder_other (o := .removeSnapshot id) nofun fun hwrites => hwrites,
        fun _ => trivial⟩

end Verbs

/-- Every verb asks the authority and writes in order only, whatever its stages return. -/
theorem verb_pipeline (sysfsRoot : Str) (request : Request) :
    Always (InOrder sysfsRoot request) (serve sysfsRoot request) := by
  refine always_of_wp (Q := fun _ _ => True) ?_
  cases request with
  | setDeviceEnabled caller path enabled => exact proceeds_setDeviceEnabled.discarded
  | bindDriver caller path driverName => exact proceeds_bindDriver.discarded
  | unbindDriver caller path => exact proceeds_unbindDriver.discarded
  | listDisabledDevices => exact (proceeds_looks looks_listDisabledDevices).discarded
  | loadModule caller name =>
    refine Proceeds.discarded (proceeds_validate fun hcaller => proceeds_validate fun hname => ?_)
    exact proceeds_write (only_call.mpr rfl) trivial rfl ⟨hcaller, hname⟩ (fun _ => trivial) rfl
  | unloadModule caller name => exact proceeds_unloadModule.discarded
  | snapshotList => exact (proceeds_looks looks_snapshotList).discarded
  | snapshotDiff baseId targetId =>
    exact (proceeds_looks (looks_snapshotDiff baseId targetId)).discarded
  | snapshotCreate caller label => exact proceeds_snapshotCreate.discarded
  | snapshotRestore caller id => exact proceeds_snapshotRestore.discarded
  | snapshotDelete caller id => exact proceeds_snapshotDelete.discarded

end DevMgr.Daemon
