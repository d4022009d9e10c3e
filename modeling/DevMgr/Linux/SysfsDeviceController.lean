import DevMgr.Daemon.RequestProcessor

/-!
# The sysfs device controller

A device that has an `authorized` attribute is switched by it, any other one by
unbinding its driver and by having the bus probe it again. The writes asked of the
kernel are recorded beside it. The kernel is a parameter: what a link says, and what a
write does, succeed or not.
-/

open DevMgr.Core

namespace DevMgr.Linux
open Bytes Daemon

structure Sysfs (K : Type) where
  readSymlink : K → Str → Option Str
  openError : K → Str → Option Str
  write : K → Str → Str → Bool × K

/-- A kernel and the attribute writes it was asked for. -/
structure Attributed (K : Type) where
  kernel : K
  asked : List (Str × Str)

variable {K : Type} (F : Sysfs K) (P : Platform K) (sysfsRoot : Str)

def writeAttr (w : Attributed K) (attr value : Str) : Result Unit × Attributed K :=
  let asked := w.asked ++ [(attr, value)]
  match F.openError w.kernel attr with
  | some message => (makeError .io (str "cannot open " ++ attr ++ str ": " ++ message),
      { w with asked })
  | none =>
    match F.write w.kernel attr value with
    | (false, kernel) => (makeError .io (str "write failed: " ++ attr), ⟨kernel, asked⟩)
    | (true, kernel) => (.ok (), ⟨kernel, asked⟩)

def isContained (canonicalPath canonicalRoot : Str) : Bool :=
  let rel := Daemon.lexicallyRelative canonicalPath canonicalRoot
  rel ≠ [] ∧ ¬ str ".." <+: rel

def canonicalDevice (w : K) (sysfsPath : Str) : Result Str :=
  match P.weaklyCanonical w sysfsPath with
  | none => makeError .notFound (str "cannot resolve " ++ sysfsPath)
  | some canonical =>
    if ¬ (P.weaklyCanonical w sysfsRoot).any fun root => isContained canonical root then
      makeError .notFound (str "path outside sysfs root: " ++ sysfsPath)
    else if ¬ P.isDirectory w canonical then
      makeError .notFound (str "device no longer present: " ++ sysfsPath)
    else .ok canonical

def busDirFor (w : K) (device : Str) : Result Str :=
  match P.weaklyCanonical w (child device (str "subsystem")) with
  | none => makeError .unsupported (str "no subsystem link at " ++ device)
  | some bus =>
    if P.isDirectory w bus then .ok bus
    else makeError .unsupported (str "no subsystem link at " ++ device)

def boundDriverName (w : K) (device : Str) : Option Str :=
  (F.readSymlink w (child device (str "driver"))).map lastSegment

def authorizedOf (device : Str) : Str := child device (str "authorized")

def overrideOf (device : Str) : Str := child device (str "driver_override")

def probeOf (bus : Str) : Str := child bus (str "drivers_probe")

def unbindOf (bus driver : Str) : Str :=
  child (child (child bus (str "drivers")) driver) (str "unbind")

def viaAuthorized (w : Attributed K) (device : Str) (enabled : Bool) :
    Result (Option Str) × Attributed K :=
  let (result, w) := writeAttr F w (authorizedOf device) (if enabled then str "1" else str "0")
  (result.map fun _ => none, w)

def disableViaUnbind (w : Attributed K) (device bus : Str) : Result (Option Str) × Attributed K :=
  match boundDriverName F w.kernel device with
  | none => (.ok (some []), w)
  | some driver =>
    let (result, w) := writeAttr F w (unbindOf bus driver) (lastSegment device)
    (result.map fun _ => some driver, w)

def enableViaProbe (w : Attributed K) (device bus rebindDriverHint : Str) :
    Result (Option Str) × Attributed K :=
  if rebindDriverHint ≠ [] ∧ P.pathExists w.kernel (overrideOf device) then
    match writeAttr F w (overrideOf device) rebindDriverHint with
    | (.error error, w) => (.error error, w)
    | (.ok (), w) =>
      let (probed, w) := writeAttr F w (probeOf bus) (lastSegment device)
      let (cleared, w) := writeAttr F w (overrideOf device) []
      match probed, cleared with
      | .ok (), .error error => (.error error, w)
      | .error error, _ => (.error error, w)
      | .ok (), .ok () => (.ok none, w)
  else
    let (probed, w) := writeAttr F w (probeOf bus) (lastSegment device)
    (probed.map fun _ => none, w)

namespace SysfsDeviceController

def setEnabled (w : Attributed K) (sysfsPath : Str) (enabled : Bool) (rebindDriverHint : Str) :
    Result (Option Str) × Attributed K :=
  match canonicalDevice P sysfsRoot w.kernel sysfsPath with
  | .error error => (.error error, w)
  | .ok device =>
    if P.pathExists w.kernel (authorizedOf device) then viaAuthorized F w device enabled
    else
      match busDirFor P w.kernel device with
      | .error error => (.error error, w)
      | .ok bus =>
        if ¬ enabled then disableViaUnbind F w device bus
        else enableViaProbe F P w device bus rebindDriverHint

def unbindDriver (w : Attributed K) (sysfsPath : Str) : Result Unit × Attributed K :=
  match canonicalDevice P sysfsRoot w.kernel sysfsPath with
  | .error error => (.error error, w)
  | .ok device =>
    match boundDriverName F w.kernel device with
    | none => (makeError .notFound (str "no driver bound at " ++ device), w)
    | some driver =>
      match busDirFor P w.kernel device with
      | .error error => (.error error, w)
      | .ok bus => writeAttr F w (unbindOf bus driver) (lastSegment device)

def bindDriver (w : Attributed K) (sysfsPath driverName : Str) : Result Unit × Attributed K :=
  match canonicalDevice P sysfsRoot w.kernel sysfsPath with
  | .error error => (.error error, w)
  | .ok device =>
    match busDirFor P w.kernel device with
    | .error error => (.error error, w)
    | .ok bus =>
      let bindAttr := child (child (child bus (str "drivers")) driverName) (str "bind")
      if ¬ P.pathExists w.kernel bindAttr then
        (makeError .notFound (str "no such driver on this bus: " ++ driverName), w)
      else writeAttr F w bindAttr (lastSegment device)

end SysfsDeviceController

def Attributed.onKernel {α : Type} (w : Attributed K) (r : α × K) : α × Attributed K :=
  (r.1, { w with kernel := r.2 })

def controlled : Platform (Attributed K) where
  facts w := P.facts w.kernel
  probeError w := P.probeError w.kernel
  enumerate w := P.enumerate w.kernel
  setEnabled := SysfsDeviceController.setEnabled F P sysfsRoot
  bindDriver := SysfsDeviceController.bindDriver F P sysfsRoot
  unbindDriver := SysfsDeviceController.unbindDriver F P sysfsRoot
  loadModule w name := w.onKernel (P.loadModule w.kernel name)
  unloadModule w name := w.onKernel (P.unloadModule w.kernel name)
  listLoadedModules w := P.listLoadedModules w.kernel
  devicesUsingModule w name := P.devicesUsingModule w.kernel name
  checkAuthorized w caller action := P.checkAuthorized w.kernel caller action
  weaklyCanonical w path := P.weaklyCanonical w.kernel path
  isDirectory w path := P.isDirectory w.kernel path
  pathExists w path := P.pathExists w.kernel path
  firstLine w path := P.firstLine w.kernel path
  nowUtc w := P.nowUtc w.kernel
  writeState w content := w.onKernel (P.writeState w.kernel content)
  putSnapshot w payload trigger reason createdAtUtc :=
    w.onKernel (P.putSnapshot w.kernel payload trigger reason createdAtUtc)
  readSnapshot w id := w.onKernel (P.readSnapshot w.kernel id)
  listSnapshots w := w.onKernel (P.listSnapshots w.kernel)
  removeSnapshot w id := w.onKernel (P.removeSnapshot w.kernel id)
  modprobeNames w := P.modprobeNames w.kernel
  readModprobe w name := P.readModprobe w.kernel name
  writeModprobe w name content := w.onKernel (P.writeModprobe w.kernel name content)
  removeModprobe w name := w.onKernel (P.removeModprobe w.kernel name)

/-- A platform whose devices are behind the controller, and whose files are apart from them. -/
structure Behind {W : Type} (Q : Platform W) (view : W → Attributed K) : Prop where
  setEnabled : ∀ w path enabled hint,
    ((Q.setEnabled w path enabled hint).1, view (Q.setEnabled w path enabled hint).2) =
      SysfsDeviceController.setEnabled F P sysfsRoot (view w) path enabled hint
  facts : ∀ w, Q.facts w = P.facts (view w).kernel
  probeError : ∀ w, Q.probeError w = P.probeError (view w).kernel
  enumerate : ∀ w, Q.enumerate w = P.enumerate (view w).kernel
  weaklyCanonical : ∀ w path, Q.weaklyCanonical w path = P.weaklyCanonical (view w).kernel path
  isDirectory : ∀ w path, Q.isDirectory w path = P.isDirectory (view w).kernel path
  pathExists : ∀ w path, Q.pathExists w path = P.pathExists (view w).kernel path
  firstLine : ∀ w path, Q.firstLine w path = P.firstLine (view w).kernel path
  writeState : ∀ w content, view (Q.writeState w content).2 = view w
  putSnapshot : ∀ w payload trigger reason createdAtUtc,
    view (Q.putSnapshot w payload trigger reason createdAtUtc).2 = view w

theorem behind_controlled (hstate : ∀ k content, (P.writeState k content).2 = k)
    (hsnapshot : ∀ k payload trigger reason createdAtUtc,
      (P.putSnapshot k payload trigger reason createdAtUtc).2 = k) :
    Behind F P sysfsRoot (controlled F P sysfsRoot) id where
  setEnabled _ _ _ _ := rfl
  facts _ := rfl
  probeError _ := rfl
  enumerate _ := rfl
  weaklyCanonical _ _ := rfl
  isDirectory _ _ := rfl
  pathExists _ _ := rfl
  firstLine _ _ := rfl
  writeState w content := by
    change { w with kernel := (P.writeState w.kernel content).2 } = w
    rw [hstate]
  putSnapshot w payload trigger reason createdAtUtc := by
    change { w with kernel := (P.putSnapshot w.kernel payload trigger reason createdAtUtc).2 } = w
    rw [hsnapshot]

section Disable
variable {F P sysfsRoot} {w w' : Attributed K} {sysfsPath device hint : Str} {applied : Option Str}

theorem writeAttr_asked (attr value : Str) :
    (writeAttr F w attr value).2.asked = w.asked ++ [(attr, value)] := by
  rw [writeAttr]
  cases F.openError w.kernel attr with
  | some message => rfl
  | none =>
    dsimp only
    rcases F.write w.kernel attr value with ⟨ok, kernel⟩
    cases ok <;> rfl

theorem writeAttr_ok {attr value : Str} (h : writeAttr F w attr value = (.ok (), w')) :
    F.write w.kernel attr value = (true, w'.kernel) := by
  rw [writeAttr] at h
  cases hopen : F.openError w.kernel attr with
  | some message =>
    rw [hopen] at h
    exact absurd (congrArg Prod.fst h) (by simp [makeError])
  | none =>
    rw [hopen] at h
    rcases hwrite : F.write w.kernel attr value with ⟨_ | _, kernel⟩
    · rw [hwrite] at h
      exact absurd (congrArg Prod.fst h) (by simp [makeError])
    · rw [hwrite] at h
      exact congrArg (fun w' : Attributed K => (true, w'.kernel)) (Prod.mk.inj h).2

theorem canonicalDevice_ok (h : canonicalDevice P sysfsRoot w.kernel sysfsPath = .ok device) :
    P.weaklyCanonical w.kernel sysfsPath = some device ∧
    P.isDirectory w.kernel device = true := by
  rw [canonicalDevice] at h
  cases hcanonical : P.weaklyCanonical w.kernel sysfsPath with
  | none =>
    rw [hcanonical] at h
    exact absurd h (by simp [makeError])
  | some canonical =>
    rw [hcanonical] at h
    dsimp only at h
    split_ifs at h with hroot hdirectory
    · obtain rfl := Except.ok.inj h
      exact ⟨rfl, hdirectory⟩
    · exact absurd h (by simp [makeError])
    · exact absurd h (by simp [makeError])

theorem setEnabled_device {enabled : Bool}
    (h : SysfsDeviceController.setEnabled F P sysfsRoot w sysfsPath enabled hint =
      (.ok applied, w')) :
    ∃ device, canonicalDevice P sysfsRoot w.kernel sysfsPath = .ok device := by
  rw [SysfsDeviceController.setEnabled] at h
  cases hdevice : canonicalDevice P sysfsRoot w.kernel sysfsPath with
  | error error =>
    rw [hdevice] at h
    exact absurd (congrArg Prod.fst h) (by simp)
  | ok device => exact ⟨device, rfl⟩

theorem disable_cases
    (h : SysfsDeviceController.setEnabled F P sysfsRoot w sysfsPath false hint =
      (.ok applied, w')) :
    ∃ device, canonicalDevice P sysfsRoot w.kernel sysfsPath = .ok device ∧
      ((P.pathExists w.kernel (authorizedOf device) = true ∧ applied = none ∧
          writeAttr F w (authorizedOf device) (str "0") = (.ok (), w')) ∨
        (P.pathExists w.kernel (authorizedOf device) = false ∧
          boundDriverName F w.kernel device = none ∧
          applied = some [] ∧ w' = w) ∨
        (P.pathExists w.kernel (authorizedOf device) = false ∧ ∃ bus driver,
          busDirFor P w.kernel device = .ok bus ∧
          boundDriverName F w.kernel device = some driver ∧
          applied = some driver ∧ writeAttr F w (unbindOf bus driver) (lastSegment device) =
            (.ok (), w'))) := by
  obtain ⟨device, hdevice⟩ := setEnabled_device h
  refine ⟨device, hdevice, ?_⟩
  rw [SysfsDeviceController.setEnabled, hdevice] at h
  dsimp only at h
  by_cases hauthorized : P.pathExists w.kernel (authorizedOf device) = true
  · rw [if_pos hauthorized, viaAuthorized] at h
    rcases hwrite : writeAttr F w (authorizedOf device) (str "0") with ⟨result, w''⟩
    simp only [hwrite, Bool.false_eq_true, if_false] at h
    obtain ⟨hresult, rfl⟩ := Prod.mk.inj h
    cases result with
    | error error => exact absurd hresult (by simp [Except.map])
    | ok u => exact .inl ⟨hauthorized, (Except.ok.inj hresult).symm, rfl⟩
  · rw [if_neg hauthorized] at h
    have hnone : P.pathExists w.kernel (authorizedOf device) = false := by simpa using hauthorized
    cases hbus : busDirFor P w.kernel device with
    | error error =>
      rw [hbus] at h
      exact absurd (congrArg Prod.fst h) (by simp)
    | ok bus =>
      rw [hbus] at h
      simp only [Bool.false_eq_true, not_false_eq_true, if_true, disableViaUnbind] at h
      cases hdriver : boundDriverName F w.kernel device with
      | none =>
        rw [hdriver] at h
        obtain ⟨happlied, rfl⟩ := Prod.mk.inj h
        exact .inr (.inl ⟨hnone, rfl, (Except.ok.inj happlied).symm, rfl⟩)
      | some driver =>
        rw [hdriver] at h
        rcases hwrite : writeAttr F w (unbindOf bus driver) (lastSegment device) with
          ⟨result, w''⟩
        simp only [hwrite] at h
        obtain ⟨hresult, rfl⟩ := Prod.mk.inj h
        cases result with
        | error error => exact absurd hresult (by simp [Except.map])
        | ok u =>
          exact .inr (.inr ⟨hnone, bus, driver, rfl, rfl, (Except.ok.inj hresult).symm, hwrite⟩)

theorem enable_asks (hdevice : canonicalDevice P sysfsRoot w.kernel sysfsPath = .ok device)
    (hnone : P.pathExists w.kernel (authorizedOf device) = false)
    (h : SysfsDeviceController.setEnabled F P sysfsRoot w sysfsPath true hint = (.ok applied, w')) :
    ∃ bus, w'.asked = w.asked ++
      if hint ≠ [] ∧ P.pathExists w.kernel (overrideOf device) then
        [(overrideOf device, hint), (probeOf bus, lastSegment device), (overrideOf device, [])]
      else [(probeOf bus, lastSegment device)] := by
  rw [SysfsDeviceController.setEnabled, hdevice] at h
  dsimp only at h
  rw [hnone, if_neg Bool.false_ne_true] at h
  obtain ⟨bus, hbus⟩ : ∃ bus, busDirFor P w.kernel device = .ok bus := by
    cases hbus : busDirFor P w.kernel device with
    | error error =>
      rw [hbus] at h
      exact absurd (congrArg Prod.fst h) (by simp)
    | ok bus => exact ⟨bus, rfl⟩
  refine ⟨bus, ?_⟩
  rw [hbus] at h
  simp only [not_true_eq_false, if_false, enableViaProbe] at h
  by_cases hoverride : hint ≠ [] ∧ P.pathExists w.kernel (overrideOf device) = true
  · rw [if_pos hoverride] at h ⊢
    have hset := writeAttr_asked (F := F) (w := w) (overrideOf device) hint
    rcases hset' : writeAttr F w (overrideOf device) hint with ⟨_ | _, w₁⟩
    · rw [hset'] at h
      exact absurd (congrArg Prod.fst h) (by simp)
    have hprobe := writeAttr_asked (F := F) (w := w₁) (probeOf bus) (lastSegment device)
    have hclear :=
      writeAttr_asked (F := F) (w := (writeAttr F w₁ (probeOf bus) (lastSegment device)).2)
        (overrideOf device) []
    have hlast : w' = (writeAttr F (writeAttr F w₁ (probeOf bus) (lastSegment device)).2
        (overrideOf device) []).2 := by
      rw [hset'] at h
      dsimp only at h
      split at h <;> exact (congrArg Prod.snd h).symm
    rw [hset'] at hset
    rw [hlast, hclear, hprobe, hset, List.append_assoc, List.append_assoc]
    rfl
  · rw [if_neg hoverride] at h ⊢
    have hlast : w' = (writeAttr F w (probeOf bus) (lastSegment device)).2 :=
      (congrArg Prod.snd h).symm
    rw [hlast, writeAttr_asked]

end Disable

end DevMgr.Linux
