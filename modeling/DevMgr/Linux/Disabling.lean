import DevMgr.Daemon.SysfsIdentity
import DevMgr.Linux.SysfsDeviceController
import DevMgr.Linux.UdevDevice

/-!
# A kernel whose devices are disabled

A disabling takes effect where it is written, and nothing else wakes up or comes
forth. What it leaves is shown as disabled on the USB bus only: udev and the probe
look at the attribute of no other device.
-/

open DevMgr.Core

namespace DevMgr.Linux
open Bytes Daemon

variable {K : Type} (F : Sysfs K) (P : Platform K) (sysfsRoot : Str)

def listed (k : K) : List Device := (P.enumerate k).toOption.getD []

def Still (k : K) (dir : Str) : Prop :=
  if P.pathExists k (authorizedOf dir) then P.firstLine k (authorizedOf dir) = str "0"
  else boundDriverName F k dir = none

def Contained (k : K) (dir : Str) : Prop :=
  (P.weaklyCanonical k sysfsRoot).any (fun root => isContained dir root) = true

structure Remains (k k' : K) (dir : Str) : Prop where
  same : P.SameAt dir k k'
  hasAttribute : P.pathExists k' (authorizedOf dir) = P.pathExists k (authorizedOf dir)
  authorized : P.firstLine k' (authorizedOf dir) = P.firstLine k (authorizedOf dir) ∨
    P.firstLine k' (authorizedOf dir) = str "0"
  driver : boundDriverName F k dir = none → boundDriverName F k' dir = none

structure Calms (k k' : K) : Prop where
  root : P.weaklyCanonical k' sysfsRoot = P.weaklyCanonical k sysfsRoot
  listed : ∀ d' ∈ listed P k', ∃ d ∈ listed P k, SameIdentity d d'
  directory : ∀ dir, P.isDirectory k' dir = true → P.isDirectory k dir = true
  remains : ∀ dir, P.isDirectory k' dir = true → Remains F P k k' dir

/-- What udev reports of a device is what sysfs has. -/
structure Reported (k : K) (x : UdevDevice) : Prop where
  directory : P.isDirectory k (x.syspath.getD []) = true
  canonical : P.weaklyCanonical k (x.syspath.getD []) = some (x.syspath.getD [])
  authorized : (x.attr "authorized").getD [] = P.firstLine k (authorizedOf (x.syspath.getD []))
  driver : x.driver = boundDriverName F k (x.syspath.getD [])

/-- The directories of devices are no links, the link of a bound driver leads to its directory, and
the two attributes do what they are for. -/
structure Kernel (Possible : K → Prop) : Prop where
  canonical : ∀ {k k' link dir}, Possible k → Possible k' →
      P.weaklyCanonical k link = some dir →
    P.isDirectory k dir = true → P.weaklyCanonical k' dir = some dir
  link : ∀ {k dir}, Possible k → P.isDirectory k dir = true →
      P.driverAt k dir = boundDriverName F k dir
  udev : ∀ {k d}, Possible k → d ∈ listed P k →
    ∃ x : UdevDevice, d = (mapDevice x).toDevice ∧ Reported F P k x
  deauthorize : ∀ {k k' dir}, Possible k → P.pathExists k (authorizedOf dir) = true →
    F.write k (authorizedOf dir) (str "0") = (true, k') →
    Possible k' ∧ Calms F P sysfsRoot k k' ∧ P.firstLine k' (authorizedOf dir) = str "0"
  unbind : ∀ {k k' dir bus driver}, Possible k → P.pathExists k (authorizedOf dir) = false →
    busDirFor P k dir = .ok bus → boundDriverName F k dir = some driver →
    F.write k (unbindOf bus driver) (lastSegment dir) = (true, k') →
    Possible k' ∧ Calms F P sysfsRoot k k' ∧ boundDriverName F k' dir = none

variable {F P sysfsRoot} {k k' k'' : K} {dir : Str} {Possible : K → Prop}

section Calms

theorem Remains.refl : Remains F P k k dir := ⟨.refl, rfl, .inl rfl, id⟩

theorem Remains.trans (h : Remains F P k k' dir) (h' : Remains F P k' k'' dir) :
    Remains F P k k'' dir where
  same := h.same.trans h'.same
  hasAttribute := h'.hasAttribute.trans h.hasAttribute
  authorized := by
    rcases h'.authorized with heq | hzero
    · rw [heq]
      exact h.authorized
    · exact .inr hzero
  driver := h'.driver ∘ h.driver

theorem Calms.refl : Calms F P sysfsRoot k k :=
  ⟨rfl, fun d hd => ⟨d, hd, rfl, rfl, rfl, rfl, rfl⟩, fun _ => id, fun _ _ => .refl⟩

theorem Calms.trans (h : Calms F P sysfsRoot k k') (h' : Calms F P sysfsRoot k' k'') :
    Calms F P sysfsRoot k k'' where
  root := h'.root.trans h.root
  listed d'' hd'' := by
    obtain ⟨d', hd', hsame'⟩ := h'.listed d'' hd''
    obtain ⟨d, hd, hsame⟩ := h.listed d' hd'
    exact ⟨d, hd, hsame.trans hsame'⟩
  directory dir := h.directory dir ∘ h'.directory dir
  remains dir hdir := (h.remains dir (h'.directory dir hdir)).trans (h'.remains dir hdir)

theorem Remains.zero (h : Remains F P k k' dir)
    (hzero : P.firstLine k (authorizedOf dir) = str "0") :
    P.firstLine k' (authorizedOf dir) = str "0" := h.authorized.elim (·.trans hzero) id

theorem Remains.still (h : Remains F P k k' dir) (hstill : Still F P k dir) : Still F P k' dir := by
  unfold Still at hstill ⊢
  rw [h.hasAttribute]
  split_ifs at hstill ⊢
  · exact h.zero hstill
  · exact h.driver hstill

theorem Remains.statusAt (h : Remains F P k k' dir) (hstatus : P.statusAt k dir = .disabled) :
    P.statusAt k' dir = .disabled := by
  unfold Platform.statusAt at hstatus ⊢
  have hbus : P.busAt k' dir = P.busAt k dir := by
    unfold Platform.busAt
    rw [h.same.subsystem]
  split_ifs at hstatus with hshown
  refine if_pos ⟨hbus.trans hshown.1, ?_⟩
  unfold Platform.attr
  rcases h.authorized with heq | hzero
  · rw [show child dir (str "authorized") = authorizedOf dir from rfl, heq]
    exact hshown.2
  · rw [show child dir (str "authorized") = authorizedOf dir from rfl, hzero]
    decide

end Calms

def Present (P : Platform K) (k : K) (d : Device) : Prop :=
  d ∈ listed P k ∨ P.isDirectory k d.sysfsPath = true ∧ P.deviceAt k d.sysfsPath = d

structure Shown (F : Sysfs K) (P : Platform K) (k : K) (d : Device) : Prop where
  directory : P.isDirectory k d.sysfsPath = true
  disabled : d.bus = .usb → P.firstLine k (authorizedOf d.sysfsPath) = str "0" →
      d.status = .disabled
  usb : d.status = .disabled → d.bus = .usb
  driver : d.boundDriver = boundDriverName F k d.sysfsPath

section Shown
variable {d d' : Device}

theorem shown_of_reported {x : UdevDevice} (h : Reported F P k x) :
    Shown F P k (mapDevice x).toDevice where
  directory := h.directory
  disabled hbus hzero := if_pos ⟨hbus, h.authorized.trans hzero⟩
  usb hstatus := by
    change (if busFor (x.subsystem.getD []) = .usb ∧ _ then DeviceStatus.disabled
      else .active) = _ at hstatus
    split_ifs at hstatus with hshown
    exact hshown.1
  driver := h.driver

theorem shown_deviceAt (h : Kernel F P sysfsRoot Possible) (hk : Possible k)
    (hdir : P.isDirectory k dir = true) :
    Shown F P k (P.deviceAt k dir) where
  directory := hdir
  disabled hbus hzero := by
    refine if_pos ⟨hbus, ?_⟩
    have hline : P.firstLine k (child dir (str "authorized")) = str "0" := hzero
    unfold Platform.attr
    rw [hline]
    decide
  usb hstatus := by
    change P.statusAt k dir = _ at hstatus
    unfold Platform.statusAt at hstatus
    split_ifs at hstatus with hshown
    exact hshown.1
  driver := h.link hk hdir

theorem shown_of_present (h : Kernel F P sysfsRoot Possible) (hk : Possible k)
    (hd : Present P k d) :
    Shown F P k d := by
  rcases hd with hlisted | ⟨hdir, hd⟩
  · obtain ⟨x, rfl, hreported⟩ := h.udev hk hlisted
    exact shown_of_reported hreported
  · rw [← hd]
    exact shown_deviceAt h hk hdir

theorem listed_calms (h : Kernel F P sysfsRoot Possible) (hk : Possible k) (hk' : Possible k')
    (hcalms : Calms F P sysfsRoot k k') (hd' : d' ∈ listed P k') :
    ∃ d ∈ listed P k, SameIdentity d d' ∧ (d.status = .disabled → d'.status = .disabled) ∧
      (d.boundDriver = none → d'.boundDriver = none) := by
  obtain ⟨d, hd, hsame⟩ := hcalms.listed d' hd'
  have hshown := shown_of_present h hk (.inl hd)
  have hshown' := shown_of_present h hk' (.inl hd')
  have hremains := hcalms.remains _ hshown'.directory
  refine ⟨d, hd, hsame, fun hstatus => ?_, fun hdriver => ?_⟩
  · refine hshown'.disabled (hsame.bus.trans (hshown.usb hstatus)) (hremains.zero ?_)
    obtain ⟨x, rfl, hreported⟩ := h.udev hk hd
    change (if _ ∧ _ then DeviceStatus.disabled else .active) = _ at hstatus
    split_ifs at hstatus with hzero
    rw [hsame.sysfsPath]
    exact hreported.authorized.symm.trans hzero.2
  · rw [hshown'.driver]
    refine hremains.driver ?_
    rw [hsame.sysfsPath, ← hshown.driver]
    exact hdriver

theorem deviceAt_calms (h : Kernel F P sysfsRoot Possible) (hk : Possible k) (hk' : Possible k')
    (hcalms : Calms F P sysfsRoot k k') (hdir : P.isDirectory k' dir = true) :
    ((P.deviceAt k dir).status = .disabled → (P.deviceAt k' dir).status = .disabled) ∧
      ((P.deviceAt k dir).boundDriver = none → (P.deviceAt k' dir).boundDriver = none) := by
  have hremains := hcalms.remains dir hdir
  refine ⟨hremains.statusAt, fun hdriver => ?_⟩
  have hnone : boundDriverName F k dir = none :=
    (h.link hk (hcalms.directory dir hdir)).symm.trans hdriver
  exact (h.link hk' hdir).trans (hremains.driver hnone)

end Shown

def Writes (F : Sysfs K) (P : Platform K) (sysfsRoot : Str) (k : K) (path : Str) : Prop :=
  ∃ device, canonicalDevice P sysfsRoot k path = .ok device ∧
    (P.pathExists k (authorizedOf device) = true ∨
      (∃ bus, busDirFor P k device = .ok bus) ∧ boundDriverName F k device ≠ none)

def Handled (F : Sysfs K) (P : Platform K) (sysfsRoot : Str) (k : K) (dir : Str) : Prop :=
  P.isDirectory k dir = true → canonicalDevice P sysfsRoot k dir = .ok dir ∧ Still F P k dir

section Controller
variable {w w' : Attributed K} {path hint : Str} {applied : Option Str}

theorem canonicalDevice_iff {device : Str} : canonicalDevice P sysfsRoot k path = .ok device ↔
    P.weaklyCanonical k path = some device ∧ Contained P sysfsRoot k device ∧
      P.isDirectory k device = true := by
  unfold canonicalDevice Contained
  cases P.weaklyCanonical k path with
  | none => simp [makeError]
  | some canonical =>
    dsimp only
    split_ifs with hroot hdirectory
    · refine ⟨fun h => ?_, fun h => ?_⟩
      · obtain rfl := Except.ok.inj h
        exact ⟨rfl, hroot, hdirectory⟩
      · rw [Option.some.inj h.1]
    · refine iff_of_false (by simp [makeError]) ?_
      rintro ⟨hsame, _, hdir⟩
      obtain rfl := Option.some.inj hsame
      exact hdirectory hdir
    · refine iff_of_false (by simp [makeError]) ?_
      rintro ⟨hsame, hcontained, _⟩
      obtain rfl := Option.some.inj hsame
      exact hroot hcontained

theorem canonicalDevice_calms (h : Kernel F P sysfsRoot Possible) (hk : Possible k)
    (hk' : Possible k') (hcalms : Calms F P sysfsRoot k k') (hdir : P.isDirectory k' dir = true)
    (hok : canonicalDevice P sysfsRoot k dir = .ok dir) :
    canonicalDevice P sysfsRoot k' dir = .ok dir := by
  obtain ⟨hcanonical, hcontained, hbefore⟩ := canonicalDevice_iff.mp hok
  refine canonicalDevice_iff.mpr ⟨h.canonical hk hk' hcanonical hbefore, ?_, hdir⟩
  unfold Contained
  rw [hcalms.root]
  exact hcontained

theorem Handled.calms (hhandled : Handled F P sysfsRoot k dir) (h : Kernel F P sysfsRoot Possible)
    (hk : Possible k) (hk' : Possible k') (hcalms : Calms F P sysfsRoot k k') :
    Handled F P sysfsRoot k' dir := by
  intro hdir
  obtain ⟨hok, hstill⟩ := hhandled (hcalms.directory dir hdir)
  exact ⟨canonicalDevice_calms h hk hk' hcalms hdir hok, (hcalms.remains dir hdir).still hstill⟩

theorem handled_of_ok (h : Kernel F P sysfsRoot Possible) (hk : Possible w.kernel)
    (hcanonical : P.weaklyCanonical w.kernel dir = some dir)
    (hok : SysfsDeviceController.setEnabled F P sysfsRoot w dir false hint = (.ok applied, w')) :
    Possible w'.kernel ∧ Calms F P sysfsRoot w.kernel w'.kernel ∧
    Handled F P sysfsRoot w'.kernel dir := by
  obtain ⟨device, hdevice, hcases⟩ := disable_cases hok
  obtain rfl : dir = device :=
    Option.some.inj (hcanonical.symm.trans (canonicalDevice_iff.mp hdevice).1)
  rcases hcases with ⟨hattribute, _, hwrite⟩ | ⟨hnone, hdriver, _, rfl⟩ |
    ⟨hnone, bus, driver, hbus, hdriver, _, hwrite⟩
  · obtain ⟨hk', hcalms, hzero⟩ := h.deauthorize hk hattribute (writeAttr_ok hwrite)
    refine ⟨hk', hcalms,
      fun hdir' => ⟨canonicalDevice_calms h hk hk' hcalms hdir' hdevice, ?_⟩⟩
    unfold Still
    rw [(hcalms.remains dir hdir').hasAttribute, if_pos hattribute]
    exact hzero
  · refine ⟨hk, .refl, fun _ => ⟨hdevice, ?_⟩⟩
    unfold Still
    rw [hnone]
    exact hdriver
  · obtain ⟨hk', hcalms, hgone⟩ := h.unbind hk hnone hbus hdriver (writeAttr_ok hwrite)
    refine ⟨hk', hcalms,
      fun hdir' => ⟨canonicalDevice_calms h hk hk' hcalms hdir' hdevice, ?_⟩⟩
    unfold Still
    rw [(hcalms.remains dir hdir').hasAttribute, hnone]
    exact hgone

theorem setEnabled_quiet (h : ¬ Writes F P sysfsRoot w.kernel path) :
    (SysfsDeviceController.setEnabled F P sysfsRoot w path false hint).2 = w := by
  rw [SysfsDeviceController.setEnabled]
  cases hdevice : canonicalDevice P sysfsRoot w.kernel path with
  | error error => rfl
  | ok device =>
    have hsilent : ¬ (P.pathExists w.kernel (authorizedOf device) = true ∨
        (∃ bus, busDirFor P w.kernel device = .ok bus) ∧
        boundDriverName F w.kernel device ≠ none) :=
      fun hwrites => h ⟨device, hdevice, hwrites⟩
    obtain ⟨hattribute, hdriver⟩ := not_or.mp hsilent
    dsimp only
    rw [if_neg hattribute]
    cases hbus : busDirFor P w.kernel device with
    | error error => rfl
    | ok bus =>
      have hnone : boundDriverName F w.kernel device = none := by
        by_contra hbound
        exact hdriver ⟨⟨bus, hbus⟩, hbound⟩
      simp only [Bool.false_eq_true, not_false_eq_true, if_true, disableViaUnbind, hnone]

theorem setEnabled_writes (h : Writes F P sysfsRoot w.kernel path) :
    (SysfsDeviceController.setEnabled F P sysfsRoot w path false hint).2.asked.length =
      w.asked.length + 1 := by
  obtain ⟨device, hdevice, hwrites⟩ := h
  rw [SysfsDeviceController.setEnabled, hdevice]
  dsimp only
  by_cases hattribute : P.pathExists w.kernel (authorizedOf device) = true
  · rw [if_pos hattribute]
    change (writeAttr F w (authorizedOf device) _).2.asked.length = _
    rw [writeAttr_asked, List.length_append, List.length_singleton]
  · rw [if_neg hattribute]
    obtain ⟨⟨bus, hbus⟩, hbound⟩ := hwrites.resolve_left hattribute
    obtain ⟨driver, hdriver⟩ := Option.ne_none_iff_exists'.mp hbound
    rw [hbus]
    simp only [Bool.false_eq_true, not_false_eq_true, if_true, disableViaUnbind, hdriver]
    rw [writeAttr_asked, List.length_append, List.length_singleton]

end Controller

end DevMgr.Linux
