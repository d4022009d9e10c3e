import DevMgr.Linux.CabResolver
import DevMgr.Linux.FwupdContract

/-!
# Installing through fwupd

An install asks fwupd again for the device and the release, opens the firmware
file, hands it over, and then asks what has become of it. The reply to the
install is no proof; what `GetResults` has recorded is.
-/

open DevMgr.Core

namespace DevMgr.Linux.Fwupd
open Bytes

/-- What a call throws: `sdbus::Error`, or another exception. -/
inductive Fault where
  | sdbus (name message : Str)
  | exception (what : Str)

abbrev Call := Except Fault

/-- What the daemon answers to one install, call by call. The install itself is not answered at all
within some timeouts. -/
structure Replies where
  getDevices : Call (List Dict)
  getUpgrades : Call (List Dict)
  getRemotes : Call (List Dict)
  install : UInt32 → Option (Call Unit)
  getResults : Call Dict
  getDevicesAfter : Call (List Dict)

def kRemoteKindDirectory : UInt32 := 3

def parseRemoteRef (d : Dict) : RemoteRef where
  id := (get Variant.string? d "RemoteId").getD []
  kind :=
    if (get Variant.uint32? d "Type").getD 0 = kRemoteKindDirectory then str "directory"
      else str "download"
  filenameCache := (get Variant.string? d "FilenameCache").getD []

def dedupeReleases (releases : List ReleaseInfo) : List ReleaseInfo :=
  releases.foldl (fun out r =>
    if out.any fun e => e.remoteId = r.remoteId && e.checksum = r.checksum then out
      else out ++ [r]) []

structure UpgradesOutcome where
  releases : List ReleaseInfo
  queryError : Option Str

def fetchUpgrades (getUpgrades : Call (List Dict)) (remotes : List RemoteRef) :
    Call UpgradesOutcome :=
  match getUpgrades with
  | .ok raw =>
    .ok ⟨(dedupeReleases (raw.filterMap parseRelease)).map fun r =>
      { r with localCab := isLocallyResolvable r.locations remotes r.remoteId }, none⟩
  | .error (.sdbus name message) =>
    .ok ⟨[], if isNothingToDo name then none else some (mapError name message).message⟩
  | .error fault => .error fault

def fetchDevice (getDevices : Call (List Dict)) (deviceId : Str) : Call (Option ParsedDevice) :=
  getDevices.map fun devices => (devices.filterMap parseDevice).find? fun d => d.deviceId = deviceId

/-- A query that failed counts as a release that is gone. -/
def fetchRelease (getUpgrades : Call (List Dict)) (ref : ReleaseRef) : Call (Option ReleaseInfo) :=
  (fetchUpgrades getUpgrades []).map fun outcome =>
    if outcome.queryError.isSome then none
    else outcome.releases.find? fun r => r.remoteId = ref.remoteId && r.checksum = ref.checksum

def fetchRemotes (getRemotes : Call (List Dict)) : Call (List RemoteRef) :=
  getRemotes.map fun remotes => remotes.map parseRemoteRef

def installTimeout (release : ReleaseInfo) : UInt32 :=
  max (release.installDurationSec.getD 0 * 2) 600

/-- The update state `finalize` goes by. -/
def resultsState : Call Dict → Call UInt32
  | .ok results => .ok ((get Variant.uint32? results "UpdateState").getD kUpdateStateSuccess)
  | .error (.sdbus name message) =>
    if isNothingToDo name then .ok kUpdateStateSuccess else .error (.sdbus name message)
  | .error fault => .error fault

def outcomeOf (disposition : InstallDisposition) (preDevice : ParsedDevice)
    (freshDevice : Option ParsedDevice) : InstallOutcome :=
  let newVersion := (freshDevice.getD preDevice).version
  let observedVersion := if newVersion = preDevice.version then none else some newVersion
  let needsReboot :=
    disposition = .needsReboot || (freshDevice.getD preDevice).facts.needsRebootAfterUpdate
  { disposition
    needsReboot
    observedVersion
    message :=
      if needsReboot then str "reboot required to apply " ++ observedVersion.getD newVersion
      else if disposition = .scheduled then str "scheduled for next boot"
      else str "installed " ++ observedVersion.getD newVersion }

def finalize (getResults : Call Dict) (getDevices : Call (List Dict)) (deviceId : Str)
    (preDevice : ParsedDevice) : Call InstallOutcome := do
  let state ← resultsState getResults
  let freshDevice ← fetchDevice getDevices deviceId
  return outcomeOf (dispositionFromUpdateState state) preDevice freshDevice

def installGated (files : CabFiles) (replies : Replies) (candidateId : Str) (release : ReleaseRef) :
    Call (Result InstallOutcome) := do
  match ← fetchDevice replies.getDevices candidateId with
  | none => return makeError .conflict (str "device changed since refresh — refresh & retry")
  | some device =>
    if ¬ device.facts.updatable then
      return makeError .conflict (str "device changed since refresh — refresh & retry")
    match ← fetchRelease replies.getUpgrades release with
    | none => return makeError .conflict (str "release changed since refresh — refresh & retry")
    | some fresh =>
      let remotes ← fetchRemotes replies.getRemotes
      match resolveAndOpenCab files fresh.locations remotes fresh.remoteId fresh.sizeBytes with
      | .error e => return .error e
      | .ok _ =>
        match replies.install (installTimeout fresh) with
        | none =>
            return makeError .io (str "install timed out — state reconciled on next refresh")
        | some reply =>
          reply
          let outcome ← finalize replies.getResults replies.getDevicesAfter candidateId device
          return .ok outcome

def install (connected installing : Bool) (files : CabFiles) (replies : Replies) (candidateId : Str)
    (release : ReleaseRef) : Result InstallOutcome :=
  if ¬ connected then makeError .io (str "fwupd unavailable")
  else if installing then makeError .busy (str "another update is in progress")
  else match installGated files replies candidateId release with
    | .ok result => result
    | .error (.sdbus name message) => .error (mapError name message)
    | .error (.exception what) => makeError .io (str "install failed: " ++ what)

/-- The daemon has the device and the release, the firmware file opens, and the daemon says it is
done. -/
structure Flashed (files : CabFiles) (replies : Replies) (candidateId : Str) (release : ReleaseRef)
    (device : ParsedDevice) (fresh : ReleaseInfo) : Prop where
  found : fetchDevice replies.getDevices candidateId = .ok (some device)
  updatable : device.facts.updatable = true
  offered : fetchRelease replies.getUpgrades release = .ok (some fresh)
  opened : ∃ remotes cab, fetchRemotes replies.getRemotes = .ok remotes ∧
    resolveAndOpenCab files fresh.locations remotes fresh.remoteId fresh.sizeBytes = .ok cab
  replied : replies.install (installTimeout fresh) = some (.ok ())

theorem bind_eq_ok_iff {ε α β : Type} {x : Except ε α} {f : α → Except ε β} {b : β} :
    (x >>= f) = .ok b ↔ ∃ a, x = .ok a ∧ f a = .ok b := by
  cases x with
  | error e => exact ⟨nofun, fun ⟨_, h, _⟩ => nomatch h⟩
  | ok a => exact ⟨fun h => ⟨a, rfl, h⟩, fun ⟨_, ha, h⟩ => Except.ok.inj ha ▸ h⟩

variable {files : CabFiles} {replies : Replies} {candidateId : Str} {release : ReleaseRef}
  {outcome : InstallOutcome}

theorem installGated_ok_iff :
    installGated files replies candidateId release = .ok (.ok outcome) ↔
      ∃ device fresh, Flashed files replies candidateId release device fresh ∧
        finalize replies.getResults replies.getDevicesAfter candidateId device = .ok outcome := by
  unfold installGated
  rw [bind_eq_ok_iff]
  constructor
  · rintro ⟨device, hfound, h⟩
    cases device with
    | none => cases h
    | some device =>
      dsimp only at h
      by_cases hupdatable : device.facts.updatable = true
      · rw [if_neg (not_not.mpr hupdatable)] at h
        obtain ⟨fresh, hoffered, h⟩ := bind_eq_ok_iff.mp h
        cases fresh with
        | none => cases h
        | some fresh =>
          obtain ⟨remotes, hremotes, h⟩ := bind_eq_ok_iff.mp h
          cases hcab :
              resolveAndOpenCab files fresh.locations remotes fresh.remoteId fresh.sizeBytes with
          | error e =>
            rw [hcab] at h
            cases h
          | ok cab =>
            rw [hcab] at h
            cases hreply : replies.install (installTimeout fresh) with
            | none =>
              rw [hreply] at h
              cases h
            | some reply =>
              rw [hreply] at h
              obtain ⟨_, hreplied, h⟩ := bind_eq_ok_iff.mp h
              obtain ⟨final, hfinal, h⟩ := bind_eq_ok_iff.mp h
              obtain rfl : final = outcome := Except.ok.inj (Except.ok.inj h)
              cases hreplied
              exact ⟨device, fresh,
                ⟨hfound, hupdatable, hoffered, ⟨remotes, cab, hremotes, hcab⟩, hreply⟩,
                hfinal⟩
      · rw [if_pos hupdatable] at h
        cases h
  · rintro ⟨device, fresh,
      ⟨hfound, hupdatable, hoffered, ⟨remotes, cab, hremotes, hcab⟩, hreply⟩, hfinal⟩
    refine ⟨some device, hfound, ?_⟩
    dsimp only
    rw [if_neg (not_not.mpr hupdatable)]
    refine bind_eq_ok_iff.mpr ⟨some fresh, hoffered,
      bind_eq_ok_iff.mpr ⟨remotes, hremotes, ?_⟩⟩
    rw [hcab, hreply]
    exact bind_eq_ok_iff.mpr ⟨(), rfl, bind_eq_ok_iff.mpr ⟨outcome, hfinal, rfl⟩⟩

theorem install_ok_iff {connected installing : Bool} :
    install connected installing files replies candidateId release = .ok outcome ↔
      connected = true ∧ installing = false ∧ ∃ device fresh,
        Flashed files replies candidateId release device fresh ∧
        finalize replies.getResults replies.getDevicesAfter candidateId device = .ok outcome := by
  rw [← installGated_ok_iff]
  unfold install
  cases connected with
  | false => exact ⟨nofun, fun h => nomatch h.1⟩
  | true =>
    cases installing with
    | true => exact ⟨nofun, fun h => nomatch h.2.1⟩
    | false =>
      cases installGated files replies candidateId release with
      | ok result => simp
      | error fault => cases fault <;> simp [makeError]

theorem finalize_ok_iff {getResults : Call Dict} {getDevices : Call (List Dict)}
    {preDevice : ParsedDevice} :
    finalize getResults getDevices candidateId preDevice = .ok outcome ↔
      ∃ state freshDevice, resultsState getResults = .ok state ∧
        fetchDevice getDevices candidateId = .ok freshDevice ∧
        outcomeOf (dispositionFromUpdateState state) preDevice freshDevice = outcome := by
  unfold finalize
  rw [bind_eq_ok_iff]
  constructor
  · rintro ⟨state, hstate, h⟩
    obtain ⟨freshDevice, hfresh, h⟩ := bind_eq_ok_iff.mp h
    exact ⟨state, freshDevice, hstate, hfresh, Except.ok.inj h⟩
  · rintro ⟨state, freshDevice, hstate, hfresh, rfl⟩
    exact ⟨state, hstate, bind_eq_ok_iff.mpr ⟨freshDevice, hfresh, rfl⟩⟩

def recorded : Call Dict → Option UInt32
  | .ok results => get Variant.uint32? results "UpdateState"
  | .error _ => none

def NothingRecorded (getResults : Call Dict) : Prop :=
  (∃ results, getResults = .ok results ∧ get Variant.uint32? results "UpdateState" = none) ∨
  ∃ name message, getResults = .error (.sdbus name message) ∧ isNothingToDo name = true

def knownStates : List UInt32 := [kUpdateStatePending, kUpdateStateSuccess, kUpdateStateNeedsReboot]

theorem resultsState_ok_iff {getResults : Call Dict} {state : UInt32} :
    resultsState getResults = .ok state ↔
      recorded getResults = some state ∨ NothingRecorded getResults ∧
      state = kUpdateStateSuccess := by
  unfold resultsState recorded NothingRecorded
  cases getResults with
  | ok results =>
    dsimp only
    cases hstate : get Variant.uint32? results "UpdateState" with
    | none => simp [hstate, eq_comm (a := state)]
    | some recorded => simp [hstate]
  | error fault =>
    cases fault with
    | exception what => simp
    | sdbus name message =>
      by_cases hname : isNothingToDo name = true
      · simp [hname, eq_comm (a := state)]
      · simp [hname]

theorem recorded_of_nothing {getResults : Call Dict} (h : NothingRecorded getResults) :
    recorded getResults = none := by
  rcases h with ⟨results, rfl, hnone⟩ | ⟨name, message, rfl, -⟩
  · exact hnone
  · rfl

/-- What the install reports is what has been recorded. -/
structure Truthful (getResults : Call Dict) (result : Result InstallOutcome) : Prop where
  completed : ∀ outcome, result = .ok outcome → outcome.disposition = .completed →
    recorded getResults = some kUpdateStateSuccess ∨ NothingRecorded getResults
  installed : ∀ outcome state, result = .ok outcome → recorded getResults = some state →
    state ∉ knownStates → ¬ str "installed " <+: outcome.message
  scheduled : ∀ outcome, result = .ok outcome →
    (outcome.disposition = .scheduled ↔ recorded getResults = some kUpdateStatePending)
  needsReboot : ∀ outcome, result = .ok outcome →
    (outcome.disposition = .needsReboot ↔ recorded getResults = some kUpdateStateNeedsReboot)

theorem state_eq_iff {getResults : Call Dict} {state c : UInt32}
    (h : recorded getResults = some state ∨ NothingRecorded getResults ∧
      state = kUpdateStateSuccess)
    (hc : c ≠ kUpdateStateSuccess) : state = c ↔ recorded getResults = some c := by
  obtain hrecorded | ⟨hnothing, hsuccess⟩ := h
  · rw [hrecorded, Option.some_inj]
  · rw [recorded_of_nothing hnothing, hsuccess]
    exact ⟨fun h => absurd h.symm hc, nofun⟩

theorem getDevices_of_fetched {getDevices : Call (List Dict)} {device : Option ParsedDevice}
    (h : fetchDevice getDevices candidateId = .ok device) :
    ∃ devices, getDevices = .ok devices := by
  cases hdevices : getDevices with
  | ok devices => exact ⟨devices, rfl⟩
  | error fault =>
    rw [hdevices] at h
    cases h

theorem install_ok_state {connected installing : Bool}
    (h : install connected installing files replies candidateId release = .ok outcome) :
    (connected = true ∧ installing = false ∧
      (∃ device fresh, Flashed files replies candidateId release device fresh) ∧
      ∃ devices, replies.getDevicesAfter = .ok devices) ∧
    ∃ state, outcome.disposition = dispositionFromUpdateState state ∧
      (recorded replies.getResults = some state ∨
        NothingRecorded replies.getResults ∧ state = kUpdateStateSuccess) := by
  obtain ⟨hconnected, hidle, device, fresh, hflashed, hfinal⟩ := install_ok_iff.mp h
  obtain ⟨state, freshDevice, hresults, hafter, rfl⟩ := finalize_ok_iff.mp hfinal
  exact ⟨⟨hconnected, hidle, ⟨device, fresh, hflashed⟩, getDevices_of_fetched hafter⟩,
    state, rfl, resultsState_ok_iff.mp hresults⟩

/-- An install tells the truth exactly when, once the daemon has said it is done and still answers,
no state but pending, success and needs-reboot is recorded. -/
theorem install_truthful_iff (connected installing : Bool) (files : CabFiles) (replies : Replies)
    (candidateId : Str) (release : ReleaseRef) :
    Truthful replies.getResults (install connected installing files replies candidateId release) ↔
      (connected = true → installing = false →
        (∃ device fresh, Flashed files replies candidateId release device fresh) →
        (∃ devices, replies.getDevicesAfter = .ok devices) →
        ∀ state, recorded replies.getResults = some state → state ∈ knownStates) := by
  constructor
  · rintro htruthful hconnected hidle ⟨device, fresh, hflashed⟩ ⟨devices,
      hafter⟩ state hrecorded
    by_contra hunknown
    have hfresh : fetchDevice replies.getDevicesAfter candidateId =
        .ok ((devices.filterMap parseDevice).find? fun d => d.deviceId = candidateId) := by
      rw [hafter]
      rfl
    have hfinal : finalize replies.getResults replies.getDevicesAfter candidateId device = .ok _ :=
      finalize_ok_iff.mpr ⟨state, _, resultsState_ok_iff.mpr (.inl hrecorded), hfresh, rfl⟩
    have hok := install_ok_iff.mpr ⟨hconnected, hidle, device, fresh, hflashed, hfinal⟩
    have hcompleted : dispositionFromUpdateState state = .completed := by
      simp only [knownStates, List.mem_cons, List.not_mem_nil, or_false, not_or] at hunknown
      exact disposition_completed_iff.mpr ⟨hunknown.2.2, hunknown.1⟩
    rcases htruthful.completed _ hok hcompleted with hsuccess | hnothing
    · rw [hrecorded] at hsuccess
      rw [Option.some.inj hsuccess] at hunknown
      exact hunknown (by simp [knownStates])
    · rw [recorded_of_nothing hnothing] at hrecorded
      cases hrecorded
  · intro hknown
    have hrecordedKnown : ∀ outcome state,
        install connected installing files replies candidateId release = .ok outcome →
        recorded replies.getResults = some state → state ∈ knownStates := by
      intro outcome state hok hrecorded
      obtain ⟨⟨hconnected, hidle, hflashed, hafter⟩, -⟩ := install_ok_state hok
      exact hknown hconnected hidle hflashed hafter state hrecorded
    constructor
    · intro outcome hok hcompleted
      obtain ⟨-, state, hdisposition, hrecorded | ⟨hnothing, -⟩⟩ := install_ok_state hok
      · obtain ⟨hreboot, hpending⟩ :=
          disposition_completed_iff.mp (hdisposition.symm.trans hcompleted)
        have hmem := hrecordedKnown outcome state hok hrecorded
        simp only [knownStates, List.mem_cons, List.not_mem_nil, or_false] at hmem
        obtain hstate | hstate | hstate := hmem
        · exact absurd hstate hpending
        · rw [hrecorded, hstate]
          exact .inl rfl
        · exact absurd hstate hreboot
      · exact .inr hnothing
    · intro outcome state hok hrecorded hunknown
      exact absurd (hrecordedKnown outcome state hok hrecorded) hunknown
    · intro outcome hok
      obtain ⟨-, state, hdisposition, hstate⟩ := install_ok_state hok
      rw [hdisposition, disposition_scheduled_iff, state_eq_iff hstate (by decide)]
    · intro outcome hok
      obtain ⟨-, state, hdisposition, hstate⟩ := install_ok_state hok
      rw [hdisposition, disposition_needsReboot_iff, state_eq_iff hstate (by decide)]

section Failed

def device : Dict :=
  .ofList [(str "DeviceId", Variant.string (str "a1")), (str "Flags", Variant.uint64 2),
    (str "Version", Variant.string (str "1.0"))]

def upgrade : Dict :=
  .ofList [(str "Checksum", Variant.string (str "c")), (str "RemoteId", Variant.string (str "r")),
    (str "Uri", Variant.string (str "file:///a1.cab")), (str "Version", Variant.string (str "2.0"))]

def failedReplies : Replies where
  getDevices := .ok [device]
  getUpgrades := .ok [upgrade]
  getRemotes := .ok []
  install _ := some (.ok ())
  getResults := .ok (.ofList [(str "UpdateState", Variant.uint32 kUpdateStateFailed)])
  getDevicesAfter := .ok [device]

def oneFile : CabFiles :=
  ⟨some, fun path => if path = str "/a1.cab" then .regular 1 else .unopenable⟩

theorem failed_install_reported :
    install true false oneFile failedReplies (str "a1") ⟨str "r", str "c"⟩ =
    .ok ⟨.completed, false, none, str "installed 1.0"⟩ := by
  rfl

theorem failed_install_untruthful :
    ¬ ∀ connected installing files (replies : Replies) candidateId release,
    Truthful replies.getResults
      (install connected installing files replies candidateId release) := by
  intro hall
  have hrecorded : recorded failedReplies.getResults = some kUpdateStateFailed := by rfl
  rcases (hall true false oneFile failedReplies (str "a1") ⟨str "r", str "c"⟩).completed _
    failed_install_reported rfl with hsuccess | hnothing
  · rw [hrecorded] at hsuccess
    revert hsuccess
    decide
  · rw [recorded_of_nothing hnothing] at hrecorded
    cases hrecorded

end Failed

end DevMgr.Linux.Fwupd
